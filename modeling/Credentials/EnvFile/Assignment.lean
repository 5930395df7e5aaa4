import Credentials.Text.Pattern

/-!
# Assignments

A line of an environment file assigns a text to a key if it has the form `key = text`, where the
key is a word of letters, digits, underscores, dots and hyphens, blanks may stand around it, and
the word `export` may stand before it.  The text goes to the end of the line and contains no
character that ends a line.
-/

namespace Credentials.EnvFile

open Pattern

/-- The characters of keys. -/
def isKeyChar (c : Char) : Bool :=
  c.isAlphanum || c == '_' || c == '.' || c == '-'

/-- The word that may stand before a key. -/
def exportWord : Text := "export".toList

/-- An optional `export`, with the blanks after it. -/
def exportMark : Pattern Unit :=
  Pattern.optional do
    word exportWord
    blanks1

/-- A whole line that assigns the second text returned to the key returned first. -/
def assignment : Pattern (Text × Text) := do
  blanks
  exportMark
  let key ← (many1 isKeyChar).taken
  blanks
  char '='
  let text ← (many Text.isInline).taken
  endOfText
  return (key.text, text.text)

end Credentials.EnvFile
