import Credentials.EnvFile.Entry

/-!
# Values of assignments

The text of an assignment, once trimmed, determines the value of its key.  A text that begins
with a quote is read as the value of an entry.  Any other text is the value itself, up to a
comment, which is a number sign with blanks before it.
-/

namespace Credentials.EnvFile

open Pattern

/-- A comment with the blanks before it, up to the end of the text. -/
def trailingComment : Pattern Unit := do
  blanks1
  comment
  endOfText

/-- The text before the first trailing comment. -/
def withoutComment : Text → Text
  | [] => []
  | c :: s => if (trailingComment.first (c :: s)).isSome then [] else c :: withoutComment s

/-- Whether a text begins with a quote. -/
def startsQuoted (text : Text) : Bool :=
  text.head?.any Text.isQuote

/-- The value that a trimmed text gives to a key. -/
def valueOf (key text : Text) : Text :=
  if startsQuoted text then (findValue? key (key ++ '=' :: text)).getD []
  else withoutComment text

end Credentials.EnvFile
