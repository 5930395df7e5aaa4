import Credentials.Text.Quote
import Credentials.EnvFile.Assignment

/-!
# Entries with quoted values

An entry is a key with an optional value, `key = value` or `key: value`, that begins where a line
begins.  The value is a text between two quotes, in which a quote after a backslash may stand,
or else what comes before a number sign or the end of the line.  After the value a comment may
stand, and then the line ends.  Where a closing quote leaves something else, an earlier one is
tried, and at last the value is taken without regard to quotes.

`entries s` are the entries of a text with their values cleaned: trimmed, without the quotes
around them, and, if they began with a double quote, with `\n` and `\r` written out.
-/

namespace Credentials.EnvFile

open Pattern

/-- The text with every line that a carriage return ends, alone or with a line feed, ended by a
line feed. -/
def unifyLineEnds : Text → Text
  | [] => []
  | '\r' :: '\n' :: s => '\n' :: unifyLineEnds s
  | '\r' :: s => '\n' :: unifyLineEnds s
  | c :: s => c :: unifyLineEnds s

/-- The first success of `k` after a run of characters other than the quote `q` and of quotes
after a backslash, longest first. -/
def runBody {β : Type} (q : Char) (k : Text → Option β) : Text → Option β
  | [] => k []
  | '\\' :: x :: s =>
    (if x = q then runBody q k s else none) <|> runBody q k (x :: s) <|> k ('\\' :: x :: s)
  | x :: s => (if x = q then none else runBody q k s) <|> k (x :: s)

/-- What stands between two quotes `q`, preferably long. -/
def body (q : Char) : Pattern Unit :=
  ⟨fun k => runBody q (k ())⟩

/-- A text between two quotes `q`, with the blanks before it. -/
def quotedValue (q : Char) : Pattern Unit := do
  blanks
  char q
  body q
  char q

/-- The characters of values that are taken without regard to quotes. -/
def isBareChar (c : Char) : Bool :=
  c != '#' && c != '\r' && c != '\n'

/-- A value, with the blanks around it. -/
def entryValue : Pattern Unit :=
  quotedValue Text.singleQuote <|> quotedValue Text.doubleQuote <|> quotedValue Text.backQuote <|>
    many1 isBareChar

/-- What stands between a key and its value. -/
def separator : Pattern Unit :=
  (do blanks; char '='; fewest Text.isBlank) <|> (do char ':'; fewest1 Text.isBlank)

/-- A comment, from its number sign to the end of the line. -/
def comment : Pattern Unit := do
  char '#'
  many Text.isInline

/-- An entry: its key and its value, which is empty if there is none. -/
def entry : Pattern (Text × Text) := do
  blanks
  exportMark
  let key ← (many1 isKeyChar).taken
  separator
  let value ← (Pattern.optional entryValue).taken
  blanks
  Pattern.optional comment
  endOfLine
  return (key.text, value.text)

/-- A text between two equal quotes that ends its line; it returns the text without them. -/
def enclosed : Pattern Text := do
  let q ← one Text.isQuote
  let m ← (many fun _ => true).taken
  char q
  endOfLine
  return m.text

/-- The text with the character `new` for every pair of a backslash and `letter`. -/
def expand (letter new : Char) : Text → Text
  | [] => []
  | '\\' :: x :: s =>
    if x = letter then new :: expand letter new s else '\\' :: expand letter new (x :: s)
  | c :: s => c :: expand letter new s

/-- The text with line feeds and carriage returns for their escapes. -/
def expandEscapes (s : Text) : Text :=
  expand 'r' '\r' (expand 'n' '\n' s)

/-- A value as it is read: trimmed, without the quotes around it, and with its escapes written
out if it began with a double quote. -/
def cleaned (value : Text) : Text :=
  let bare := enclosed.replace (Text.trim value)
  if (Text.trim value).head? = some Text.doubleQuote then expandEscapes bare else bare

/-- The entries of a text, in order. -/
def entries (s : Text) : List (Text × Text) :=
  (entry.all (unifyLineEnds s)).map fun (key, value) => (key, cleaned value)

/-- The value of the last entry of a key. -/
def findValue? (key : Text) (s : Text) : Option Text :=
  (entries s).reverse.lookup key

end Credentials.EnvFile
