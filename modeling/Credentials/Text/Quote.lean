import Credentials.Text.Lines
import Credentials.Text.Units

/-!
# Texts in quotes

There are three quote characters.  `quoted s` shows a text on one line between two of them, with
the backslash, the quote in use and the control characters escaped; the quote is the single one
unless the text contains it and another one can do without escapes.  `display s` shows a text of
more than `displayWidth` units as the sum of its lines, each in quotes of its own.
-/

namespace Credentials.Text

/-- The quote character with one stroke. -/
def singleQuote : Char := '\x27'

/-- The quote character with two strokes. -/
def doubleQuote : Char := '\x22'

/-- The quote character that slants back. -/
def backQuote : Char := '\x60'

/-- The quote characters. -/
def isQuote (c : Char) : Bool :=
  c == singleQuote || c == doubleQuote || c == backQuote

/-- The upper case hexadecimal digit of a number below sixteen. -/
def hexDigit (n : Nat) : Char :=
  if n < 10 then Char.ofNat (48 + n) else Char.ofNat (55 + n)

/-- The control characters: those below the space, and those from delete to U+009F. -/
def isControl (c : Char) : Bool :=
  c.toNat < 32 || (127 ≤ c.toNat && c.toNat < 160)

/-- The letter that names a control character after a backslash, where it has one. -/
def controlLetter? (c : Char) : Option Char :=
  match c.toNat with
  | 8 => some 'b'
  | 9 => some 't'
  | 10 => some 'n'
  | 12 => some 'f'
  | 13 => some 'r'
  | _ => none

/-- A character as it is shown between the quotes `q`. -/
def escaped (q c : Char) : Text :=
  if c = q ∨ c = '\\' then ['\\', c]
  else if isControl c then
    match controlLetter? c with
    | some letter => ['\\', letter]
    | none => ['\\', 'x', hexDigit (c.toNat / 16), hexDigit (c.toNat % 16)]
  else [c]

/-- The quote in which a text is shown: the first of the single, the double and the back quote
that the text does not contain, the last one only if no dollar sign stands before an opening
brace, and the single one where none is left. -/
def quoteFor (s : Text) : Char :=
  if ! s.contains singleQuote then singleQuote
  else if ! s.contains doubleQuote then doubleQuote
  else if ! s.contains backQuote && ! (s.zip s.tail).contains ('$', '\x7b') then backQuote
  else singleQuote

/-- A text between quotes. -/
def quoted (s : Text) : Text :=
  quoteFor s :: s.flatMap (escaped (quoteFor s)) ++ [quoteFor s]

/-- The lines of a text, each with its line feed. -/
def linesKept : Text → List Text
  | [] => []
  | c :: s =>
    if c = '\n' then [c] :: linesKept s else consHead c (linesKept s)

/-- The number of units up to which a text is shown on one line. -/
def displayWidth : Nat := 76

/-- A text between quotes, line by line where it is long. -/
def display (s : Text) : Text :=
  if units s ≤ displayWidth then quoted s
  else " +\n  ".toList.intercalate ((linesKept s).map quoted)

end Credentials.Text
