/-!
# Blank characters

A text is a list of characters.  `isBlank` is the class of white space: tab to carriage return,
the space separators of Unicode, the two Unicode separators of lines and paragraphs, and the byte
order mark.  `isLineEnd` is the subclass of characters that end a line.  `trim` removes the blanks
at both ends of a text.
-/

namespace Credentials

/-- A text, as the list of its characters. -/
abbrev Text := List Char

namespace Text

/-- The characters that end a line: line feed, carriage return, and the separators of lines and
of paragraphs. -/
def isLineEnd (c : Char) : Bool :=
  c == '\n' || c == '\r' || c == '\u2028' || c == '\u2029'

/-- The white space characters. -/
def isBlank (c : Char) : Bool :=
  ('\t' ≤ c && c ≤ '\r') || c == ' ' || c == '\u00a0' || c == '\u1680' ||
  ('\u2000' ≤ c && c ≤ '\u200a') || c == '\u2028' || c == '\u2029' || c == '\u202f' ||
  c == '\u205f' || c == '\u3000' || c == '\ufeff'

/-- The characters that stay on their line. -/
def isInline (c : Char) : Bool :=
  !isLineEnd c

/-- The text without the blanks at its start. -/
def trimStart (s : Text) : Text :=
  s.dropWhile isBlank

/-- The text without the blanks at its end. -/
def trimEnd (s : Text) : Text :=
  (s.reverse.dropWhile isBlank).reverse

/-- The text without the blanks at its two ends. -/
def trim (s : Text) : Text :=
  trimEnd (trimStart s)

end Text

end Credentials
