import Credentials.Text.Blank

/-!
# Lines of a text

`lines s` cuts the text `s` at every line feed; a carriage return directly before a line feed
goes with it.  A carriage return elsewhere is an ordinary character.  There is always at least
one line, and the last one is empty when the text ends in a line feed.
-/

namespace Credentials.Text

/-- The texts `ls` with the character `c` put at the start of the first. -/
def consHead (c : Char) : List Text → List Text
  | [] => [[c]]
  | l :: ls => (c :: l) :: ls

/-- The lines of a text, cut at line feeds and at pairs of a carriage return and a line feed. -/
def lines : Text → List Text
  | [] => [[]]
  | '\n' :: s => [] :: lines s
  | '\r' :: '\n' :: s => [] :: lines s
  | c :: s => consHead c (lines s)

theorem consHead_ne_nil (c : Char) (ls : List Text) :
  consHead c ls ≠ []
  := by
  cases ls <;> simp [consHead]

theorem lines_ne_nil (s : Text) :
  lines s ≠ []
  := by
  fun_cases lines s <;> simp [consHead_ne_nil]

end Credentials.Text
