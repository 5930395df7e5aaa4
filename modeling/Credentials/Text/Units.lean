import Credentials.Text.Blank

/-!
# The width of a text in code units

A character outside the basic plane takes two code units of sixteen bits, every other character
takes one.  `units s` is the number of units of the text `s`, and `takeUnits n s` is the longest
start of `s` that fits into `n` units.
-/

namespace Credentials.Text

/-- The number of sixteen-bit code units of a character. -/
def unitsOf (c : Char) : Nat :=
  if c.toNat < 0x10000 then 1 else 2

/-- The number of sixteen-bit code units of a text. -/
def units : Text → Nat
  | [] => 0
  | c :: s => unitsOf c + units s

/-- The longest start of the text that has at most `n` units. -/
def takeUnits (n : Nat) : Text → Text
  | [] => []
  | c :: s => if unitsOf c ≤ n then c :: takeUnits (n - unitsOf c) s else []

@[simp]
theorem units_nil :
  units [] = 0
  := rfl

@[simp]
theorem units_cons (c : Char) (s : Text) :
  units (c :: s) = unitsOf c + units s
  := rfl

@[simp]
theorem units_append (s t : Text) :
  units (s ++ t) = units s + units t
  := by
  induction s with
  | nil => simp
  | cons c s ih => simp [ih, Nat.add_assoc]

end Credentials.Text
