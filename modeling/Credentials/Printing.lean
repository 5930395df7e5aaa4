import Credentials.Error

/-!
# Printing

A computation that prints lines may stop at an error.  What it has printed by then stays printed.
-/

namespace Credentials

/-- A computation that prints, and may stop at an error. -/
abbrev Printing := ExceptT Error (StateM String)

namespace Printing

/-- Prints a line. -/
def line (text : String) : Printing Unit :=
  modify fun printed => printed ++ text ++ "\n"

/-- The result of a computation, or the error at which it stops, with all that it prints. -/
def run {α : Type} (x : Printing α) : Except Error α × String :=
  StateT.run (ExceptT.run x) ""

end Printing

end Credentials
