import Credentials.Printing

/-!
# What computations print

A computation prints a text if it adds this text to whatever has been printed before, and then ends
with its result or stops at its error (`Printing.Prints`).  Computations that follow each other
print one text after the other, up to the first error.
-/

namespace Credentials.Printing

variable {α β : Type} {x : Printing α} {f : α → Printing β} {text text' : String}

/-- Whatever has been printed before, the computation adds the text to it and gives the result, or
the error at which it stops. -/
def Prints (x : Printing α) (text : String) (result : Except Error α) : Prop :=
  ∀ printed, StateT.run (ExceptT.run x) printed = (result, printed ++ text)

theorem Prints.run_eq {result : Except Error α} (h : x.Prints text result) :
  x.run = (result, text)
  := by
  rw [run, h, String.empty_append]

theorem prints_pure (a : α) :
  Prints (pure a) "" (.ok a)
  := by
  intro printed
  rw [String.append_empty]
  rfl

theorem prints_line (text : String) :
  (line text).Prints (text ++ "\n") (.ok ())
  := by
  intro printed
  rw [← String.append_assoc]
  rfl

theorem prints_ofExcept (result : Except Error α) :
  Prints (MonadExcept.ofExcept result) "" result
  := by
  intro printed
  rw [String.append_empty]
  cases result <;> rfl

/-- A computation that gives a result is followed by the next one. -/
theorem Prints.bind {a : α} {result : Except Error β} (h : x.Prints text (.ok a))
    (h' : (f a).Prints text' result) :
  (x >>= f).Prints (text ++ text') result
  := by
  intro printed
  rw [ExceptT.run_bind, StateT.run_bind, h, ← String.append_assoc]
  apply h'

theorem Prints.bind_of_silent {a : α} {result : Except Error β} (h : x.Prints "" (.ok a))
    (h' : (f a).Prints text result) :
  (x >>= f).Prints text result
  := by
  rw [← @String.empty_append text]
  apply h.bind h'

/-- A computation that stops at an error is not followed by another. -/
theorem Prints.bind_error {e : Error} (h : x.Prints text (.error e)) :
  (x >>= f).Prints text (.error e)
  := by
  intro printed
  rw [ExceptT.run_bind, StateT.run_bind, h]
  rfl

/-- Lines are printed one after the other. -/
theorem prints_forM_line (as : List α) (g : α → String) :
  (as.forM fun a => line (g a)).Prints (String.join (as.map fun a => g a ++ "\n")) (.ok ())
  := by
  induction as with
  | nil => apply prints_pure
  | cons a as ih =>
    rw [List.map_cons, String.join_cons]
    apply (prints_line (g a)).bind ih

/-- Where nothing is printed for any of the items and each has a result, all results are given. -/
theorem prints_mapM {g : α → β} {as : List α} (h : ∀ a ∈ as, (f a).Prints "" (.ok (g a))) :
  (as.mapM f).Prints "" (.ok (as.map g))
  := by
  induction as with
  | nil => apply prints_pure
  | cons a as ih =>
    obtain ⟨ha, has⟩ := List.forall_mem_cons.mp h
    rw [List.mapM_cons]
    apply ha.bind_of_silent
    apply (ih has).bind_of_silent
    apply prints_pure

/-- An error at the first item is where the items stop. -/
theorem prints_mapM_error {a : α} {as : List α} {e : Error} (h : (f a).Prints "" (.error e)) :
  ((a :: as).mapM f).Prints "" (.error e)
  := by
  rw [List.mapM_cons]
  apply h.bind_error

end Credentials.Printing
