import Credentials.Proofs.Text.Words
import Credentials.Text.Pattern

/-!
# Patterns that need not back up

Where what follows a run of characters cannot begin with one of them, the run is as long as it can
be (`run_many_eq`, `run_many1_eq`, `run_blanks_bind`).  A word takes itself from the start of a
text, and fails on a text that does not begin with it.
-/

namespace Credentials.Pattern

variable {α β : Type} {c : Char → Bool} {k : Unit → Text → Option β}

/-- A run takes all it can if what follows fails on its characters. -/
theorem run_many_eq {s : Text} (h : ∀ x t, x :: t <:+ s → c x = true → k () (x :: t) = none) :
  (many c).run k s = k () (s.dropWhile c)
  := runMany_eq_of_forall_none c (k ()) s h

/-- A run takes all it can if what follows succeeds then. -/
theorem run_many_of_isSome {s : Text} (h : (k () (s.dropWhile c)).isSome = true) :
  (many c).run k s = k () (s.dropWhile c)
  := runMany_eq_of_isSome c (k ()) s h

@[simp]
theorem run_many1_cons (x : Char) (s : Text) :
  (many1 c).run k (x :: s) = if c x then (many c).run k s else none
  := rfl

/-- A run that is not empty takes all it can if what follows fails on its characters. -/
theorem run_many1_eq {x : Char} {s : Text}
    (h : ∀ y t, y :: t <:+ s → c y = true → k () (y :: t) = none) (hx : c x = true) :
  (many1 c).run k (x :: s) = k () ((x :: s).dropWhile c)
  := by
  rw [run_many1_cons, if_pos hx, run_many_eq h, List.dropWhile_cons_of_pos hx]

/-- All blanks at the start are taken if what follows fails on blanks. -/
theorem run_blanks_bind {p : Pattern α} {l : α → Text → Option β} {s : Text}
    (h : ∀ x t, x :: t <:+ s → Text.isBlank x = true → p.run l (x :: t) = none) :
  (do blanks; p).run l s = p.run l (Text.trimStart s)
  := runMany_eq_of_forall_none Text.isBlank (p.run l) s h

/-- A character that differs from the first one is not found. -/
theorem run_char_bind_of_ne {p : Pattern α} {l : α → Text → Option β} {x y : Char} (h : y ≠ x)
    (s : Text) :
  (do char x; p).run l (y :: s) = none
  := if_neg (by simpa using h)

@[simp]
theorem run_word_cons (x : Char) (w s : Text) :
  (word (x :: w)).run k s = (char x).run (fun _ r => (word w).run k r) s
  := rfl

/-- A word takes itself. -/
theorem run_word_append (w s : Text) :
  (word w).run k (w ++ s) = k () s
  := by
  induction w with
  | nil => rfl
  | cons x w ih => simp [ih]

/-- A word is found at the starts of the texts that begin with it only. -/
theorem run_word_eq_none {w s : Text} (h : ¬ w <+: s) :
  (word w).run k s = none
  := by
  induction w generalizing s with
  | nil => apply absurd List.nil_prefix h
  | cons x w ih =>
    cases s with
    | nil => rfl
    | cons y s =>
      rw [run_word_cons, run_char_cons]
      split
      case isTrue hy =>
        apply ih
        intro hw
        apply h
        rw [beq_iff_eq.mp hy, List.cons_prefix_cons]
        exact ⟨rfl, hw⟩
      case isFalse => rfl

theorem run_endOfText (s : Text) :
  endOfText.run k s = if s = [] then k () [] else none
  := by
  cases s with
  | nil => rfl
  | cons x s => rfl

theorem run_endOfLine_of_inline {x : Char} (h : Text.isLineEnd x = false) (s : Text) :
  endOfLine.run k (x :: s) = none
  := by
  simp [endOfLine, h]

/-- A run of any characters ends before the last one if what follows takes exactly one. -/
theorem run_many_any_eq {s : Text} (hnil : k () [] = none)
    (h : ∀ x t, x :: t <:+ s → t ≠ [] → k () (x :: t) = none) :
  (many fun _ => true).run k s = k () s.getLast?.toList
  := by
  induction s with
  | nil => rfl
  | cons x s ih =>
    rw [run_many, runMany, if_pos rfl, ← run_many,
      ih fun y t ht => h y t (ht.trans (List.suffix_cons x s))]
    cases s with
    | nil =>
      change (k () [] <|> k () [x]) = k () [x]
      rw [hnil]
      rfl
    | cons y s =>
      rw [h x (y :: s) (List.suffix_refl _) (List.cons_ne_nil _ _), List.getLast?_cons_cons]
      simp

/-! ### Matches of a whole text -/

theorem piecesFrom_of_length_le (p : Pattern α) (atStart : Bool) {n : Nat} {s : Text}
    (h : s.length ≤ n) :
  piecesFrom p atStart n s = []
  := by
  induction s generalizing atStart n with
  | nil => cases atStart <;> rfl
  | cons x s ih =>
    obtain ⟨n, rfl⟩ := Nat.exists_eq_add_of_le' (Nat.le_trans (Nat.succ_pos _) h)
    rw [piecesFrom]
    apply ih
    simpa using h

/-- A match of the whole text is the only piece. -/
theorem pieces_of_match? {p : Pattern α} {x : Char} {s : Text} {a : α}
    (h : p.match? (x :: s) = some (a, [])) :
  p.pieces (x :: s) = [.inr a]
  := by
  rw [pieces, piecesFrom, h]
  simp only [List.length_nil, Nat.sub_zero]
  rw [piecesFrom_of_length_le _ _ (Nat.le_refl _)]

/-- Outside the starts of lines there is no match. -/
theorem piecesFrom_of_allInline (p : Pattern α) {s : Text} (h : Text.AllInline s) :
  piecesFrom p false 0 s = s.map .inl
  := by
  induction s with
  | nil => rfl
  | cons x s ih =>
    rw [Text.allInline_cons] at h
    rw [piecesFrom, h.1, ih h.2, List.map_cons]

end Credentials.Pattern
