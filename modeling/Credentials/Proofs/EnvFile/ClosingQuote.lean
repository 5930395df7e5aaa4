import Credentials.EnvFile.Entry
import Credentials.Proofs.Text.Patterns

/-!
# Closing quotes

A text that begins with a quote may be closed by a quote before which every other quote has a
backslash in front of it (`IsCandidate`), if only blanks and a comment follow (`ClosesAt`).  Where
several quotes may close, the last of them does (`closing?_eq_some_iff`).

The pattern between two quotes tries the candidates from the last to the first:
`run_body_quote` states that it succeeds at the last candidate after which the rest of the match
succeeds.
-/

namespace Credentials.EnvFile

open Pattern Text

variable {q : Char}

/-- At the index `p` stands a quote before which every quote, except for the one at the start, has
a backslash in front of it. -/
def IsCandidate (q : Char) (v : Text) (p : Nat) : Prop :=
  1 ≤ p ∧ v[p]? = some q ∧ ∀ i < p, 1 ≤ i → v[i]? = some q → v[i - 1]? = some '\\'

/-- Only blanks, or blanks and a comment, are left. -/
def EndsEntry (s : Text) : Prop :=
  ∀ c ∈ (trimStart s).head?, c = '#'

/-- At the index `p` stands a quote that may close the text. -/
def ClosesAt (q : Char) (v : Text) (p : Nat) : Prop :=
  IsCandidate q v p ∧ EndsEntry (v.drop (p + 1))

instance (v : Text) (p : Nat) : Decidable (IsCandidate q v p) :=
  inferInstanceAs (Decidable (_ ∧ _ ∧ _))

instance (s : Text) : Decidable (EndsEntry s) :=
  Option.decidableForallMem _

instance (v : Text) (p : Nat) : Decidable (ClosesAt q v p) :=
  inferInstanceAs (Decidable (_ ∧ _))

/-- The index of the last quote that may close the text. -/
def closing? (q : Char) (v : Text) : Option Nat :=
  (List.range v.length).reverse.find? (ClosesAt q v ·)

/-! ### The last quote that may close -/

theorem ClosesAt.lt_length {v : Text} {p : Nat} (h : ClosesAt q v p) :
  p < v.length
  := (List.getElem?_eq_some_iff.mp h.1.2.1).1

theorem closing?_eq_none_iff {v : Text} :
  closing? q v = none ↔ ∀ p, ¬ ClosesAt q v p
  := by
  rw [closing?, List.find?_eq_none]
  constructor
  · intro h p hp
    apply h p _ (decide_eq_true hp)
    simp [hp.lt_length]
  · intro h p _ hp
    apply h p (of_decide_eq_true hp)

theorem closing?_eq_some_iff {v : Text} {p : Nat} :
  closing? q v = some p ↔ ClosesAt q v p ∧ ∀ p', ClosesAt q v p' → p' ≤ p
  := by
  have hmax : ∀ p, closing? q v = some p → ClosesAt q v p ∧ ∀ p', ClosesAt q v p' → p' ≤ p := by
    intro p h
    obtain ⟨hp, before, after, heq, hbefore⟩ := List.find?_eq_some_iff_append.mp h
    use of_decide_eq_true hp
    intro p' hp'
    have hsorted : (List.range v.length).reverse.Pairwise (· > ·) :=
      List.pairwise_reverse.mpr List.pairwise_lt_range
    have hmem : p' ∈ (List.range v.length).reverse := by simp [hp'.lt_length]
    rw [heq] at hsorted hmem
    rcases List.mem_append.mp hmem with hmem | hmem
    · have := hbefore p' hmem
      simp [hp'] at this
    · rcases List.mem_cons.mp hmem with rfl | hmem
      · apply Nat.le_refl
      · have hlt := List.rel_of_pairwise_cons (List.pairwise_append.mp hsorted).2.1 hmem
        omega
  constructor
  · apply hmax p
  · rintro ⟨hp, hlast⟩
    cases h : closing? q v with
    | none => apply absurd hp (closing?_eq_none_iff.mp h p)
    | some p' =>
      obtain ⟨hp', hlast'⟩ := hmax p' h
      rw [Nat.le_antisymm (hlast p' hp') (hlast' p hp)]

/-! ### Candidates in the rest of a text -/

/-- At the index `i` of the rest `w` of a text, after the character `prev`, stands a quote before
which every quote of the rest has a backslash in front of it. -/
def IsCandidateAfter (q prev : Char) (w : Text) (i : Nat) : Prop :=
  w[i]? = some q ∧ ∀ j < i, w[j]? = some q → (prev :: w)[j]? = some '\\'

theorem isCandidate_cons_iff {w : Text} {p : Nat} :
  IsCandidate q (q :: w) p ↔ ∃ i, p = i + 1 ∧ IsCandidateAfter q q w i
  := by
  constructor
  · rintro ⟨hp, hquote, hbefore⟩
    obtain ⟨i, rfl⟩ := Nat.exists_eq_add_of_le' hp
    use i, rfl, hquote
    intro j hj hq
    apply hbefore (j + 1) (by omega) (by omega) hq
  · rintro ⟨i, rfl, hquote, hbefore⟩
    use by omega, hquote
    intro j hj hj' hq
    obtain ⟨j, rfl⟩ := Nat.exists_eq_add_of_le' hj'
    apply hbefore j (by omega) hq

theorem not_isCandidateAfter_nil {prev : Char} {i : Nat} :
  ¬ IsCandidateAfter q prev [] i
  := by
  rintro ⟨h, -⟩
  cases h

theorem isCandidateAfter_zero {prev x : Char} {s : Text} :
  IsCandidateAfter q prev (x :: s) 0 ↔ x = q
  := by
  simp [IsCandidateAfter]

theorem isCandidateAfter_succ {prev x : Char} {s : Text} {i : Nat} :
  IsCandidateAfter q prev (x :: s) (i + 1)
    ↔ (x = q → prev = '\\') ∧ IsCandidateAfter q x s i
  := by
  constructor
  · rintro ⟨hquote, hbefore⟩
    constructor
    · rintro rfl
      have := hbefore 0 (by omega) rfl
      simpa using this
    · use hquote
      intro j hj hq
      apply hbefore (j + 1) (by omega) hq
  · rintro ⟨hx, hquote, hbefore⟩
    use hquote
    intro j hj hq
    cases j with
    | zero =>
      obtain rfl : x = q := by simpa using hq
      simp [hx rfl]
    | succ j => apply hbefore j (by omega) hq

/-! ### The pattern between quotes -/

section Run

variable {β : Type} {k : Text → Option β}

/-- The first success of `k` at a candidate of a text that comes after the character `prev`, the
last candidate being tried first. -/
def runCandidates (q : Char) (k : Text → Option β) (prev : Char) : Text → Option β
  | [] => none
  | x :: s =>
    (if x = q ∧ prev ≠ '\\' then none else runCandidates q k x s) <|>
      if x = q then k (x :: s) else none

theorem runCandidates_blocked {prev : Char} (h : prev ≠ '\\') (s : Text) :
  runCandidates q k prev (q :: s) = k (q :: s)
  := by
  simp [runCandidates, h]

theorem runCandidates_escaped (s : Text) :
  runCandidates q k '\\' (q :: s) = (runCandidates q k q s <|> k (q :: s))
  := by
  simp [runCandidates]

theorem runCandidates_of_ne {prev x : Char} (h : x ≠ q) (s : Text) :
  runCandidates q k prev (x :: s) = runCandidates q k x s
  := by
  simp [runCandidates, h]

/-- Where `k` succeeds at quotes only, the pattern between quotes tries the candidates. -/
theorem runBody_eq_runCandidates (hq : q ≠ '\\') (hnil : k [] = none)
    (hk : ∀ x s, x ≠ q → k (x :: s) = none) {prev : Char} (hprev : prev ≠ '\\') (w : Text) :
  runBody q k w = runCandidates q k prev w
  := by
  fun_induction runBody q k w generalizing prev with
  | case1 => rw [hnil, runCandidates]
  | case2 x s ih ih' =>
    rw [runCandidates_of_ne hq.symm, hk _ _ hq.symm, Option.orElse_eq_orElse]
    by_cases hx : x = q
    · subst hx
      rw [if_pos rfl, ih hq, ih' hq, runCandidates_blocked hq, runCandidates_escaped]
      simp
    · rw [if_neg hx, ih' hprev, runCandidates_of_ne hx, runCandidates_of_ne hx]
      simp
  | case3 x s hs ih =>
    by_cases hx : x = q
    · subst hx
      rw [if_pos rfl, runCandidates_blocked hprev]
      simp
    · rw [if_neg hx, hk _ _ hx, runCandidates_of_ne hx]
      cases s with
      | nil => simp [runBody, runCandidates, hnil]
      | cons y s =>
        have hslash : x ≠ '\\' := by
          rintro rfl
          apply hs y s rfl rfl
        rw [ih hslash]
        simp

/-- After a quote without a backslash no candidate is left. -/
theorem not_isCandidateAfter_succ {prev : Char} (h : prev ≠ '\\') (s : Text) (i : Nat) :
  ¬ IsCandidateAfter q prev (q :: s) (i + 1)
  := by
  rw [isCandidateAfter_succ]
  rintro ⟨hprev, -⟩
  apply h (hprev rfl)

theorem runCandidates_eq_none_iff {prev : Char} {w : Text} :
  runCandidates q k prev w = none ↔ ∀ i, IsCandidateAfter q prev w i → k (w.drop i) = none
  := by
  induction w generalizing prev with
  | nil => simp [runCandidates, not_isCandidateAfter_nil]
  | cons x s ih =>
    rw [← Nat.and_forall_add_one]
    simp only [isCandidateAfter_zero, List.drop_zero, List.drop_succ_cons]
    by_cases hx : x = q
    · subst hx
      by_cases hprev : prev = '\\'
      · subst hprev
        simp [runCandidates_escaped, isCandidateAfter_succ, ih, and_comm]
      · simp [runCandidates_blocked hprev, not_isCandidateAfter_succ hprev]
    · simp [runCandidates_of_ne hx, isCandidateAfter_succ, hx, ih]

/-- The candidates are tried from the last to the first. -/
theorem runCandidates_eq_some_iff {prev : Char} {w : Text} {b : β} :
  runCandidates q k prev w = some b ↔
    ∃ i, IsCandidateAfter q prev w i ∧ k (w.drop i) = some b ∧
      ∀ j, i < j → IsCandidateAfter q prev w j → k (w.drop j) = none
  := by
  induction w generalizing prev with
  | nil => simp [runCandidates, not_isCandidateAfter_nil]
  | cons x s ih =>
    have hzero : ∀ P : Nat → Prop, (∀ j, 0 < j → P j) ↔ ∀ j, P (j + 1) := by
      intro P
      rw [← Nat.and_forall_add_one]
      simp
    have hsucc : ∀ (i : Nat) (P : Nat → Prop),
        (∀ j, i + 1 < j → P j) ↔ ∀ j, i < j → P (j + 1) := by
      intro i P
      rw [← Nat.and_forall_add_one]
      simp
    rw [← Nat.or_exists_add_one]
    simp only [hzero, hsucc, isCandidateAfter_zero, List.drop_zero, List.drop_succ_cons]
    by_cases hx : x = q
    · subst hx
      by_cases hprev : prev = '\\'
      · subst hprev
        simp [runCandidates_escaped, isCandidateAfter_succ, ih, ← runCandidates_eq_none_iff,
          Option.or_eq_some_iff, or_comm, and_comm]
      · simp [runCandidates_blocked hprev, not_isCandidateAfter_succ hprev]
    · simp [runCandidates_of_ne hx, isCandidateAfter_succ, hx, ih]

/-- At a quote, the quote is taken and `l` goes on after it. -/
theorem run_char_drop {l : Unit → Text → Option β} {w : Text} {i : Nat} (h : w[i]? = some q) :
  (char q).run l (w.drop i) = l () (w.drop (i + 1))
  := by
  obtain ⟨hi, hq⟩ := List.getElem?_eq_some_iff.mp h
  rw [List.drop_eq_getElem_cons hi, hq, run_char_cons, if_pos (beq_self_eq_true q)]

/-- What follows a quote is a body and a quote, which is one of the candidates. -/
theorem run_body_eq_runCandidates (hq : q ≠ '\\') {l : Unit → Text → Option β} (w : Text) :
  (do body q; char q).run l w = runCandidates q ((char q).run l) q w
  := by
  apply runBody_eq_runCandidates hq rfl _ hq
  intro x s hx
  apply if_neg (by simpa using hx)

/-- A text that begins with a quote is closed by the last quote that may close it, if what follows
succeeds exactly where an entry may end. -/
theorem run_body_quote (hq : q ≠ '\\') {l : Unit → Text → Option β} {w : Text}
    (hl : ∀ r, r <:+ w → ((l () r).isSome ↔ EndsEntry r)) :
  (do body q; char q).run l w
    = (closing? q (q :: w)).bind fun p => l () ((q :: w).drop (p + 1))
  := by
  have hends : ∀ i, l () (w.drop (i + 1)) = none ↔ ¬ EndsEntry (w.drop (i + 1)) := by
    intro i
    rw [← hl _ (List.drop_suffix _ _), Option.not_isSome_iff_eq_none]
  rw [run_body_eq_runCandidates hq]
  cases hclosing : closing? q (q :: w) with
  | none =>
    rw [closing?_eq_none_iff] at hclosing
    apply runCandidates_eq_none_iff.mpr
    intro i hi
    rw [run_char_drop hi.1, hends]
    intro hend
    apply hclosing (i + 1) ⟨isCandidate_cons_iff.mpr ⟨i, rfl, hi⟩, hend⟩
  | some p =>
    obtain ⟨⟨hp, hend⟩, hlast⟩ := closing?_eq_some_iff.mp hclosing
    obtain ⟨i, rfl, hi⟩ := isCandidate_cons_iff.mp hp
    obtain ⟨b, hb⟩ := Option.isSome_iff_exists.mp ((hl _ (List.drop_suffix _ _)).mpr hend)
    rw [Option.bind_some, List.drop_succ_cons, hb]
    apply runCandidates_eq_some_iff.mpr
    use i, hi
    constructor
    · rw [run_char_drop hi.1]
      apply hb
    · intro j hj hcandidate
      rw [run_char_drop hcandidate.1, hends]
      intro hend'
      have := hlast (j + 1) ⟨isCandidate_cons_iff.mpr ⟨j, rfl, hcandidate⟩, hend'⟩
      omega

end Run

end Credentials.EnvFile
