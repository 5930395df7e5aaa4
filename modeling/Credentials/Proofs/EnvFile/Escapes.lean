import Credentials.EnvFile.Entry

/-!
# Escapes

In a value between double quotes, a backslash with an `n` stands for a line feed and one with an
`r` for a carriage return.  Writing out the first kind and then the second is the same as writing
out both from left to right (`expandEscapes_eq_unescaped`), and gives back a text without
backslashes whose line feeds and carriage returns have been escaped (`unescaped_escapedLine`).
-/

namespace Credentials.EnvFile

/-- The text with a line feed for every `\n` and a carriage return for every `\r`, read from left
to right. -/
def unescaped : Text → Text
  | [] => []
  | '\\' :: 'n' :: s => '\n' :: unescaped s
  | '\\' :: 'r' :: s => '\r' :: unescaped s
  | c :: s => c :: unescaped s

/-- A character as it is written on one line. -/
def escapedChar (c : Char) : Text :=
  if c = '\n' then ['\\', 'n'] else if c = '\r' then ['\\', 'r'] else [c]

/-- The text with `\n` for every line feed and `\r` for every carriage return. -/
def escapedLine (s : Text) : Text :=
  s.flatMap escapedChar

/-- The character stands in the text, or an escape for it does. -/
def IsSpelled (c : Char) (s : Text) : Prop :=
  c ∈ s ∨ (c = '\n' ∧ ['\\', 'n'] <:+: s) ∨ (c = '\r' ∧ ['\\', 'r'] <:+: s)

/-! ### One kind of escapes -/

section Expand

variable {letter new : Char}

theorem expand_escape (s : Text) :
  expand letter new ('\\' :: letter :: s) = new :: expand letter new s
  := by
  simp [expand]

/-- A character that does not begin an escape stays. -/
theorem expand_cons {c : Char} {s : Text} (h : c = '\\' → s.head? ≠ some letter) :
  expand letter new (c :: s) = c :: expand letter new s
  := by
  cases s with
  | nil => simp [expand]
  | cons x s =>
    by_cases hc : c = '\\'
    · subst hc
      have hx : x ≠ letter := by simpa using h rfl
      simp [expand, hx]
    · rw [expand]
      rintro y t rfl
      apply absurd rfl hc

/-- The first character of the text with escapes written out is the first one of the text, if no
escape stands for it. -/
theorem head?_of_head?_expand {s : Text} {c : Char} (hc : c ≠ new)
    (h : (expand letter new s).head? = some c) :
  s.head? = some c
  := by
  cases s with
  | nil => cases h
  | cons x s =>
    by_cases hx : x = '\\' ∧ s.head? = some letter
    · obtain ⟨rfl, hs⟩ := hx
      obtain ⟨t, rfl⟩ := List.head?_eq_some_iff.mp hs
      rw [expand_escape] at h
      apply absurd (Option.some.inj h).symm hc
    · rw [expand_cons (not_and.mp hx)] at h
      apply h

end Expand

/-! ### Both kinds -/

theorem unescaped_cons {c : Char} {s : Text}
    (h : c = '\\' → s.head? ≠ some 'n' ∧ s.head? ≠ some 'r') :
  unescaped (c :: s) = c :: unescaped s
  := by
  rw [unescaped]
  · rintro t rfl rfl
    apply (h rfl).1 rfl
  · rintro t rfl rfl
    apply (h rfl).2 rfl

/-- An escape does not go from one text into another that does not begin with its letter. -/
theorem unescaped_append {s r : Text} (h : r.head? ≠ some 'n' ∧ r.head? ≠ some 'r') :
  unescaped (s ++ r) = unescaped s ++ unescaped r
  := by
  fun_induction unescaped s with
  | case1 => rfl
  | case2 s ih | case3 s ih =>
    rw [List.cons_append, List.cons_append, unescaped, ih]
    rfl
  | case4 c s hn hr ih =>
    rw [List.cons_append, unescaped_cons, ih]
    · rfl
    · rintro rfl
      cases s with
      | nil => apply h
      | cons x s =>
        constructor
        · intro hx
          obtain rfl : x = 'n' := Option.some.inj hx
          apply hn s rfl rfl
        · intro hx
          obtain rfl : x = 'r' := Option.some.inj hx
          apply hr s rfl rfl

theorem IsSpelled.of_isInfix {c : Char} {s t : Text} (h : IsSpelled c s) (hst : s <:+: t) :
  IsSpelled c t
  := by
  rcases h with h | ⟨hc, h⟩ | ⟨hc, h⟩
  · left
    apply hst.subset h
  · right
    left
    exact ⟨hc, h.trans hst⟩
  · right
    right
    exact ⟨hc, h.trans hst⟩

/-- Writing out escapes gives no other characters than those of the text and those for which an
escape stands in it. -/
theorem isSpelled_of_mem_unescaped {s : Text} {c : Char} (h : c ∈ unescaped s) :
  IsSpelled c s
  := by
  fun_induction unescaped s with
  | case1 => cases h
  | case2 s ih =>
    rcases List.mem_cons.mp h with hc | h
    · right
      left
      exact ⟨hc, [], s, rfl⟩
    · apply (ih h).of_isInfix ⟨['\\', 'n'], [], List.append_nil _⟩
  | case3 s ih =>
    rcases List.mem_cons.mp h with hc | h
    · right
      right
      exact ⟨hc, [], s, rfl⟩
    · apply (ih h).of_isInfix ⟨['\\', 'r'], [], List.append_nil _⟩
  | case4 x s _ _ ih =>
    rcases List.mem_cons.mp h with rfl | h
    · left
      apply List.mem_cons_self
    · apply (ih h).of_isInfix (List.infix_cons (List.infix_refl s))

/-- Writing out line feeds first and then carriage returns is writing out both. -/
theorem expandEscapes_eq_unescaped (s : Text) :
  expandEscapes s = unescaped s
  := by
  rw [expandEscapes]
  fun_induction unescaped s with
  | case1 => rfl
  | case2 s ih =>
    rw [expand_escape, expand_cons, ih]
    intro h
    cases h
  | case3 s ih =>
    have hr : expand 'n' '\n' ('\\' :: 'r' :: s) = '\\' :: 'r' :: expand 'n' '\n' s := by
      rw [expand_cons (by simp), expand_cons (by simp)]
    rw [hr, expand_escape, ih]
  | case4 c s hn hr ih =>
    have hhead : c = '\\' → s.head? ≠ some 'n' ∧ s.head? ≠ some 'r' := by
      rintro rfl
      constructor
      · intro h
        obtain ⟨t, rfl⟩ := List.head?_eq_some_iff.mp h
        apply hn t rfl rfl
      · intro h
        obtain ⟨t, rfl⟩ := List.head?_eq_some_iff.mp h
        apply hr t rfl rfl
    rw [expand_cons fun hc => (hhead hc).1, expand_cons, ih]
    intro hc h
    apply (hhead hc).2 (head?_of_head?_expand (by decide) h)

/-- A text without backslashes is read back from the line on which it is written. -/
theorem unescaped_escapedLine {s : Text} (h : '\\' ∉ s) :
  unescaped (escapedLine s) = s
  := by
  induction s with
  | nil => rfl
  | cons c s ih =>
    rw [List.mem_cons, not_or] at h
    rw [escapedLine, List.flatMap_cons, ← escapedLine, escapedChar]
    split
    case isTrue hc =>
      subst hc
      simp [unescaped, ih h.2]
    case isFalse =>
      split
      case isTrue hc =>
        subst hc
        simp [unescaped, ih h.2]
      case isFalse =>
        rw [List.singleton_append, unescaped_cons, ih h.2]
        intro hc
        apply absurd hc.symm h.1

/-- Where a line feed or a carriage return stood, its escape stands. -/
theorem mem_escapedLine {s : Text} {c : Char} (h : c ∈ escapedLine s) :
  c ≠ '\n' ∧ c ≠ '\r' ∧ (c = '\\' ∨ c = 'n' ∨ c = 'r' ∨ c ∈ s)
  := by
  obtain ⟨x, hx, hc⟩ := List.mem_flatMap.mp h
  simp only [escapedChar, apply_ite (c ∈ ·), List.mem_cons, List.not_mem_nil, or_false] at hc
  split at hc
  case isTrue => rcases hc with rfl | rfl <;> simp
  case isFalse hn =>
    split at hc
    case isTrue => rcases hc with rfl | rfl <;> simp
    case isFalse hr =>
      subst hc
      simp [hn, hr, hx]

theorem not_mem_escapedLine {s : Text} {c : Char} (hc : c ∉ s)
    (hne : c ≠ '\\' ∧ c ≠ 'n' ∧ c ≠ 'r') :
  c ∉ escapedLine s
  := by
  intro h
  obtain ⟨-, -, rfl | rfl | rfl | hmem⟩ := mem_escapedLine h
  · apply hne.1 rfl
  · apply hne.2.1 rfl
  · apply hne.2.2 rfl
  · apply hc hmem

end Credentials.EnvFile
