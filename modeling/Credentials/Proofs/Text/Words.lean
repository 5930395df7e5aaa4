import Mathlib.Data.List.TakeWhile
import Mathlib.Tactic.Tauto
import Mathlib.Tactic.Use
import Credentials.Text.Blank

/-!
# Words of a text

The words of a text are its maximal runs of characters that are not blank.  A text is taken apart
at its words from the left: it has the words `w :: ws` exactly when it consists of blanks, the
word `w`, and a text with the words `ws` that does not prolong `w` (`words_eq_cons_iff`).  A text
without words is a text of blanks (`words_eq_nil_iff`).
-/

namespace Credentials.Text

/-- All characters of the text are blank. -/
def AllBlank (s : Text) : Prop :=
  ∀ c ∈ s, isBlank c = true

/-- No character of the text ends a line. -/
def AllInline (s : Text) : Prop :=
  ∀ c ∈ s, isLineEnd c = false

/-- A text that is not empty and has no blank. -/
structure IsWord (w : Text) : Prop where
  ne_nil : w ≠ []
  not_blank : ∀ c ∈ w, isBlank c = false

/-- The text is empty or begins with a blank. -/
def StartsBlank (s : Text) : Prop :=
  ∀ c ∈ s.head?, isBlank c = true

/-- The maximal runs of characters of a text that are not blank. -/
def words (s : Text) : List Text :=
  (s.splitOnP isBlank).filter (· ≠ [])

instance (s : Text) : Decidable (AllBlank s) :=
  List.decidableBAll _ s

instance (s : Text) : Decidable (AllInline s) :=
  List.decidableBAll _ s

/-! ### Texts of blanks, and texts on one line -/

@[simp]
theorem allBlank_nil :
  AllBlank []
  := by
  simp [AllBlank]

@[simp]
theorem allBlank_cons {c : Char} {s : Text} :
  AllBlank (c :: s) ↔ isBlank c = true ∧ AllBlank s
  := by
  simp [AllBlank]

@[simp]
theorem allInline_nil :
  AllInline []
  := by
  simp [AllInline]

@[simp]
theorem allInline_cons {c : Char} {s : Text} :
  AllInline (c :: s) ↔ isLineEnd c = false ∧ AllInline s
  := by
  simp [AllInline]

@[simp]
theorem allInline_append {s t : Text} :
  AllInline (s ++ t) ↔ AllInline s ∧ AllInline t
  := by
  simp [AllInline, or_imp, forall_and]

theorem AllInline.of_subset {s t : Text} (ht : AllInline t) (h : s ⊆ t) :
  AllInline s
  := fun c hc => ht c (h hc)

theorem allBlank_takeWhile (s : Text) :
  AllBlank (s.takeWhile isBlank)
  := fun _ => List.mem_takeWhile_imp

theorem AllBlank.trimStart_append {s : Text} (h : AllBlank s) (t : Text) :
  trimStart (s ++ t) = trimStart t
  := List.dropWhile_append_of_pos h

theorem trimStart_eq_nil_iff {s : Text} :
  trimStart s = [] ↔ AllBlank s
  := List.dropWhile_eq_nil_iff

/-- A text is the blanks at its start and the text without them. -/
theorem exists_allBlank_append_trimStart (s : Text) :
  ∃ lead, AllBlank lead ∧ s = lead ++ trimStart s
  := by
  use s.takeWhile isBlank, allBlank_takeWhile s
  symm
  apply List.takeWhile_append_dropWhile

/-- The first character of a text without blanks at its start is not blank. -/
theorem isBlank_head_trimStart {s t : Text} {c : Char} (h : trimStart s = c :: t) :
  isBlank c = false
  := by
  have hc := List.head?_dropWhile_not isBlank s
  rw [show s.dropWhile isBlank = c :: t from h] at hc
  simpa using hc

theorem trimStart_cons_of_not_blank {c : Char} (h : isBlank c = false) (s : Text) :
  trimStart (c :: s) = c :: s
  := by
  simp [trimStart, h]

theorem trimStart_cons_of_blank {c : Char} (h : isBlank c = true) (s : Text) :
  trimStart (c :: s) = trimStart s
  := List.dropWhile_cons_of_pos h

theorem trimEnd_append_of_not_blank {c : Char} (h : isBlank c = false) (s : Text) :
  trimEnd (s ++ [c]) = s ++ [c]
  := by
  simp [trimEnd, h]

theorem trimEnd_cons_of_not_blank {c : Char} (h : isBlank c = false) (s : Text) :
  trimEnd (c :: s) = c :: trimEnd s
  := by
  rw [trimEnd, List.reverse_cons, List.dropWhile_append]
  split
  case isTrue hs =>
    rw [List.isEmpty_iff] at hs
    simp [trimEnd, hs, h]
  case isFalse => simp [trimEnd]

theorem trim_cons_of_not_blank {c : Char} (h : isBlank c = false) (s : Text) :
  trim (c :: s) = c :: trimEnd s
  := by
  rw [trim, trimStart_cons_of_not_blank h, trimEnd_cons_of_not_blank h]

theorem trimEnd_isPrefix (s : Text) :
  trimEnd s <+: s
  := by
  rw [← List.reverse_suffix, trimEnd, List.reverse_reverse]
  apply List.dropWhile_suffix

theorem trim_isInfix (s : Text) :
  trim s <:+: s
  := (trimEnd_isPrefix _).isInfix.trans (List.dropWhile_suffix _).isInfix

theorem trimEnd_subset (s : Text) :
  trimEnd s ⊆ s
  := (trimEnd_isPrefix s).subset

theorem trim_subset (s : Text) :
  trim s ⊆ s
  := (trim_isInfix s).subset

/-- A text is the text without the blanks at its end, and these blanks. -/
theorem exists_trimEnd_append_allBlank (s : Text) :
  ∃ trail, AllBlank trail ∧ s = trimEnd s ++ trail
  := by
  obtain ⟨lead, hlead, hs⟩ := exists_allBlank_append_trimStart s.reverse
  use lead.reverse
  constructor
  · intro c hc
    apply hlead c (List.mem_reverse.mp hc)
  · rw [trimEnd, ← trimStart, ← List.reverse_append, ← hs, List.reverse_reverse]

theorem AllBlank.trimEnd_append {trail : Text} (h : AllBlank trail) (s : Text) :
  trimEnd (s ++ trail) = trimEnd s
  := by
  have hreverse : AllBlank trail.reverse := fun c hc => h c (List.mem_reverse.mp hc)
  have hstart := hreverse.trimStart_append s.reverse
  rw [← List.reverse_append] at hstart
  apply congrArg List.reverse hstart

theorem trimEnd_trimEnd (s : Text) :
  trimEnd (trimEnd s) = trimEnd s
  := by
  obtain ⟨trail, htrail, hs⟩ := exists_trimEnd_append_allBlank s
  have h := htrail.trimEnd_append (trimEnd s)
  rw [← hs] at h
  apply h.symm

theorem trimEnd_eq_nil_iff {s : Text} :
  trimEnd s = [] ↔ AllBlank s
  := by
  simp [trimEnd, AllBlank]

theorem trimEnd_cons_of_not_allBlank {s : Text} (h : ¬ AllBlank s) (c : Char) :
  trimEnd (c :: s) = c :: trimEnd s
  := by
  rw [← trimEnd_eq_nil_iff, trimEnd, List.reverse_eq_nil_iff] at h
  rw [trimEnd, List.reverse_cons, List.dropWhile_append, if_neg (by simpa using h),
    List.reverse_append]
  rfl

theorem trimEnd_cons_congr {s t : Text} (h : trimEnd s = trimEnd t) (c : Char) :
  trimEnd (c :: s) = trimEnd (c :: t)
  := by
  obtain ⟨trail, htrail, hs⟩ := exists_trimEnd_append_allBlank s
  obtain ⟨trail', htrail', ht⟩ := exists_trimEnd_append_allBlank t
  rw [hs, ht, h, ← List.cons_append, ← List.cons_append, htrail.trimEnd_append,
    htrail'.trimEnd_append]

/-- The first character of a trimmed text is not blank. -/
theorem isBlank_head_trim {s t : Text} {c : Char} (h : trim s = c :: t) :
  isBlank c = false
  := by
  cases hs : trimStart s with
  | nil =>
    rw [trim, hs] at h
    cases h
  | cons d u =>
    rw [trim, hs, trimEnd_cons_of_not_blank (isBlank_head_trimStart hs)] at h
    rw [← (List.cons.inj h).1]
    apply isBlank_head_trimStart hs

/-- A trimmed text stays as it is when it is trimmed once more. -/
theorem trim_trim (s : Text) :
  trim (trim s) = trim s
  := by
  cases ht : trim s with
  | nil => rfl
  | cons c t =>
    rw [trim, trimStart_cons_of_not_blank (isBlank_head_trim ht), ← ht, trim, trimEnd_trimEnd]

theorem head?_trim (s : Text) :
  (trim s).head? = (trimStart s).head?
  := by
  rw [trim]
  cases hs : trimStart s with
  | nil => rfl
  | cons c t => simp [trimEnd_cons_of_not_blank (isBlank_head_trimStart hs)]

/-- The last character of a trimmed text is not blank. -/
theorem isBlank_getLast_trim {s t : Text} {c : Char} (h : trim s = t ++ [c]) :
  isBlank c = false
  := by
  rw [trim, trimEnd, List.reverse_eq_iff, List.reverse_append] at h
  apply isBlank_head_trimStart h

theorem trim_eq_nil_iff {s : Text} :
  trim s = [] ↔ AllBlank s
  := by
  rw [← trimStart_eq_nil_iff, trim]
  cases h : trimStart s with
  | nil => simp [trimEnd]
  | cons c t => simp [trimEnd_cons_of_not_blank (isBlank_head_trimStart h)]

theorem AllBlank.trim_append {trail : Text} (h : AllBlank trail) (s : Text) :
  trim (s ++ trail) = trim s
  := by
  by_cases hs : AllBlank s
  · have hall : AllBlank (s ++ trail) := fun c hc => (List.mem_append.mp hc).elim (hs c) (h c)
    rw [trim_eq_nil_iff.mpr hall, trim_eq_nil_iff.mpr hs]
  · have hstart : trimStart (s ++ trail) = trimStart s ++ trail := by
      rw [← trimStart_eq_nil_iff, trimStart] at hs
      rw [trimStart, List.dropWhile_append, if_neg (by simpa using hs), trimStart]
    rw [trim, hstart, h.trimEnd_append, trim]

/-- A text that a line feed, a carriage return and the two separators are absent from stays on its
line. -/
theorem allInline_iff_not_mem {s : Text} :
  AllInline s ↔ '\n' ∉ s ∧ '\r' ∉ s ∧ '\u2028' ∉ s ∧ '\u2029' ∉ s
  := by
  induction s with
  | nil => simp
  | cons c s ih =>
    rw [allInline_cons, ih]
    simp only [isLineEnd, Bool.or_eq_false_iff, beq_eq_false_iff_ne, List.mem_cons, not_or, ne_eq,
      eq_comm (b := c)]
    tauto

theorem AllBlank.not_mem {s : Text} (h : AllBlank s) {c : Char} (hc : isBlank c = false) :
  c ∉ s
  := by
  intro hs
  rw [h c hs] at hc
  cases hc

theorem AllBlank.startsBlank {s : Text} (h : AllBlank s) :
  StartsBlank s
  := fun c hc => h c (List.mem_of_mem_head? hc)

theorem AllBlank.startsBlank_append {s : Text} (h : AllBlank s) (hne : s ≠ []) (t : Text) :
  StartsBlank (s ++ t)
  := by
  cases s with
  | nil => apply absurd rfl hne
  | cons c s =>
    intro x hx
    obtain rfl : c = x := by simpa using hx
    apply h c List.mem_cons_self

/-! ### Words -/

@[simp]
theorem words_nil :
  words [] = []
  := by
  simp [words]

theorem words_cons_of_blank {c : Char} (h : isBlank c = true) (s : Text) :
  words (c :: s) = words s
  := by
  have hs := List.splitOnP_append_cons [] s h
  rw [List.nil_append] at hs
  simp [words, hs]

theorem AllBlank.words_append {s : Text} (h : AllBlank s) (t : Text) :
  words (s ++ t) = words t
  := by
  induction s with
  | nil => rfl
  | cons c s ih =>
    rw [allBlank_cons] at h
    rw [List.cons_append, words_cons_of_blank h.1, ih h.2]

/-- A word, together with a text that does not prolong it, is the first word of the whole. -/
theorem IsWord.words_append {w s : Text} (hw : IsWord w) (hs : StartsBlank s) :
  words (w ++ s) = w :: words s
  := by
  cases s with
  | nil =>
    rw [List.append_nil, words, List.splitOnP_eq_singleton hw.not_blank]
    simp [hw.ne_nil]
  | cons c s =>
    have hc : isBlank c = true := hs c (by simp)
    rw [words, List.splitOnP_append_cons_of_forall_mem hw.not_blank c hc,
      List.filter_cons_of_pos (by simp [hw.ne_nil]), words_cons_of_blank hc]
    rfl

/-- A text that does not consist of blanks begins with blanks and a word. -/
theorem exists_word_of_not_allBlank {s : Text} (h : ¬ AllBlank s) :
  ∃ lead w rest, s = lead ++ w ++ rest ∧ AllBlank lead ∧ IsWord w ∧ StartsBlank rest
  := by
  obtain ⟨lead, hlead, hs⟩ := exists_allBlank_append_trimStart s
  set t := trimStart s with ht
  use lead, t.takeWhile (! isBlank ·), t.dropWhile (! isBlank ·)
  constructor
  · rw [List.append_assoc, List.takeWhile_append_dropWhile]
    apply hs
  · use hlead
    constructor
    · constructor
      · rcases t with _ | ⟨c, t⟩
        · apply absurd (trimStart_eq_nil_iff.mp ht.symm) h
        · simp [isBlank_head_trimStart ht.symm]
      · intro c hc
        simpa using List.mem_takeWhile_imp hc
    · intro c hc
      have := List.head?_dropWhile_not (! isBlank ·) t
      rw [Option.mem_def.mp hc] at this
      simpa using this

theorem words_eq_nil_iff {s : Text} :
  words s = [] ↔ AllBlank s
  := by
  constructor
  · intro h
    by_contra hs
    obtain ⟨lead, w, rest, rfl, hlead, hw, hrest⟩ := exists_word_of_not_allBlank hs
    rw [List.append_assoc, hlead.words_append, hw.words_append hrest] at h
    cases h
  · intro h
    have := h.words_append []
    simpa using this

/-- A text has the words `w :: ws` exactly when it consists of blanks, the word `w`, and a text
with the words `ws` that does not prolong `w`. -/
theorem words_eq_cons_iff {s w : Text} {ws : List Text} :
  words s = w :: ws ↔ ∃ lead rest, s = lead ++ w ++ rest ∧ AllBlank lead ∧ IsWord w ∧
    StartsBlank rest ∧ words rest = ws
  := by
  constructor
  · intro h
    have hs : ¬ AllBlank s := by
      rw [← words_eq_nil_iff, h]
      simp
    obtain ⟨lead, v, rest, rfl, hlead, hv, hrest⟩ := exists_word_of_not_allBlank hs
    rw [List.append_assoc, hlead.words_append, hv.words_append hrest] at h
    obtain ⟨rfl, rfl⟩ := List.cons.inj h
    use lead, rest
  · rintro ⟨lead, rest, rfl, hlead, hw, hrest, rfl⟩
    rw [List.append_assoc, hlead.words_append, hw.words_append hrest]

/-- A text with a single word has blanks before it and after it. -/
theorem exists_of_words_eq_singleton {s w : Text} (h : words s = [w]) :
  ∃ lead trail, s = lead ++ (w ++ trail) ∧ AllBlank lead ∧ AllBlank trail
  := by
  obtain ⟨lead, trail, rfl, hlead, -, -, htrail⟩ := words_eq_cons_iff.mp h
  use lead, trail, by simp, hlead, words_eq_nil_iff.mp htrail

end Credentials.Text
