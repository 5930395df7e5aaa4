import Credentials.Proofs.Text.Words
import Credentials.Text.Lines

/-!
# Cutting a text into lines

The lines of a text are what lies between its line feeds, each but the last without a carriage
return at its end (`lines_eq_cutLines`).  A text is built from its lines by the two equations
`lines_of_not_mem` and `lines_append_feed`, along which `induction_on_lines` takes it apart, and
no line contains a line feed (`feed_not_mem_of_mem_lines`).  Lines that are joined into a text by
line ends of either kind are read back from it (`lines_joined`).
-/

namespace Credentials.Text

/-- The text without a carriage return at its end. -/
def withoutReturn (l : Text) : Text :=
  if l.getLast? = some '\r' then l.dropLast else l

/-- The texts without carriage returns at their ends, except for the last one, which stays. -/
def withoutReturns : List Text → List Text
  | [] => []
  | [l] => [l]
  | l :: ls => withoutReturn l :: withoutReturns ls

/-- The text cut at every line feed, a carriage return directly before it being dropped. -/
def cutLines (s : Text) : List Text :=
  withoutReturns (s.splitOn '\n')

/-- Properties of lists are proved by putting what a separator ends before a list. -/
@[elab_as_elim]
theorem induction_on_pieces {α : Type} [DecidableEq α] (sep : α) {P : List α → Prop}
    (last : ∀ l, sep ∉ l → P l) (piece : ∀ l s, sep ∉ l → P s → P (l ++ sep :: s)) (s : List α) :
  P s
  := by
  by_cases h : sep ∈ s
  · obtain ⟨l, t, hs, hl⟩ := List.eq_append_cons_of_mem h
    have ht : t.length < s.length := by
      rw [hs, List.length_append, List.length_cons]
      omega
    rw [hs]
    apply piece l t hl
    apply induction_on_pieces sep last piece t
  · apply last s h
termination_by s.length

/-- Properties of texts are proved by putting lines before a text. -/
@[elab_as_elim]
theorem induction_on_lines {P : Text → Prop} (last : ∀ l, '\n' ∉ l → P l)
    (line : ∀ l s, '\n' ∉ l → P s → P (l ++ '\n' :: s)) (s : Text) :
  P s
  := induction_on_pieces '\n' last line s

/-- What stands between a line and the next one. -/
inductive LineEnd where
  | feed
  | returnFeed

/-- The characters that end a line. -/
def LineEnd.text : LineEnd → Text
  | .feed => ['\n']
  | .returnFeed => ['\r', '\n']

/-- The lines joined into one text, each by its own end except for the last. -/
def joined : List (Text × LineEnd) → Text
  | [] => []
  | [l] => l.1
  | l :: ls => l.1 ++ (l.2.text ++ joined ls)

/-! ### Carriage returns -/

theorem withoutReturn_cons {c : Char} {l : Text} (h : c ≠ '\r' ∨ l ≠ []) :
  withoutReturn (c :: l) = c :: withoutReturn l
  := by
  cases l with
  | nil =>
    have hc : c ≠ '\r' := h.resolve_right (by simp)
    simp [withoutReturn, hc]
  | cons d l =>
    simp only [withoutReturn, List.getLast?_cons_cons, List.dropLast_cons_cons]
    split <;> rfl

theorem withoutReturn_of_not_mem {l : Text} (h : '\r' ∉ l) :
  withoutReturn l = l
  := by
  rw [withoutReturn, if_neg]
  intro hl
  apply h (List.mem_of_getLast? hl)

@[simp]
theorem withoutReturn_append_return (l : Text) :
  withoutReturn (l ++ ['\r']) = l
  := by
  simp [withoutReturn]

theorem withoutReturn_append_feed (l s : Text) :
  withoutReturn (l ++ '\n' :: s) = l ++ '\n' :: withoutReturn s
  := by
  induction l with
  | nil => apply withoutReturn_cons (Or.inl (by decide))
  | cons c l ih =>
    rw [List.cons_append, withoutReturn_cons (Or.inr (by simp)), ih, List.cons_append]

theorem withoutReturn_subset (l : Text) :
  withoutReturn l ⊆ l
  := by
  rw [withoutReturn]
  split
  · apply List.dropLast_subset
  · apply List.Subset.refl

/-! ### The lines of a text -/

theorem consHead_eq {c : Char} {l : Text} {ls : List Text} :
  consHead c (l :: ls) = (c :: l) :: ls
  := rfl

/-- A character that neither ends the line nor goes with the line feed after it is put at the
start of the first line. -/
theorem lines_cons {c : Char} {s : Text} (hc : c ≠ '\n') (h : c ≠ '\r' ∨ s.head? ≠ some '\n') :
  lines (c :: s) = consHead c (lines s)
  := by
  rw [lines]
  · apply hc
  · rintro t rfl rfl
    rcases h with h | h
    · apply h rfl
    · apply h rfl

/-- A text without line feeds is one line. -/
theorem lines_of_not_mem {s : Text} (h : '\n' ∉ s) :
  lines s = [s]
  := by
  induction s with
  | nil => rfl
  | cons c s ih =>
    rw [List.mem_cons, not_or] at h
    rw [lines_cons (Ne.symm h.1), ih h.2]
    · rfl
    · right
      intro hs
      apply h.2 (List.mem_of_mem_head? hs)

/-- What stands before the first line feed is the first line, but for a carriage return. -/
theorem lines_append_feed {l : Text} (h : '\n' ∉ l) (s : Text) :
  lines (l ++ '\n' :: s) = withoutReturn l :: lines s
  := by
  induction l with
  | nil => rfl
  | cons c l ih =>
    rw [List.mem_cons, not_or] at h
    by_cases hr : c = '\r' ∧ l = []
    · obtain ⟨rfl, rfl⟩ := hr
      rfl
    · have hl : c ≠ '\r' ∨ l ≠ [] := not_and_or.mp hr
      rw [List.cons_append, lines_cons (Ne.symm h.1), ih h.2, consHead_eq, withoutReturn_cons hl]
      apply hl.imp_right
      intro hne
      cases l with
      | nil => apply absurd rfl hne
      | cons d l =>
        rw [List.mem_cons, not_or] at h
        simp [Ne.symm h.2.1]

/-- A text is cut into its lines. -/
theorem lines_eq_cutLines (s : Text) :
  lines s = cutLines s
  := by
  induction s using induction_on_lines with
  | last l hl => rw [lines_of_not_mem hl, cutLines, List.splitOn_eq_singleton hl, withoutReturns]
  | line l s hl ih =>
    have hs : s.splitOn '\n' ≠ [] := List.splitOn_ne_nil _ _
    rw [lines_append_feed hl, ih, cutLines, cutLines,
      List.splitOn_append_cons_self_of_not_mem hl, withoutReturns]
    apply hs

theorem feed_not_mem_of_mem_lines {s l : Text} (h : l ∈ lines s) :
  '\n' ∉ l
  := by
  induction s using induction_on_lines with
  | last s hs =>
    rw [lines_of_not_mem hs, List.mem_singleton] at h
    rw [h]
    apply hs
  | line k s hk ih =>
    rw [lines_append_feed hk, List.mem_cons] at h
    rcases h with rfl | h
    · intro hl
      apply hk (withoutReturn_subset k hl)
    · apply ih h

/-- A line feed ends the lines of the text before it, with the carriage return directly before it
if there is one. -/
theorem lines_append (a b : Text) :
  lines (a ++ '\n' :: b) = lines (withoutReturn a) ++ lines b
  := by
  induction a using induction_on_lines with
  | last l hl =>
    rw [lines_append_feed hl, lines_of_not_mem (mt (@withoutReturn_subset l _) hl),
      List.singleton_append]
  | line l s hl ih =>
    rw [List.append_assoc, List.cons_append, lines_append_feed hl, ih, withoutReturn_append_feed,
      lines_append_feed hl, List.cons_append]

/-- A line without line ends is the first line of the text in which it is followed by one. -/
theorem lines_append_lineEnd {l : Text} (hfeed : '\n' ∉ l) (hreturn : '\r' ∉ l) (e : LineEnd)
    (s : Text) :
  lines (l ++ (e.text ++ s)) = l :: lines s
  := by
  cases e with
  | feed =>
    apply (lines_append_feed hfeed s).trans
    rw [withoutReturn_of_not_mem hreturn]
  | returnFeed =>
    have hfeed' : '\n' ∉ l ++ ['\r'] := by simp [hfeed]
    have h := lines_append_feed hfeed' s
    rw [withoutReturn_append_return, List.append_assoc] at h
    apply h

/-- Lines without line ends are read back from the text into which they are joined. -/
theorem lines_joined {ls : List (Text × LineEnd)} (hne : ls ≠ [])
    (h : ∀ l ∈ ls, '\n' ∉ l.1 ∧ '\r' ∉ l.1) :
  lines (joined ls) = ls.map Prod.fst
  := by
  induction ls with
  | nil => apply absurd rfl hne
  | cons l ls ih =>
    obtain ⟨hfeed, hreturn⟩ := h l List.mem_cons_self
    cases ls with
    | nil => apply lines_of_not_mem hfeed
    | cons l' ls =>
      have hls := ih (List.cons_ne_nil l' ls) fun m hm => h m (List.mem_cons_of_mem l hm)
      rw [joined, lines_append_lineEnd hfeed hreturn, hls]
      · rfl
      · apply List.cons_ne_nil

end Credentials.Text
