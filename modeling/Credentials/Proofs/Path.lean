import Mathlib.Tactic.Use
import Credentials.Path

/-!
# Plain paths

A path is plain if each of its names is a name and has no slash in it.  Whatever text is followed from
a plain path, the path that it leads to is plain (`IsPlain.follow`).  The text of a plain path is cut
into its names (`IsPlain.segments_text`).
-/

namespace Credentials.Path

/-- Each name of the path is a name without a slash. -/
def IsPlain (p : Path) : Prop :=
  ∀ name ∈ p.names, isName name = true ∧ '/' ∉ name

variable {p : Path} {s segment name : Text} {names : List Text}

/-! ### Segments -/

theorem segments_ne_nil (s : Text) :
  segments s ≠ []
  := by
  cases s with
  | nil => simp [segments]
  | cons c s =>
    rw [segments]
    split
    · simp
    · apply Text.consHead_ne_nil

theorem segments_append (s t : Text) :
  segments (s ++ '/' :: t) = segments s ++ segments t
  := by
  induction s with
  | nil => rfl
  | cons c s ih =>
    obtain ⟨l, ls, hls⟩ := List.exists_cons_of_ne_nil (segments_ne_nil s)
    rw [List.cons_append, segments, segments, ih, hls]
    split
    · rfl
    · rfl

theorem segments_of_not_mem (h : '/' ∉ s) :
  segments s = [s]
  := by
  induction s with
  | nil => rfl
  | cons c s ih =>
    rw [List.mem_cons, not_or] at h
    rw [segments, if_neg (Ne.symm h.1), ih h.2]
    rfl

theorem not_mem_of_mem_segments (h : segment ∈ segments s) :
  '/' ∉ segment
  := by
  induction s generalizing segment with
  | nil =>
    obtain rfl := List.mem_singleton.mp h
    apply List.not_mem_nil
  | cons c s ih =>
    rw [segments] at h
    by_cases hc : c = '/'
    · rw [if_pos hc] at h
      rcases List.mem_cons.mp h with rfl | h
      · apply List.not_mem_nil
      · apply ih h
    · obtain ⟨l, ls, hls⟩ := List.exists_cons_of_ne_nil (segments_ne_nil s)
      rw [if_neg hc, hls] at h
      rw [hls] at ih
      rcases List.mem_cons.mp h with rfl | h
      · rw [List.mem_cons, not_or]
        use Ne.symm hc, ih List.mem_cons_self
      · apply ih (List.mem_cons_of_mem _ h)

theorem segments_intercalate (hne : names ≠ []) (h : ∀ name ∈ names, '/' ∉ name) :
  segments (['/'].intercalate names) = names
  := by
  induction names with
  | nil => apply absurd rfl hne
  | cons name names ih =>
    obtain ⟨hname, hnames⟩ := List.forall_mem_cons.mp h
    cases names with
    | nil => simpa using segments_of_not_mem hname
    | cons name' names =>
      rw [List.intercalate_cons_cons, List.append_assoc, List.singleton_append, segments_append,
        segments_of_not_mem hname, List.singleton_append, ih (List.cons_ne_nil _ _) hnames]

/-! ### Plain paths -/

theorem isPlain_root :
  root.IsPlain
  := by
  apply List.forall_mem_nil

theorem IsPlain.parent (h : p.IsPlain) :
  p.parent.IsPlain
  := fun name hname => h name (p.names.dropLast_subset hname)

theorem IsPlain.enter (h : p.IsPlain) (hsegment : '/' ∉ segment) :
  (p.enter segment).IsPlain
  := by
  rw [Path.enter]
  by_cases hsegmentName : isName segment = true
  · rw [if_pos hsegmentName]
    intro name hname
    rcases List.mem_append.mp hname with hname | hname
    · apply h name hname
    · obtain rfl := List.mem_singleton.mp hname
      use hsegmentName
  rw [if_neg hsegmentName]
  split
  · apply h.parent
  · apply h

theorem IsPlain.foldl_enter {segments : List Text} (h : p.IsPlain)
    (hsegments : ∀ segment ∈ segments, '/' ∉ segment) :
  (segments.foldl Path.enter p).IsPlain
  := by
  induction segments generalizing p with
  | nil => apply h
  | cons segment segments ih =>
    obtain ⟨hsegment, hrest⟩ := List.forall_mem_cons.mp hsegments
    apply ih (h.enter hsegment) hrest

/-- A text that is followed from a plain path leads to a plain path. -/
theorem IsPlain.follow (h : p.IsPlain) (s : Text) :
  (p.follow s).IsPlain
  := by
  apply h.foldl_enter
  intro segment
  apply not_mem_of_mem_segments

/-- Before the first name, the text of a path has an empty segment. -/
theorem IsPlain.segments_text (h : p.IsPlain) (hroot : p ≠ root) :
  segments p.text = [] :: p.names
  := by
  have hnames : p.names ≠ [] := by
    rintro hnil
    apply hroot
    rw [root, ← hnil]
  have hslash : segments p.text = [] :: segments (['/'].intercalate p.names) :=
    segments_append [] _
  rw [hslash, segments_intercalate hnames fun name hname => (h name hname).2]

end Credentials.Path
