import Credentials.Proofs.EnvFile.QuotedValue
import Credentials.Proofs.Service

/-!
# Empty values

A text gives its key the empty value only if it is blank, or if it is an empty pair of quotes with
nothing after it but a comment (`valueOf_trim_eq_nil_iff`).  Hence a key is missing from the
settings of a file exactly when no line assigns it or the last line that assigns it has such a text
(`not_has_ofText_iff`): however badly the quotes of a text match, it is not read as the empty value.
-/

namespace Credentials.EnvFile

open Text

/-- The text is a pair of equal quotes with nothing between them and with nothing after them, or
with a comment after them that may have blanks before it. -/
def IsEmptyPair (v : Text) : Prop :=
  ∃ q rest, isQuote q = true ∧ v = q :: q :: rest ∧
    (rest = [] ∨ ∃ gap comment, AllBlank gap ∧ rest = gap ++ '#' :: comment)

/-- Some line assigns the text to the key, and no line after it assigns the key. -/
def IsLastText (ls : List Text) (key text : Text) : Prop :=
  ∃ before line after, ls = before ++ line :: after ∧ Assigns line key text ∧
    ∀ l ∈ after, ∀ t, ¬ Assigns l key t

variable {q : Char} {key text : Text}

/-! ### Values that are empty -/

/-- An entry may end at blanks, or at blanks and a comment. -/
theorem endsEntry_iff {s : Text} :
  EndsEntry s ↔ AllBlank s ∨ ∃ gap comment, AllBlank gap ∧ s = gap ++ '#' :: comment
  := by
  constructor
  · intro h
    cases ht : trimStart s with
    | nil =>
      left
      apply trimStart_eq_nil_iff.mp ht
    | cons c t =>
      obtain rfl : c = '#' := h c (by simp [ht])
      obtain ⟨gap, hgap, hs⟩ := exists_allBlank_append_trimStart s
      right
      use gap, t, hgap
      rw [← ht]
      apply hs
  · rintro (h | ⟨gap, comment, hgap, rfl⟩)
    · simp [EndsEntry, trimStart_eq_nil_iff.mpr h]
    · have hsign : isBlank '#' = false := rfl
      simp [EndsEntry, hgap.trimStart_append, trimStart_cons_of_not_blank hsign]

theorem unescaped_eq_nil_iff {s : Text} :
  unescaped s = [] ↔ s = []
  := by
  fun_cases unescaped s <;> simp

theorem decoded_eq_nil_iff {s : Text} :
  decoded q s = [] ↔ s = []
  := by
  rw [decoded]
  split
  · apply unescaped_eq_nil_iff
  · rfl

theorem stripped_eq_nil_iff {s : Text} :
  stripped q (q :: s) = [] ↔ s = [q]
  := by
  rw [stripped_cons]
  split
  case isTrue h =>
    obtain ⟨t, rfl⟩ := List.getLast?_eq_some_iff.mp h
    simp
  case isFalse h =>
    constructor
    · intro hnil
      cases hnil
    · rintro rfl
      apply absurd rfl h

/-- Two quotes at the start of a text close it if it may end after them. -/
theorem closing?_pair (hq : isQuote q = true) {rest : Text} (h : EndsEntry rest) :
  closing? q (q :: q :: rest) = some 1
  := by
  rw [closing?_eq_some_iff]
  constructor
  · use ⟨by omega, rfl, by omega⟩
    apply h
  · intro p hp
    obtain ⟨i, rfl, hi⟩ := isCandidate_cons_iff.mp hp.1
    cases i with
    | zero => apply Nat.le_refl
    | succ i => apply absurd hi (not_isCandidateAfter_succ (ne_backslash_of_isQuote hq) _ _)

/-- The content of a text that begins with a quote is empty only if a second one follows after which
the text may end. -/
theorem contentOf_eq_nil_iff (hq : isQuote q = true) {w : Text} :
  contentOf q (q :: w) = [] ↔ ∃ rest, w = q :: rest ∧ EndsEntry rest
  := by
  constructor
  · intro h
    rw [contentOf] at h
    cases hclosing : closing? q (q :: w) with
    | some p =>
      obtain ⟨⟨hp, hend⟩, -⟩ := closing?_eq_some_iff.mp hclosing
      obtain ⟨i, rfl, hquote, -⟩ := isCandidate_cons_iff.mp hp
      rw [hclosing] at h
      cases w with
      | nil => cases hquote
      | cons x w =>
        obtain rfl : i = 0 := by simpa using h
        obtain rfl : x = q := by simpa using hquote
        use w, rfl
        apply hend
    | none =>
      -- the text up to its first number sign is a pair of quotes and blanks
      rw [hclosing] at h
      simp only [takeWhile_cons_of_isQuote hq] at h
      rw [trim_cons_of_not_blank (not_isBlank_of_isQuote hq), stripped_eq_nil_iff] at h
      obtain ⟨trail, htrail, hw⟩ := exists_trimEnd_append_allBlank (w.takeWhile (· != '#'))
      rw [h, List.singleton_append] at hw
      use trail ++ w.dropWhile (· != '#')
      constructor
      · rw [← List.cons_append, ← hw, List.takeWhile_append_dropWhile]
      · rw [EndsEntry, htrail.trimStart_append]
        apply endsEntry_dropWhile
  · rintro ⟨rest, rfl, hrest⟩
    rw [contentOf, closing?_pair hq hrest]
    rfl

/-- A text that begins neither with a quote nor with a blank is not emptied by cutting a comment
off. -/
theorem withoutComment_ne_nil {c : Char} (h : isBlank c = false) (s : Text) :
  withoutComment (c :: s) ≠ []
  := by
  have hfirst : trailingComment.first (c :: s) = none := if_neg (by simp [h])
  simp [withoutComment, hfirst]

/-- In a trimmed text, only a comment can follow an empty pair of quotes after which it may end. -/
theorem isEmptyPair_trim_iff (hq : isQuote q = true) {w : Text} (h : trim text = q :: w) :
  IsEmptyPair (trim text) ↔ ∃ rest, w = q :: rest ∧ EndsEntry rest
  := by
  constructor
  · rintro ⟨q', rest, -, heq, hrest⟩
    obtain ⟨rfl, rfl⟩ := List.cons.inj (h.symm.trans heq)
    use rest, rfl
    rw [endsEntry_iff]
    apply hrest.imp_left
    rintro rfl
    apply allBlank_nil
  · rintro ⟨rest, rfl, hrest⟩
    use q, rest, hq, h
    apply (endsEntry_iff.mp hrest).imp_left
    intro hblank
    rcases List.eq_nil_or_concat rest with hnil | ⟨t, c, hrest'⟩
    · apply hnil
    · rw [List.concat_eq_append] at hrest'
      have hc : isBlank c = false := by
        apply isBlank_getLast_trim (t := q :: q :: t)
        rw [h, hrest']
        rfl
      rw [hblank c (by simp [hrest'])] at hc
      cases hc

/-- A text that stays on its line is read as the empty value only if it is blank or an empty pair of
quotes, with or without a comment. -/
theorem valueOf_trim_eq_nil_iff (hkey : IsKey key) (htext : AllInline text) :
  valueOf key (trim text) = [] ↔ AllBlank text ∨ IsEmptyPair (trim text)
  := by
  rw [← trim_eq_nil_iff]
  cases ht : trim text with
  | nil =>
    have hnil : valueOf key [] = [] := rfl
    simp [hnil]
  | cons c w =>
    by_cases hq : isQuote c = true
    · have hinline : AllInline (c :: w) := by
        rw [← ht]
        apply htext.of_subset (trim_subset text)
      rw [valueOf_quoted hkey hq (allInline_cons.mp hinline).2, decoded_eq_nil_iff,
        contentOf_eq_nil_iff hq, ← isEmptyPair_trim_iff hq ht, ht]
      simp
    · have hblank : isBlank c = false := isBlank_head_trim ht
      have hstart : startsQuoted (c :: w) = false := eq_false_of_ne_true hq
      have hpair : ¬ IsEmptyPair (c :: w) := by
        rintro ⟨q, rest, hq', heq, -⟩
        rw [(List.cons.inj heq).1] at hq
        apply hq hq'
      rw [valueOf_of_not_startsQuoted hstart]
      simp [withoutComment_ne_nil hblank, hpair]

/-! ### Keys that are missing -/

theorem IsLastText.isLastAssignment {ls : List Text} (h : IsLastText ls key text) :
  IsLastAssignment ls key (valueOf key (trim text))
  := by
  obtain ⟨before, line, after, hls, hassigns, hafter⟩ := h
  use before, line, after, text, hls, hassigns, rfl

theorem IsLastText.exists_assigns {s : Text} (h : IsLastText (lines s) key text) :
  ∃ line, '\n' ∉ line ∧ Assigns line key text
  := by
  obtain ⟨before, line, after, hls, hassigns, -⟩ := h
  use line
  constructor
  · apply feed_not_mem_of_mem_lines (s := s)
    simp [hls]
  · apply hassigns

theorem IsLastText.isKey {s : Text} (h : IsLastText (lines s) key text) :
  IsKey key
  := by
  obtain ⟨line, -, hassigns⟩ := h.exists_assigns
  apply hassigns.isKey

theorem IsLastText.allInline {s : Text} (h : IsLastText (lines s) key text) :
  AllInline text
  := by
  obtain ⟨line, hfeed, hassigns⟩ := h.exists_assigns
  apply hassigns.allInline hfeed

section File

variable {raw name : String} (hname : name ≠ Member.parentName)

include hname

theorem getElem?_parse_eq_none_iff :
  (parse raw)[name]? = none ↔
    ∀ line ∈ lines raw.toList, ∀ t, ¬ Assigns line name.toList t
  := by
  rw [getElem?_parse raw hname, Option.map_eq_none_iff,
    lastValue?_eq_none_iff fun _ => feed_not_mem_of_mem_lines]

/-- The text that is last assigned in a file gives its key its value. -/
theorem getElem?_parse_of_isLastText (h : IsLastText (lines raw.toList) name.toList text) :
  (parse raw)[name]? = some (String.ofList (valueOf name.toList (trim text)))
  := by
  have hlast := (lastValue?_eq_some_iff fun _ => feed_not_mem_of_mem_lines).mpr h.isLastAssignment
  rw [getElem?_parse raw hname, hlast]
  rfl

/-- The text that is last assigned in a file decides whether its key has the empty value. -/
theorem getElem?_parse_eq_some_empty_iff (h : IsLastText (lines raw.toList) name.toList text) :
  (parse raw)[name]? = some "" ↔ AllBlank text ∨ IsEmptyPair (trim text)
  := by
  rw [getElem?_parse_of_isLastText hname h, ← valueOf_trim_eq_nil_iff h.isKey h.allInline]
  simp

theorem exists_isLastText_of_getElem?_parse {value : String} (h : (parse raw)[name]? = some value) :
  ∃ t, IsLastText (lines raw.toList) name.toList t
  := by
  rw [getElem?_parse raw hname, Option.map_eq_some_iff] at h
  obtain ⟨v, hv, -⟩ := h
  obtain ⟨before, line, after, t, hls, hassigns, -, hafter⟩ :=
    (lastValue?_eq_some_iff fun _ => feed_not_mem_of_mem_lines).mp hv
  use t, before, line, after, hls, hassigns

/-- A file has no text for a key if it does not assign it, or if it assigns an empty value last. -/
theorem not_has_ofText_iff (path : String) :
  ¬ (Settings.ofText path raw).Has name ↔
    (∀ line ∈ lines raw.toList, ∀ t, ¬ Assigns line name.toList t) ∨
    ∃ t, IsLastText (lines raw.toList) name.toList t ∧ (AllBlank t ∨ IsEmptyPair (trim t))
  := by
  rw [Settings.not_has_iff, Settings.ofText, getElem?_parse_eq_none_iff hname]
  apply or_congr_right
  constructor
  · intro hempty
    obtain ⟨t, ht⟩ := exists_isLastText_of_getElem?_parse hname hempty
    use t, ht, (getElem?_parse_eq_some_empty_iff hname ht).mp hempty
  · rintro ⟨t, ht, hempty⟩
    apply (getElem?_parse_eq_some_empty_iff hname ht).mpr hempty

end File

/-- A key that a service requires is missing from the settings of a file exactly when no line of the
file assigns it, or when the text of the last line that assigns it is blank or an empty pair of
quotes, with or without a comment after it.  The missing keys come in the order of the catalog, each
of them once.  Whatever the key is, its last text alone decides whether its value is empty, and no
other text than these does so, not even one that begins with a number sign. -/
theorem mem_missing_ofText_iff (path raw : String) :
  (∀ service : Service, ∀ key ∈ service.required,
    (key ∈ (Settings.ofText path raw).missing service ↔
      (∀ line ∈ cutLines raw.toList, ∀ t, ¬ Assigns line key.toList t) ∨
      ∃ t, IsLastText (cutLines raw.toList) key.toList t ∧
        (AllBlank t ∨ IsEmptyPair (trim t)))) ∧
  (∀ service, ((Settings.ofText path raw).missing service).Sublist service.required ∧
    ((Settings.ofText path raw).missing service).Nodup) ∧
  ∀ key t, key ≠ Member.parentName → IsLastText (cutLines raw.toList) key.toList t →
    ((parse raw)[key]? = some "" ↔ AllBlank t ∨ IsEmptyPair (trim t))
  := by
  simp only [← lines_eq_cutLines]
  refine ⟨?_, ?_, ?_⟩
  · intro service key hkey
    have hname := Service.ne_parentName_of_mem_required hkey
    rw [Settings.mem_missing_iff, not_has_ofText_iff hname]
    simp [hkey]
  · intro service
    use Settings.missing_sublist _ _, Settings.nodup_missing _ _
  · intro key t hname ht
    apply getElem?_parse_eq_some_empty_iff hname ht

/-- An empty pair of quotes with a comment overrides the text that was assigned before. -/
theorem mem_missing_ofText_empty_pair :
  "BING_API_KEY" ∈ Service.bingSearch.required ∧ "BING_API_KEY" ≠ Member.parentName ∧
    IsLastText (cutLines "BING_API_KEY=k\nBING_API_KEY= '' # none".toList) "BING_API_KEY".toList
      " '' # none".toList ∧
    "BING_API_KEY" ∈
      (Settings.ofText ".env" "BING_API_KEY=k\nBING_API_KEY= '' # none").missing .bingSearch ∧
    (parse "BING_API_KEY=k\nBING_API_KEY= '' # none")["BING_API_KEY"]? = some ""
  := by
  have hkey : "BING_API_KEY" ∈ Service.bingSearch.required := by decide
  have hname : "BING_API_KEY" ≠ Member.parentName := by decide
  have hlast : IsLastText (cutLines "BING_API_KEY=k\nBING_API_KEY= '' # none".toList)
      "BING_API_KEY".toList " '' # none".toList := by
    rw [← lines_eq_cutLines]
    have hassigns := @assigns_of_key [] [] "BING_API_KEY".toList " '' # none".toList allBlank_nil
      (by decide) allBlank_nil (by decide)
    refine ⟨["BING_API_KEY=k".toList], _, [], by decide, hassigns, by simp⟩
  have hpair : IsEmptyPair (trim " '' # none".toList) :=
    ⟨singleQuote, " # none".toList, rfl, by decide, Or.inr ⟨[' '], " none".toList, by decide, rfl⟩⟩
  have h := mem_missing_ofText_iff ".env" "BING_API_KEY=k\nBING_API_KEY= '' # none"
  use hkey, hname, hlast, (h.1 _ _ hkey).mpr (Or.inr ⟨_, hlast, Or.inr hpair⟩)
  apply (h.2.2 _ _ hname hlast).mpr (Or.inr hpair)

end Credentials.EnvFile
