import Credentials.Proofs.EnvFile.UnquotedValue

/-!
# Bare values

A bare text is trimmed, begins with no quote, and has no number sign directly after a blank
(`IsBare`).  The value of a text that begins with no quote is bare (`isBare_valueOf`), and a bare
text is its own value (`IsBare.valueOf_eq`).  Hence reading such a value once more changes
nothing, and the bare texts are exactly the values that are written as they are read
(`getElem?_parse_bare`).
-/

namespace Credentials.EnvFile

open Text

variable {c : Char} {s r key : Text}

/-- A number sign stands in the text directly after a blank. -/
def HasComment (s : Text) : Prop :=
  ∃ c, isBlank c = true ∧ [c, '#'] <:+: s

/-- The text is trimmed, begins with no quote, and has no comment. -/
structure IsBare (r : Text) : Prop where
  trim_eq : trim r = r
  not_startsQuoted : startsQuoted r = false
  not_hasComment : ¬ HasComment r

/-! ### Comments -/

theorem hasComment_cons :
  HasComment (c :: s) ↔ (isBlank c = true ∧ s.head? = some '#') ∨ HasComment s
  := by
  constructor
  · rintro ⟨b, hb, h⟩
    rcases List.infix_cons_iff.mp h with h | h
    · obtain ⟨rfl, t, rfl⟩ := List.cons_prefix_cons.mp h
      left
      exact ⟨hb, rfl⟩
    · right
      exact ⟨b, hb, h⟩
  · rintro (⟨hc, hsign⟩ | ⟨b, hb, h⟩)
    · obtain ⟨t, rfl⟩ := List.head?_eq_some_iff.mp hsign
      exact ⟨c, hc, [], t, rfl⟩
    · exact ⟨b, hb, List.infix_cons h⟩

/-- The last of the blanks before a number sign has the number sign directly after it. -/
theorem hasComment_of_trimStart (hc : isBlank c = true) (h : (trimStart s).head? = some '#') :
  HasComment (c :: s)
  := by
  induction s generalizing c with
  | nil => cases h
  | cons x s ih =>
    rw [hasComment_cons]
    by_cases hx : isBlank x = true
    · right
      rw [trimStart_cons_of_blank hx] at h
      apply ih hx h
    · left
      rw [trimStart_cons_of_not_blank (by simpa using hx)] at h
      exact ⟨hc, h⟩

/-- What is left without a comment has no comment. -/
theorem not_hasComment_withoutComment (hs : AllInline s) :
  ¬ HasComment (withoutComment s)
  := by
  induction s with
  | nil =>
    rintro ⟨b, -, h⟩
    cases List.infix_nil.mp h
  | cons c s ih =>
    rw [allInline_cons] at hs
    rw [withoutComment_cons hs.2]
    split
    case isTrue =>
      rintro ⟨b, -, h⟩
      cases List.infix_nil.mp h
    case isFalse hsign =>
      rw [hasComment_cons, not_or]
      use ?_, ih hs.2
      rintro ⟨hc, hhead⟩
      obtain ⟨t, ht⟩ := withoutComment_isPrefix hs.2
      apply hsign ⟨hc, _⟩
      obtain ⟨t', ht'⟩ := List.head?_eq_some_iff.mp hhead
      rw [← ht, ht', List.cons_append, trimStart_cons_of_not_blank rfl]
      rfl

/-- A text without a comment stays as it is. -/
theorem withoutComment_of_not_hasComment (hs : AllInline s) (h : ¬ HasComment s) :
  withoutComment s = s
  := by
  induction s with
  | nil => rfl
  | cons c s ih =>
    rw [allInline_cons] at hs
    rw [withoutComment_cons hs.2, if_neg, ih hs.2]
    · intro hcomment
      apply h (hasComment_cons.mpr (Or.inr hcomment))
    · rintro ⟨hc, hsign⟩
      apply h (hasComment_of_trimStart hc hsign)

/-! ### Values -/

/-- The start of a text that begins with no quote begins with none. -/
theorem startsQuoted_of_isPrefix (h : r <+: s) (hs : startsQuoted s = false) :
  startsQuoted r = false
  := by
  obtain ⟨t, rfl⟩ := h
  cases r with
  | nil => rfl
  | cons c r => apply hs

/-- The value of a text that begins with no quote is bare. -/
theorem isBare_valueOf (hs : AllInline s) (hquote : startsQuoted (trim s) = false) :
  IsBare (valueOf key (trim s))
  := by
  have hinline : AllInline (trim s) := hs.of_subset (trim_subset s)
  constructor
  · rw [valueOf_trim_of_unquoted hs, trim_trim]
    intro c hc
    rw [← head?_trim] at hc
    simpa [startsQuoted, Option.mem_def.mp hc] using hquote
  · rw [valueOf_of_not_startsQuoted hquote]
    apply startsQuoted_of_isPrefix (withoutComment_isPrefix hinline) hquote
  · rw [valueOf_of_not_startsQuoted hquote]
    apply not_hasComment_withoutComment hinline

/-- A bare text is its own value. -/
theorem IsBare.valueOf_eq (h : IsBare r) (hr : AllInline r) :
  valueOf key (trim r) = r
  := by
  rw [h.trim_eq, valueOf_of_not_startsQuoted h.not_startsQuoted,
    withoutComment_of_not_hasComment hr h.not_hasComment]

/-- A text that begins with no quote gives its key a bare value.  The trimmed text begins with this
value, and nothing follows but a comment with blanks before it, if there is one; the value is empty
only if the text is blank, and written again it is read as it stands.  The bare texts are exactly
those that begin with no quote and are read as they stand. -/
theorem getElem?_parse_bare (hkey : IsKey key) (hname : String.ofList key ≠ Member.parentName) :
  (∀ u, AllInline u → startsQuoted (trim u) = false →
    ∃ r rest, trim u = r ++ rest ∧ (rest = [] ∨ IsComment rest) ∧ IsBare r ∧
      (r = [] → trim u = []) ∧
      (parse (String.ofList (key ++ '=' :: u)))[String.ofList key]? = some (String.ofList r) ∧
      (parse (String.ofList (key ++ '=' :: r)))[String.ofList key]? = some (String.ofList r)) ∧
  ∀ r, AllInline r → (IsBare r ↔ startsQuoted (trim r) = false ∧
    (parse (String.ofList (key ++ '=' :: r)))[String.ofList key]? = some (String.ofList r))
  := by
  have hread : ∀ r, AllInline r → IsBare r →
      (parse (String.ofList (key ++ '=' :: r)))[String.ofList key]? = some (String.ofList r) := by
    intro r hr hbare
    rw [getElem?_parse_key_append hkey hname hr, hbare.valueOf_eq hr]
  constructor
  · intro u hu hquote
    have hinline : AllInline (trim u) := hu.of_subset (trim_subset u)
    have hvalue : valueOf key (trim u) = withoutComment (trim u) :=
      valueOf_of_not_startsQuoted hquote
    have hbare : IsBare (withoutComment (trim u)) := hvalue ▸ isBare_valueOf hu hquote
    obtain ⟨rest, heq, hrest⟩ := exists_withoutComment_append hinline
    use withoutComment (trim u), rest, heq, hrest, hbare
    refine ⟨?_, ?_, ?_⟩
    · intro hnil
      cases ht : trim u with
      | nil => rfl
      | cons c t =>
        rw [ht] at hnil
        apply absurd hnil (withoutComment_ne_nil (isBlank_head_trim ht) t)
    · rw [getElem?_parse_key_append hkey hname hu, hvalue]
    · apply hread _ (hinline.of_subset (withoutComment_isPrefix hinline).subset) hbare
  · intro r hr
    constructor
    · intro hbare
      rw [hbare.trim_eq]
      use hbare.not_startsQuoted, hread r hr hbare
    · rintro ⟨hquote, hvalue⟩
      rw [getElem?_parse_key_append hkey hname hr, Option.some.injEq, String.ofList_inj] at hvalue
      rw [← hvalue]
      apply isBare_valueOf hr hquote

/-- The number sign inside an address is no comment, while the one after blanks is. -/
theorem getElem?_parse_bare_address :
  startsQuoted (trim " db?a=1#x  # note".toList) = false ∧ IsBare "db?a=1#x".toList ∧
    (parse "URL= db?a=1#x  # note")["URL"]? = some "db?a=1#x" ∧
    (parse "URL=db?a=1#x")["URL"]? = some "db?a=1#x"
  := by
  have hquote : startsQuoted (trim " db?a=1#x  # note".toList) = false := by decide
  use hquote
  have hparse : parse "URL= db?a=1#x  # note" = (∅ : Values).insert "URL" "db?a=1#x" :=
    @parse_ofList_key_append "URL".toList " db?a=1#x  # note".toList "db?a=1#x".toList (by decide)
      (by decide) (by decide) (by decide)
  have h := @getElem?_parse_bare "URL".toList (by decide) (by decide)
  obtain ⟨r, -, -, -, hbare, -, hvalue, hagain⟩ :=
    h.1 " db?a=1#x  # note".toList (by decide) hquote
  obtain rfl : r = "db?a=1#x".toList := by
    have heq : (parse "URL= db?a=1#x  # note")["URL"]? = some (String.ofList r) := hvalue
    rw [hparse, Std.ExtTreeMap.getElem?_insert_self, Option.some.injEq] at heq
    rw [heq, String.toList_ofList]
  exact ⟨hbare, hvalue, hagain⟩

end Credentials.EnvFile
