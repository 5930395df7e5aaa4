import Credentials.Proofs.EnvFile.UnquotedValue

/-!
# Where values come from

Reading a value cuts pieces off its text and writes out escapes, but puts nothing together: the
value is a part of the text that is assigned, and a part with its escapes written out if the text
begins with a double quote (`exists_isInfix_valueOf_trim`).  A text that is assigned has no
character that ends a line, so that a value has one only if an escape for it stands in the text
(`exists_isInfix_of_getElem?_parse`).
-/

namespace Credentials.EnvFile

open Text

variable {key text part : Text} {c : Char}

/-- The text begins with a double quote, after blanks. -/
def StartsDoubleQuoted (text : Text) : Prop :=
  (trim text).head? = some doubleQuote

/-- The text begins with a double quote, after blanks, and has an escape with the letter. -/
def HasEscape (letter : Char) (text : Text) : Prop :=
  StartsDoubleQuoted text ∧ ['\\', letter] <:+: trim text

instance (text : Text) : Decidable (StartsDoubleQuoted text) :=
  inferInstanceAs (Decidable (_ = _))

/-- A part of a text as it is read: with its escapes written out if the text begins with a double
quote. -/
def readFrom (text part : Text) : Text :=
  if StartsDoubleQuoted text then unescaped part else part

/-! ### Parts of a text -/

theorem stripped_isInfix (q : Char) (s : Text) :
  stripped q s <:+: s
  := by
  rw [stripped]
  split
  · apply List.IsInfix.trans _ (List.tail_suffix s).isInfix
    rw [List.dropLast_eq_take]
    apply List.IsPrefix.isInfix
    apply List.take_prefix
  · apply List.infix_refl

/-- What stands between the quotes of a text is a part of it. -/
theorem contentOf_isInfix (q : Char) (s : Text) :
  contentOf q s <:+: s
  := by
  rw [contentOf]
  split
  case h_1 p _ =>
    apply (List.drop_suffix 1 _).isInfix.trans
    apply List.IsPrefix.isInfix
    apply List.take_prefix
  case h_2 =>
    apply (stripped_isInfix q _).trans
    apply (trim_isInfix _).trans
    apply List.IsPrefix.isInfix
    apply List.takeWhile_prefix

/-- A text gives a part of itself as the value, with its escapes written out if the text begins with
a double quote. -/
theorem exists_isInfix_valueOf (hkey : IsKey key) {v : Text} (hv : AllInline v) :
  ∃ part, part <:+: v ∧
    valueOf key v = if v.head? = some doubleQuote then unescaped part else part
  := by
  cases v with
  | nil =>
    use [], List.infix_refl _
    rfl
  | cons q w =>
    by_cases hq : isQuote q = true
    · use contentOf q (q :: w), contentOf_isInfix q _
      rw [valueOf_quoted hkey hq (allInline_cons.mp hv).2, decoded]
      simp
    · have hquote : q ≠ doubleQuote := by
        rintro rfl
        apply hq rfl
      have hstart : startsQuoted (q :: w) = false := eq_false_of_ne_true hq
      use withoutComment (q :: w), (withoutComment_isPrefix hv).isInfix
      rw [valueOf_of_not_startsQuoted hstart, List.head?_cons, if_neg (by simpa using hquote)]

theorem exists_isInfix_valueOf_trim (hkey : IsKey key) (htext : AllInline text) :
  ∃ part, part <:+: trim text ∧ valueOf key (trim text) = readFrom text part
  := exists_isInfix_valueOf hkey (htext.of_subset (trim_subset text))

/-! ### Characters that end a line -/

/-- A character that ends a line is read from a text without such characters only if an escape for
it stands in the text. -/
theorem hasEscape_of_mem_readFrom (htext : AllInline text) (hpart : part <:+: trim text)
    (hc : isLineEnd c = true) (h : c ∈ readFrom text part) :
  c = '\n' ∧ HasEscape 'n' text ∨ c = '\r' ∧ HasEscape 'r' text
  := by
  have hmem : c ∉ trim text := by
    intro hmem
    rw [htext c (trim_subset text hmem)] at hc
    cases hc
  rw [readFrom] at h
  split at h
  case isTrue hquote =>
    have hspelled := (isSpelled_of_mem_unescaped h).of_isInfix hpart
    rcases hspelled.resolve_left hmem with ⟨rfl, hescape⟩ | ⟨rfl, hescape⟩
    · left
      exact ⟨rfl, hquote, hescape⟩
    · right
      exact ⟨rfl, hquote, hescape⟩
  case isFalse => apply absurd (hpart.subset h) hmem

/-- The value of a key in a file is a part of the text that the file assigns to the key last, and
only if this text begins with a double quote, after blanks, the part has its escapes written out.
Hence no value has a separator of lines or of paragraphs, a value has a line feed or a carriage
return only if the text begins with a double quote and has the escape for it, and a value from any
other text stays on its line. -/
theorem exists_isInfix_of_getElem?_parse {raw key value : String}
    (h : (parse raw)[key]? = some value) :
  (∃ u, IsLastText (cutLines raw.toList) key.toList u) ∧
  ∀ u, IsLastText (cutLines raw.toList) key.toList u →
    (∃ part, part <:+: u ∧ value.toList = readFrom u part) ∧
    '\u2028' ∉ value.toList ∧ '\u2029' ∉ value.toList ∧
    ('\n' ∈ value.toList → HasEscape 'n' u) ∧ ('\r' ∈ value.toList → HasEscape 'r' u) ∧
    (¬ StartsDoubleQuoted u → AllInline value.toList)
  := by
  have hname : key ≠ Member.parentName := by
    rintro rfl
    rw [getElem?_parse_parentName] at h
    cases h
  rw [← lines_eq_cutLines]
  use exists_isLastText_of_getElem?_parse hname h
  intro u hu
  obtain ⟨part, hpart, hvalue⟩ := exists_isInfix_valueOf_trim hu.isKey hu.allInline
  rw [getElem?_parse_of_isLastText hname hu, Option.some.injEq] at h
  obtain rfl := h
  rw [String.toList_ofList, hvalue]
  have hends := fun c => @hasEscape_of_mem_readFrom u part c hu.allInline hpart
  use ⟨part, hpart.trans (trim_isInfix u), rfl⟩
  refine ⟨?_, ?_, ?_, ?_, ?_⟩
  · intro hmem
    simpa using hends _ rfl hmem
  · intro hmem
    simpa using hends _ rfl hmem
  · intro hmem
    simpa using hends _ rfl hmem
  · intro hmem
    simpa using hends _ rfl hmem
  · intro hquote c hc
    by_contra hend
    rcases hends c (by simpa using hend) hc with ⟨-, hescape⟩ | ⟨-, hescape⟩
    · apply hquote hescape.1
    · apply hquote hescape.1

/-- A value between double quotes has a line feed where its text has the escape for it. -/
theorem exists_isInfix_escaped_feed :
  (parse "KEY= \"a\\nb\" # c")["KEY"]? = some "a\nb" ∧
    ∃ u, IsLastText (cutLines "KEY= \"a\\nb\" # c".toList) "KEY".toList u ∧ HasEscape 'n' u ∧
      ∃ part, part <:+: u ∧ "a\nb".toList = readFrom u part
  := by
  have hparse : parse "KEY= \"a\\nb\" # c" = (∅ : Values).insert "KEY" "a\nb" :=
    @parse_ofList_key_append "KEY".toList " \"a\\nb\" # c".toList "a\nb".toList (by decide)
      (by decide) (by decide) (by decide)
  have hvalue : (parse "KEY= \"a\\nb\" # c")["KEY"]? = some "a\nb" := by
    rw [hparse, Std.ExtTreeMap.getElem?_insert_self]
  use hvalue
  obtain ⟨⟨u, hu⟩, h⟩ := exists_isInfix_of_getElem?_parse hvalue
  obtain ⟨hpart, -, -, hfeed, -⟩ := h u hu
  exact ⟨u, hu, hfeed (by decide), hpart⟩

end Credentials.EnvFile
