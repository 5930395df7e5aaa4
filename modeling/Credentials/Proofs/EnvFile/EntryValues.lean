import Credentials.Proofs.EnvFile.QuotedValue

/-!
# The values of entries

Read as entries, a text gives each of its keys the value of the last entry of the key
(`getElem?_entryValues`).  A text that begins with a quote has the value that these entries give to
its key, or the empty one if they give none (`valueOf_eq_getElem?_entryValues`).

Thus a line with a quoted value is read in two ways: as an assignment, and then, from its key on, as
a text of entries.  Both readings find the same key and nothing else, so that the value is never
empty for want of an entry (`parse_eq_entryValues`).
-/

namespace Credentials.EnvFile

open Pattern Text

variable {key v : Text}

/-- The values that the entries of a text give to their keys. -/
def entryValues (s : Text) : Values :=
  (entries s).foldl assign ∅

/-- The last entry of a key decides its value. -/
theorem getElem?_entryValues (s : Text) {key : String} (hkey : key ≠ Member.parentName) :
  (entryValues s)[key]? = (findValue? key.toList s).map String.ofList
  := by
  rw [entryValues, getElem?_foldl_assign _ _ hkey, Std.ExtTreeMap.getElem?_empty, Option.or_none,
    findValue?]

/-- The value of a text that begins with a quote is the one that the entries of the line give to the
key, and empty if they give none. -/
theorem valueOf_eq_getElem?_entryValues (hname : String.ofList key ≠ Member.parentName)
    (hquote : startsQuoted v = true) :
  String.ofList (valueOf key v) = (entryValues (key ++ '=' :: v))[String.ofList key]?.getD ""
  := by
  rw [getElem?_entryValues _ hname, String.toList_ofList, valueOf, if_pos hquote]
  cases findValue? key (key ++ '=' :: v) <;> rfl

/-! ### One quoted value -/

/-- A line that assigns a text that begins with a quote is one entry, whose key is the key of the
assignment and whose value is the start of the text, with at most a comment after it.  The line
holds its key and no other, whether it is read as an assignment or as entries, and the value is
found among the entries. -/
theorem parse_eq_entryValues {line text : Text} (hkey : assignment.first line = some (key, text))
    (hname : String.ofList key ≠ Member.parentName) (htrim : trim v = v) (hv : AllInline v)
    (hquote : startsQuoted v = true) :
  ∃ part rest, v = part ++ rest ∧ EndsEntry rest ∧
    entry.pieces (unifyLineEnds (key ++ '=' :: v)) = [.inr (key, part)] ∧
    entryValues (key ++ '=' :: v)
      = (∅ : Values).insert (String.ofList key) (String.ofList (cleaned part)) ∧
    findValue? key (key ++ '=' :: v) = some (cleaned part) ∧
    parse (String.ofList (key ++ '=' :: v)) = entryValues (key ++ '=' :: v)
  := by
  have hkey : IsKey key := (assigns_of_first_assignment hkey).isKey
  obtain ⟨q, w, rfl, hq⟩ : ∃ q w, v = q :: w ∧ isQuote q = true := by
    cases v with
    | nil => cases hquote
    | cons q w => use q, w, rfl, hquote
  have hw : AllInline w := (allInline_cons.mp hv).2
  have hentries := entries_of_quoted hkey hq hw
  have hvalues : entryValues (key ++ '=' :: q :: w) = (∅ : Values).insert (String.ofList key)
      (String.ofList (cleaned (matchedValue q (q :: w)))) := by
    rw [entryValues, hentries]
    apply if_neg hname
  use matchedValue q (q :: w), afterValue q (q :: w)
  refine ⟨(matchedValue_append_afterValue _).symm, endsEntry_afterValue _,
    pieces_of_quoted hkey hq hw, hvalues, ?_, ?_⟩
  · rw [findValue?, hentries]
    simp
  · rw [hvalues]
    apply parse_ofList_key_append hkey hv hname
    rw [htrim, valueOf_quoted hkey hq hw, cleaned_matchedValue hq hw]

/-- The word `export` is a key, and no other key is found between the quotes or in the comment. -/
theorem parse_eq_entryValues_export :
  assignment.first "export export = x".toList = some ("export".toList, " x".toList) ∧
    startsQuoted "\"a: b=c\" # 'd'=e".toList = true ∧
    entryValues "export=\"a: b=c\" # 'd'=e".toList = (∅ : Values).insert "export" "a: b=c"
  := by
  have hkey : assignment.first "export export = x".toList
      = some ("export".toList, " x".toList) := by
    decide
  have hquote : startsQuoted "\"a: b=c\" # 'd'=e".toList = true := by decide
  use hkey, hquote
  have hparse : parse "export=\"a: b=c\" # 'd'=e" = (∅ : Values).insert "export" "a: b=c" :=
    @parse_ofList_key_append "export".toList "\"a: b=c\" # 'd'=e".toList "a: b=c".toList
      (by decide) (by decide) (by decide) (by decide)
  obtain ⟨-, -, -, -, -, -, -, hvalues⟩ :=
    parse_eq_entryValues hkey (by decide) (by decide) (by decide) hquote
  rw [← hparse]
  apply hvalues.symm

end Credentials.EnvFile
