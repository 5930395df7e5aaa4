import Credentials.EnvFile
import Credentials.Proofs.EnvFile.Assignment
import Credentials.Proofs.Text.Lines

/-!
# The last assignment of a key

A file gives to a key the value of the last line that assigns it.  Assignments made one after the
other put the last value of each key in place of the one before (`getElem?_foldl_assign`).
`lastValue? key ls` is that value for a list of lines, and reading lines after a map of values puts
the last values in place of those of the map (`getElem?_foldl_readLine`).  In terms of the grammar
of assignments, the map that a text gives has exactly the last assignments of the lines into which
the text is cut (`getElem?_parse_eq_some_iff_isLastAssignment`).
-/

namespace Credentials.EnvFile

open Pattern Text

/-- The values after an assignment. -/
def assign (values : Values) (a : Text × Text) : Values :=
  if String.ofList a.1 = Member.parentName then values
  else values.insert (String.ofList a.1) (String.ofList a.2)

/-- The value that a line gives to the key. -/
def valueIn? (key line : Text) : Option Text :=
  (assigned? line).bind fun a => if a.1 = key then some a.2 else none

/-- The value that the last line that assigns the key gives to it. -/
def lastValue? (key : Text) (ls : List Text) : Option Text :=
  ls.reverse.findSome? (valueIn? key)

/-- Some line gives the value to the key, and no line after it assigns the key. -/
def IsLastAssignment (ls : List Text) (key value : Text) : Prop :=
  ∃ before line after text, ls = before ++ line :: after ∧ Assigns line key text ∧
    value = valueOf key (trim text) ∧ ∀ l ∈ after, ∀ t, ¬ Assigns l key t

/-! ### Assignments one after the other -/

/-- An assignment puts its value in place of the one its key had before, and leaves other keys
alone. -/
theorem getElem?_assign (values : Values) (a : Text × Text) {key : String}
    (hkey : key ≠ Member.parentName) :
  (assign values a)[key]? = if a.1 = key.toList then some (String.ofList a.2) else values[key]?
  := by
  rw [assign]
  by_cases ha : a.1 = key.toList
  · rw [ha, String.ofList_toList, if_neg hkey, if_pos rfl, Std.ExtTreeMap.getElem?_insert_self]
  · have hne : String.ofList a.1 ≠ key := by
      rintro rfl
      apply ha String.toList_ofList.symm
    rw [if_neg ha]
    split
    · rfl
    · simp [Std.ExtTreeMap.getElem?_insert, hne]

theorem getElem?_assign_parentName (values : Values) (a : Text × Text) :
  (assign values a)[Member.parentName]? = values[Member.parentName]?
  := by
  rw [assign]
  split
  · rfl
  case isFalse ha => simp [Std.ExtTreeMap.getElem?_insert, ha]

/-- Assignments that follow a map of values put the last values of keys in place of those of the
map. -/
theorem getElem?_foldl_assign (as : List (Text × Text)) (values : Values) {key : String}
    (hkey : key ≠ Member.parentName) :
  (as.foldl assign values)[key]?
    = ((as.reverse.lookup key.toList).map String.ofList).or values[key]?
  := by
  induction as generalizing values with
  | nil => rfl
  | cons a as ih =>
    rw [List.foldl_cons, ih, getElem?_assign values a hkey, List.reverse_cons, List.lookup_append]
    cases as.reverse.lookup key.toList with
    | some value => rfl
    | none =>
      obtain ⟨key', value⟩ := a
      by_cases ha : key' = key.toList
      · simp [ha]
      · have hne : (key.toList == key') = false := beq_false_of_ne (Ne.symm ha)
        simp [List.lookup_cons, ha, hne]

theorem getElem?_foldl_assign_parentName (as : List (Text × Text)) (values : Values) :
  (as.foldl assign values)[Member.parentName]? = values[Member.parentName]?
  := by
  induction as generalizing values with
  | nil => rfl
  | cons a as ih => rw [List.foldl_cons, ih, getElem?_assign_parentName]

/-! ### One line -/

theorem valueIn?_eq_some_iff {key line value : Text} :
  valueIn? key line = some value ↔ assigned? line = some (key, value)
  := by
  constructor
  · intro h
    obtain ⟨⟨k, v⟩, ha, h⟩ := Option.bind_eq_some_iff.mp h
    obtain ⟨rfl, hv⟩ := Option.ite_none_right_eq_some.mp h
    rw [ha, ← Option.some.inj hv]
  · intro h
    simp [valueIn?, h]

theorem assigned?_eq_some_iff {line key value : Text} (h : '\n' ∉ line) :
  assigned? line = some (key, value) ↔
    ∃ text, Assigns line key text ∧ value = valueOf key (trim text)
  := by
  rw [assigned?, Option.map_eq_some_iff]
  constructor
  · rintro ⟨⟨k, t⟩, ha, heq⟩
    obtain ⟨rfl, rfl⟩ := Prod.mk.inj heq
    use t, (first_assignment_eq_some_iff h).mp ha
  · rintro ⟨text, ha, rfl⟩
    use (key, text), (first_assignment_eq_some_iff h).mpr ha

/-- A line that assigns its text to a key gives the key the value of the text. -/
theorem Assigns.assigned? {line key text : Text} (h : Assigns line key text) (hl : '\n' ∉ line) :
  assigned? line = some (key, valueOf key (trim text))
  := (assigned?_eq_some_iff hl).mpr ⟨text, h, rfl⟩

theorem valueIn?_eq_none_iff {key line : Text} (h : '\n' ∉ line) :
  valueIn? key line = none ↔ ∀ text, ¬ Assigns line key text
  := by
  rw [Option.eq_none_iff_forall_ne_some]
  constructor
  · intro hnone text ha
    apply hnone _ (valueIn?_eq_some_iff.mpr (ha.assigned? h))
  · intro hnone value hvalue
    obtain ⟨text, ha, -⟩ := (assigned?_eq_some_iff h).mp (valueIn?_eq_some_iff.mp hvalue)
    apply hnone text ha

/-! ### Many lines -/

/-- The values of later lines come first. -/
theorem lastValue?_append (key : Text) (ls ls' : List Text) :
  lastValue? key (ls ++ ls') = (lastValue? key ls').or (lastValue? key ls)
  := by
  simp [lastValue?, List.findSome?_append]

theorem lastValue?_cons (key line : Text) (ls : List Text) :
  lastValue? key (line :: ls) = (lastValue? key ls).or (valueIn? key line)
  := by
  rw [← List.singleton_append, lastValue?_append]
  simp [lastValue?]

/-- The last value of a key among lines is the one that the last of their assignments to the key
gives it. -/
theorem lastValue?_eq_lookup (key : Text) (ls : List Text) :
  lastValue? key ls = (ls.filterMap assigned?).reverse.lookup key
  := by
  rw [← List.filterMap_reverse, List.lookup_eq_findSome?, ← List.head?_filterMap,
    List.filterMap_filterMap, List.head?_filterMap, lastValue?]
  congr
  funext line
  simp only [valueIn?, beq_iff_eq, @eq_comm _ key]

/-- Reading lines is making their assignments. -/
theorem foldl_readLine_eq (ls : List Text) (values : Values) :
  ls.foldl readLine values = (ls.filterMap assigned?).foldl assign values
  := by
  rw [List.foldl_filterMap]
  congr
  funext values line
  rw [readLine]
  cases assigned? line <;> rfl

/-- Lines that follow a map of values put the last values of keys in place of those of the map. -/
theorem getElem?_foldl_readLine (ls : List Text) (values : Values) {key : String}
    (hkey : key ≠ Member.parentName) :
  (ls.foldl readLine values)[key]?
    = ((lastValue? key.toList ls).map String.ofList).or values[key]?
  := by
  rw [foldl_readLine_eq, getElem?_foldl_assign _ _ hkey, lastValue?_eq_lookup]

theorem getElem?_foldl_readLine_parentName (ls : List Text) (values : Values) :
  (ls.foldl readLine values)[Member.parentName]? = values[Member.parentName]?
  := by
  rw [foldl_readLine_eq, getElem?_foldl_assign_parentName]

/-- A text gives each key the last value of its lines. -/
theorem getElem?_parse (text : String) {key : String} (hkey : key ≠ Member.parentName) :
  (parse text)[key]? = (lastValue? key.toList (lines text.toList)).map String.ofList
  := by
  rw [parse, getElem?_foldl_readLine _ _ hkey, Std.ExtTreeMap.getElem?_empty, Option.or_none]

theorem getElem?_parse_parentName (text : String) :
  (parse text)[Member.parentName]? = none
  := by
  rw [parse, getElem?_foldl_readLine_parentName, Std.ExtTreeMap.getElem?_empty]

/-- The last value of a key is the value of its last assignment. -/
theorem lastValue?_eq_some_iff {ls : List Text} (h : ∀ l ∈ ls, '\n' ∉ l) {key value : Text} :
  lastValue? key ls = some value ↔ IsLastAssignment ls key value
  := by
  rw [lastValue?, List.findSome?_eq_some_iff]
  constructor
  · rintro ⟨after, line, before, heq, hline, hafter⟩
    obtain rfl : ls = before.reverse ++ line :: after.reverse := by
      rw [← ls.reverse_reverse, heq]
      simp
    obtain ⟨text, ha, rfl⟩ :=
      (assigned?_eq_some_iff (h line (by simp))).mp (valueIn?_eq_some_iff.mp hline)
    use before.reverse, line, after.reverse, text, rfl, ha, rfl
    intro l hl
    apply (valueIn?_eq_none_iff (h l (by simp [List.mem_reverse.mp hl]))).mp
    apply hafter l (List.mem_reverse.mp hl)
  · rintro ⟨before, line, after, text, rfl, ha, rfl, hafter⟩
    use after.reverse, line, before.reverse, by simp
    use valueIn?_eq_some_iff.mpr (ha.assigned? (h line (by simp)))
    intro l hl
    rw [List.mem_reverse] at hl
    apply (valueIn?_eq_none_iff (h l (by simp [hl]))).mpr (hafter l hl)

theorem lastValue?_eq_none_iff {ls : List Text} (h : ∀ l ∈ ls, '\n' ∉ l) {key : Text} :
  lastValue? key ls = none ↔ ∀ l ∈ ls, ∀ text, ¬ Assigns l key text
  := by
  rw [lastValue?, List.findSome?_eq_none_iff]
  constructor
  · intro hnone l hl
    apply (valueIn?_eq_none_iff (h l hl)).mp (hnone l (List.mem_reverse.mpr hl))
  · intro hnone l hl
    rw [List.mem_reverse] at hl
    apply (valueIn?_eq_none_iff (h l hl)).mpr (hnone l hl)

theorem getElem?_parse_eq_some_iff (text : String) {key value : String}
    (hkey : key ≠ Member.parentName) :
  (parse text)[key]? = some value ↔
    IsLastAssignment (lines text.toList) key.toList value.toList
  := by
  rw [getElem?_parse text hkey, Option.map_eq_some_iff,
    ← lastValue?_eq_some_iff fun _ => feed_not_mem_of_mem_lines]
  constructor
  · rintro ⟨v, hv, rfl⟩
    rw [hv, String.toList_ofList]
  · intro hv
    use value.toList, hv, String.ofList_toList

/-- A text of one line that assigns gives the one value. -/
theorem parse_ofList_of_assigns {line key text : Text} (h : Assigns line key text)
    (hl : '\n' ∉ line) (hkey : String.ofList key ≠ Member.parentName) :
  parse (String.ofList line)
    = (∅ : Values).insert (String.ofList key) (String.ofList (valueOf key (trim text)))
  := by
  rw [parse, String.toList_ofList, lines_of_not_mem hl, List.foldl_cons, List.foldl_nil, readLine,
    h.assigned? hl]
  apply if_neg hkey

/-- A key with its text after an equality sign is a file with one value. -/
theorem parse_ofList_key_append {key text value : Text} (hkey : IsKey key) (htext : AllInline text)
    (hname : String.ofList key ≠ Member.parentName) (hvalue : valueOf key (trim text) = value) :
  parse (String.ofList (key ++ '=' :: text))
    = (∅ : Values).insert (String.ofList key) (String.ofList value)
  := by
  rw [← hvalue]
  apply parse_ofList_of_assigns _ _ hname
  · apply assigns_of_key allBlank_nil hkey allBlank_nil htext
  · simp [hkey.not_mem (c := '\n') rfl, (allInline_iff_not_mem.mp htext).1]

theorem getElem?_parse_key_append {key text : Text} (hkey : IsKey key)
    (hname : String.ofList key ≠ Member.parentName) (htext : AllInline text) :
  (parse (String.ofList (key ++ '=' :: text)))[String.ofList key]?
    = some (String.ofList (valueOf key (trim text)))
  := by
  rw [parse_ofList_key_append hkey htext hname rfl, Std.ExtTreeMap.getElem?_insert_self]

/-- A key with a value after an equality sign is a file that holds this value. -/
theorem parse_key_append {key value : String} (hkey : IsKey key.toList)
    (hname : key ≠ Member.parentName) (hinline : AllInline value.toList)
    (hvalue : valueOf key.toList (trim value.toList) = value.toList) :
  parse (key ++ "=" ++ value) = (∅ : Values).insert key value
  := by
  have heq : key ++ "=" ++ value = String.ofList (key.toList ++ '=' :: value.toList) := by
    rw [← String.toList_inj]
    simp
  rw [← @String.ofList_toList key] at hname
  rw [heq, parse_ofList_key_append hkey hinline hname hvalue, String.ofList_toList,
    String.ofList_toList]

/-- The map that a text gives holds each key with the value of its last assignment among the lines
of the text, even an empty one, and nothing else; the name of the parent is never a key.  The word
`export` alone before the equality sign is a key itself, and may follow the word `export` as other
keys may. -/
theorem getElem?_parse_eq_some_iff_isLastAssignment :
  (∀ text key value : String, (parse text)[key]? = some value ↔
    key ≠ Member.parentName ∧
      IsLastAssignment (cutLines text.toList) key.toList value.toList) ∧
  ∀ head text : Text, '\n' ∉ head → '=' ∉ head → AllInline text →
    words head = [exportWord] ∨ words head = [exportWord, exportWord] →
      parse (String.ofList (head ++ '=' :: text))
        = (∅ : Values).insert "export" (String.ofList (valueOf exportWord (trim text)))
  := by
  constructor
  · intro text key value
    rw [← lines_eq_cutLines, ← lastValue?_eq_some_iff (fun _ => feed_not_mem_of_mem_lines)]
    by_cases hkey : key = Member.parentName
    · rw [hkey, getElem?_parse_parentName]
      simp
    · rw [getElem?_parse text hkey, Option.map_eq_some_iff]
      constructor
      · rintro ⟨v, hv, rfl⟩
        use hkey
        rw [hv, String.toList_ofList]
      · rintro ⟨-, hv⟩
        use value.toList, hv, String.ofList_toList
  · intro head text hfeed hsign htext hwords
    obtain ⟨hn, hends⟩ := allInline_iff_not_mem.mp htext
    apply parse_ofList_of_assigns
    · exact ⟨head, rfl, hsign, hwords, isKey_exportWord, hends⟩
    · simp [hfeed, hn]
    · decide

theorem parse_export_export :
  words "\texport export ".toList = [exportWord, exportWord] ∧
    parse (String.ofList "\texport export = \"a b\" # c".toList)
      = (∅ : Values).insert "export" "a b"
  := by
  have hwords : words "\texport export ".toList = [exportWord, exportWord] := by decide
  use hwords
  have hvalue : valueOf exportWord (trim " \"a b\" # c".toList) = "a b".toList := by decide
  have h := getElem?_parse_eq_some_iff_isLastAssignment.2 "\texport export ".toList
    " \"a b\" # c".toList (by decide) (by decide) (by decide) (Or.inr hwords)
  rw [hvalue] at h
  apply h

end Credentials.EnvFile
