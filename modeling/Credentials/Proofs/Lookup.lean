import Credentials.Proofs.EnvFile.EmptyValue

/-!
# Looking up the keys of a file

A look-up in the settings of a file finds the text that the file assigns last to its key, if this
text is not empty, and otherwise nothing (`AnswersLastAssignment`), unless it finds a member of the
map of values.  It finds an operation of the map under each of their names that the file does not
assign, even though the file says nothing of it, and the parent of the map under its name, whatever
the file says (`answersLastAssignment_iff`).
-/

namespace Credentials.Settings

open EnvFile Text

/-- A look-up of the key finds something, whether the key is required or not. -/
structure Finds (s : Settings) (key service : String) (found : Found) : Prop where
  optional : s.optional key = some found
  require : s.require key service = .ok found

/-- A look-up of the key finds nothing, and fails if the key is required. -/
structure FindsNothing (s : Settings) (key service : String) : Prop where
  optional : s.optional key = none
  require : s.require key service = .error (.missing key service s.path)

/-- No line of the file assigns the key. -/
def IsUnassigned (raw key : String) : Prop :=
  ∀ line ∈ cutLines raw.toList, ∀ text, ¬ Assigns line key.toList text

/-- Look-ups of the key find the text that the file assigns last, and nothing if there is none or if
it is empty. -/
structure AnswersLastAssignment (path raw key service : String) : Prop where
  text : ∀ value : String, value ≠ "" →
    IsLastAssignment (cutLines raw.toList) key.toList value.toList →
      (ofText path raw).Finds key service (.text value)
  nothing : (∀ value : String, value ≠ "" →
    ¬ IsLastAssignment (cutLines raw.toList) key.toList value.toList) →
      (ofText path raw).FindsNothing key service

variable {s : Settings} {path raw key service : String} {kind : Member}

/-! ### What a map of values answers -/

theorem finds_of_optional_eq {found : Found} (h : s.optional key = some found) (service : String) :
  s.Finds key service found
  where
  optional := h
  require := by rw [require, h]

theorem findsNothing_of_optional_eq (h : s.optional key = none) (service : String) :
  s.FindsNothing key service
  where
  optional := h
  require := by rw [require, h]

theorem optional_eq_of_getElem?_eq_some {value : String} (h : s.values[key]? = some value) :
  s.optional key = if value = "" then none else some (.text value)
  := by
  rw [optional, h]

theorem optional_eq_of_getElem?_eq_none (h : s.values[key]? = none) :
  s.optional key = (Member.ofName? key).map .member
  := by
  rw [optional, h]

/-! ### What a file answers -/

theorem getElem?_ofText_eq_none_iff (hkey : key ≠ Member.parentName) :
  (ofText path raw).values[key]? = none ↔ IsUnassigned raw key
  := by
  rw [ofText, getElem?_parse_eq_none_iff hkey, lines_eq_cutLines, IsUnassigned]

theorem getElem?_ofText_eq_some_iff (hkey : key ≠ Member.parentName) {value : String} :
  (ofText path raw).values[key]? = some value ↔
    IsLastAssignment (cutLines raw.toList) key.toList value.toList
  := by
  rw [ofText, getElem?_parse_eq_some_iff raw hkey, lines_eq_cutLines]

/-- The parent of a map is found whatever the file assigns to its name. -/
theorem finds_parent (path raw service : String) :
  (ofText path raw).Finds Member.parentName service (.member .parent)
  := by
  apply finds_of_optional_eq
  apply optional_eq_of_getElem?_eq_none (getElem?_parse_parentName raw)

/-- An operation of a map is found under its name if the file does not assign the name. -/
theorem finds_operation (h : key ∈ Member.operationNames) (hraw : IsUnassigned raw key)
    (path service : String) :
  (ofText path raw).Finds key service (.member .operation)
  := by
  have hkey : key ≠ Member.parentName := by
    rintro rfl
    revert h
    decide
  apply finds_of_optional_eq
  rw [optional_eq_of_getElem?_eq_none ((getElem?_ofText_eq_none_iff hkey).mpr hraw),
    Member.ofName?, if_pos h]
  rfl

/-- Where look-ups answer what the file assigns, they find no member. -/
theorem AnswersLastAssignment.not_finds_member (h : AnswersLastAssignment path raw key service) :
  ¬ (ofText path raw).Finds key service (.member kind)
  := by
  intro hmember
  by_cases hvalue : ∃ value : String, value ≠ "" ∧
      IsLastAssignment (cutLines raw.toList) key.toList value.toList
  · obtain ⟨value, hne, hlast⟩ := hvalue
    have htext := (h.text value hne hlast).optional
    rw [hmember.optional] at htext
    cases htext
  · have hnothing := (h.nothing fun value hne hlast => hvalue ⟨value, hne, hlast⟩).optional
    rw [hmember.optional] at hnothing
    cases hnothing

/-- Under any other name, and under the name of an operation that the file assigns, look-ups answer
what the file assigns. -/
theorem answersLastAssignment_of_ne (hkey : key ≠ Member.parentName)
    (hraw : key ∈ Member.operationNames → ¬ IsUnassigned raw key) (path service : String) :
  AnswersLastAssignment path raw key service
  where
  text value hne hlast := by
    apply finds_of_optional_eq
    rw [optional_eq_of_getElem?_eq_some ((getElem?_ofText_eq_some_iff hkey).mpr hlast), if_neg hne]
  nothing hnone := by
    apply findsNothing_of_optional_eq
    cases hvalue : (ofText path raw).values[key]? with
    | none =>
      have hname : key ∉ Member.operationNames :=
        fun h => hraw h ((getElem?_ofText_eq_none_iff hkey).mp hvalue)
      rw [optional_eq_of_getElem?_eq_none hvalue, Member.ofName?, if_neg hname, if_neg hkey]
      rfl
    | some value =>
      have hempty : value = "" := by
        by_contra hne
        apply hnone value hne ((getElem?_ofText_eq_some_iff hkey).mp hvalue)
      rw [optional_eq_of_getElem?_eq_some hvalue, if_pos hempty]

/-- Look-ups of a key answer exactly what the file assigns to it last, unless the key is the name of
the parent of a map, or that of an operation of a map which no line of the file assigns.  Then they
find the parent or the operation, also where the key is required. -/
theorem answersLastAssignment_iff (path raw key service : String) :
  (AnswersLastAssignment path raw key service ↔
    key ≠ Member.parentName ∧ (key ∈ Member.operationNames → ¬ IsUnassigned raw key)) ∧
  (key ∈ Member.operationNames → IsUnassigned raw key →
    (ofText path raw).Finds key service (.member .operation)) ∧
  (ofText path raw).Finds Member.parentName service (.member .parent)
  := by
  refine ⟨⟨?_, ?_⟩, fun hname hraw => finds_operation hname hraw path service,
    finds_parent path raw service⟩
  · intro h
    constructor
    · rintro rfl
      apply h.not_finds_member (finds_parent path raw service)
    · intro hname hraw
      apply h.not_finds_member (finds_operation hname hraw path service)
  · rintro ⟨hkey, hraw⟩
    apply answersLastAssignment_of_ne hkey hraw

/-- An empty file answers the name of an operation, and a file that assigns the name of the parent
answers with the parent. -/
theorem not_answersLastAssignment_constructor :
  IsUnassigned "" "constructor" ∧
    (ofText ".env" "").optional "constructor" = some (.member .operation) ∧
    (ofText ".env" "").require "constructor" "Demo" = .ok (.member .operation) ∧
    ¬ AnswersLastAssignment ".env" "" "constructor" "Demo" ∧
    ¬ AnswersLastAssignment ".env" "__proto__=x" "__proto__" "Demo"
  := by
  have hraw : IsUnassigned "" "constructor" := by
    rw [← @getElem?_ofText_eq_none_iff ".env" "" "constructor" (by decide)]
    rfl
  have hfinds := finds_operation (by decide) hraw ".env" "Demo"
  refine ⟨hraw, hfinds.optional, hfinds.require, ?_, ?_⟩
  · intro h
    apply h.not_finds_member hfinds
  · intro h
    apply h.not_finds_member (finds_parent ".env" "__proto__=x" "Demo")

end Credentials.Settings
