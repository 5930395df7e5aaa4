import Std.Data.ExtTreeMap
import Credentials.Error

/-!
# Settings

A map of values sends keys to texts; two maps with the same entries are equal, and the entries
are listed in the order of the keys.  `Settings` are such a map with the path of the file it was
read from.

A look-up of a key finds its text, if the map has the key with a text that is not empty.  Every
map also answers some names by itself: under a name of `Member` that the map does not have,
a look-up finds a built-in member.
-/

namespace Credentials

/-- The texts of the keys of a file. -/
abbrev Values := Std.ExtTreeMap String String

/-- The values read from the file at `path`. -/
structure Settings where
  path : String
  values : Values

/-- What a map of values has besides its entries: its operations and its parent. -/
inductive Member where
  | operation
  | parent
  deriving DecidableEq

namespace Member

/-- The names of the operations of a map of values. -/
def operationNames : List String :=
  ["constructor", "toString", "toLocaleString", "valueOf", "hasOwnProperty", "isPrototypeOf",
    "propertyIsEnumerable", "__defineGetter__", "__defineSetter__", "__lookupGetter__",
    "__lookupSetter__"]

/-- The name of the parent of a map of values.  No entry of a file has this key. -/
def parentName : String := "__proto__"

/-- The member of a name. -/
def ofName? (name : String) : Option Member :=
  if name ∈ operationNames then some operation
  else if name = parentName then some parent
  else none

end Member

/-- What a look-up of a key finds. -/
inductive Found where
  /-- The text of an entry; it is not empty. -/
  | text (value : String)
  /-- A built-in member of the map. -/
  | member (kind : Member)
  deriving DecidableEq

namespace Settings

/-- The text of a key, if the settings have one that is not empty. -/
def text? (s : Settings) (key : String) : Option String :=
  s.values[key]?.filter (· ≠ "")

/-- What a look-up finds under a key: its text, or, where the settings do not have the key, a
member of that name. -/
def optional (s : Settings) (key : String) : Option Found :=
  match s.values[key]? with
  | some value => if value = "" then none else some (.text value)
  | none => (Member.ofName? key).map .member

/-- What a look-up finds under a key that `service` requires. -/
def require (s : Settings) (key service : String) : Except Error Found :=
  match s.optional key with
  | some found => .ok found
  | none => .error (.missing key service s.path)

/-- The text of a key that `service` requires. -/
def requireText (s : Settings) (key service : String) : Except Error String :=
  match s.text? key with
  | some value => .ok value
  | none => .error (.missing key service s.path)

/-- A look-up under a name that no member has finds texts only. -/
theorem optional_eq_map_text? (s : Settings) {key : String} (h : Member.ofName? key = none) :
  s.optional key = (s.text? key).map .text
  := by
  unfold optional text?
  cases s.values[key]? with
  | none => simp [h]
  | some value => by_cases hv : value = "" <;> simp [hv, Option.filter]

end Settings

end Credentials
