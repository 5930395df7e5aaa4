import Credentials.FileTree
import Credentials.Proofs.Text.Utf8

/-!
# Reading what was written

What is read in a tree depends on the octets of one of its files only if these octets are what is
read (`walk_addFile`, `read_addFile`).  Hence the settings read from two trees that differ in the
text of one file are the same, or they are the settings of the two texts
(`settings_addFile`).
-/

namespace Credentials.FileTree

variable (t : FileTree) (p : Path)

@[simp]
theorem item?_addFile_self (octets : List UInt8) :
  (t.addFile p octets).item? p = some (.file octets)
  := if_pos rfl

theorem item?_addFile_of_ne {q : Path} (h : q ≠ p) (octets : List UInt8) :
  (t.addFile p octets).item? q = t.item? q
  := if_neg h

/-- A walk in two trees that differ in one file reads the same in both, or the file. -/
theorem walk_addFile (octets octets' : List UInt8) (place : Path) (segments : List Text) :
  (t.addFile p octets).walk place segments = (t.addFile p octets').walk place segments ∨
  (t.addFile p octets).walk place segments = .ok octets ∧
    (t.addFile p octets').walk place segments = .ok octets'
  := by
  induction segments generalizing place with
  | nil =>
    left
    rfl
  | cons segment rest ih =>
    rw [walk, walk]
    split
    · apply ih
    split
    · left
      rfl
    by_cases hp : place.child segment = p
    · -- the walk comes to the file, and it is read if no segment is left
      rw [hp, item?_addFile_self, item?_addFile_self]
      by_cases hrest : rest = [] <;> simp [hrest]
    · rw [item?_addFile_of_ne t p hp, item?_addFile_of_ne t p hp]
      cases t.item? (place.child segment) with
      | none =>
        left
        rfl
      | some item =>
        cases item with
        | file contents =>
          left
          rfl
        | directory => apply ih

theorem read_addFile (octets octets' : List UInt8) (here : Path) (s : Text) :
  (t.addFile p octets).read here s = (t.addFile p octets').read here s ∨
  (t.addFile p octets).read here s = .ok octets ∧ (t.addFile p octets').read here s = .ok octets'
  := by
  rw [read, read]
  split
  · left
    rfl
  split
  · left
    rfl
  split
  · left
    rfl
  apply walk_addFile

/-- The settings read from two trees that differ in the text of one file are the same, or those of
the two texts. -/
theorem settings_addFile (text text' : String) (here : Path) (path : String) :
  (t.addFile p (Text.Utf8.encode text.toList)).settings here path
    = (t.addFile p (Text.Utf8.encode text'.toList)).settings here path ∨
  (t.addFile p (Text.Utf8.encode text.toList)).settings here path = .ok (.ofText path text) ∧
    (t.addFile p (Text.Utf8.encode text'.toList)).settings here path = .ok (.ofText path text')
  := by
  have hread := t.read_addFile p (Text.Utf8.encode text.toList) (Text.Utf8.encode text'.toList) here
    path.toList
  rw [settings, settings]
  apply hread.imp
  · intro h
    rw [h]
  · rintro ⟨h, h'⟩
    simp [h, h', Settings.ofFile, Text.Utf8.decode_encode]

end Credentials.FileTree
