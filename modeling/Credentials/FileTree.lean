import Credentials.File
import Credentials.Path

/-!
# Trees of files

A tree of files has files and directories at some of its paths.  It is changed by writing a file,
making a directory and removing what a path leads to; the first two make the directories on the
way, and are refused where a file is in the way.

A path text is read as it is walked: at each name the walk must be in a directory, and the first
step that fails decides the fault.
-/

namespace Credentials

/-- What is at a place of a tree. -/
inductive Item where
  | file (octets : List UInt8)
  | directory
  deriving DecidableEq

namespace Item

/-- Whether a file is at a place. -/
def isFile : Option Item → Bool
  | some (file _) => true
  | _ => false

end Item

/-- The files and directories of a tree, by their paths. -/
structure FileTree where
  item? : Path → Option Item

namespace FileTree

/-- The number of octets that a name may have. -/
def maxName : Nat := 255

/-- The number of octets that a text of a path may have. -/
def maxText : Nat := 4095

/-- The tree with directories at the places `ps` too. -/
def addDirectories (t : FileTree) (ps : List Path) : FileTree :=
  ⟨fun q => if q ∈ ps then some .directory else t.item? q⟩

/-- The tree with a file at the place `p`. -/
def addFile (t : FileTree) (p : Path) (octets : List UInt8) : FileTree :=
  ⟨fun q => if q = p then some (.file octets) else t.item? q⟩

/-- The tree whose only places are `p` and those that contain it, all of them directories. -/
def ofDirectory (p : Path) : FileTree :=
  addDirectories ⟨fun _ => none⟩ (p :: p.ancestors)

/-- Whether something can be made at the place `p`: its names are usable, and no file is in the
way. -/
def canHold (t : FileTree) (p : Path) : Bool :=
  p.names.all (fun name => Text.Utf8.size name ≤ maxName) &&
    Text.Utf8.size p.text ≤ maxText && ! p.text.contains '\x00' &&
    p.ancestors.all (fun q => ! Item.isFile (t.item? q))

/-- The tree after a file is written, with the directories on the way to it; none if something
is in the way. -/
def write? (t : FileTree) (p : Path) (octets : List UInt8) : Option FileTree :=
  if t.canHold p ∧ p ≠ .root ∧ t.item? p ≠ some .directory then
    some ((t.addDirectories p.ancestors).addFile p octets)
  else none

/-- The tree after a directory is made, with those on the way to it; none if a file is in the
way. -/
def makeDirectory? (t : FileTree) (p : Path) : Option FileTree :=
  if t.canHold p ∧ ! Item.isFile (t.item? p) then
    some (t.addDirectories (p :: p.ancestors))
  else none

/-- The tree without the place `p` and all that it contains. -/
def remove (t : FileTree) (p : Path) : FileTree :=
  ⟨fun q => if p.isAbove q then none else t.item? q⟩

/-- What a walk along segments reads, from a directory on. -/
def walk (t : FileTree) : Path → List Text → Contents
  | _, [] => .error .isDirectory
  | p, segment :: rest =>
    if ! Path.isName segment then t.walk (p.enter segment) rest
    else if maxName < Text.Utf8.size segment then .error .nameTooLong
    else match t.item? (p.child segment) with
      | none => .error .notFound
      | some .directory => t.walk (p.child segment) rest
      | some (.file octets) => if rest = [] then .ok octets else .error .notDirectory

/-- What is read at the text of a path, for someone at `here`. -/
def read (t : FileTree) (here : Path) (s : Text) : Contents :=
  if s.contains '\x00' then .error .nullCharacter
  else if s = [] then .error .notFound
  else if maxText < Text.Utf8.size s then .error .nameTooLong
  else t.walk (here.origin s) (Path.segments s)

/-- The settings in the file that the text of a path leads to, for someone at `here`. -/
def settings (t : FileTree) (here : Path) (path : String) : Except Error Settings :=
  Settings.ofFile path (t.read here path.toList)

end FileTree

end Credentials
