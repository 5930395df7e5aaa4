import Credentials.Text.Quote
import Credentials.Text.Utf8
import Credentials.EnvFile

/-!
# Reading files of settings

An attempt to read a file gives its octets or a fault.  `Settings.ofFile` turns the outcome of an
attempt into settings, or into the error that the file is unreadable, with the fault spelled out.
-/

namespace Credentials

/-- Why a file cannot be read. -/
inductive Fault where
  /-- There is no such file. -/
  | notFound
  /-- The path leads to a directory. -/
  | isDirectory
  /-- The path leads through a file. -/
  | notDirectory
  /-- The path, or a name in it, is too long. -/
  | nameTooLong
  /-- The path contains a null character. -/
  | nullCharacter
  deriving DecidableEq

namespace Fault

/-- The number of units up to which the display of a path with a null character is shown. -/
def shownWidth : Nat := 128

/-- The number of units up to which a path with a null character decides how it is shown. -/
def readWidth : Nat := 10000

/-- The display of a path with a null character, as far as the path is read. -/
def displayed (path : Text) : Text :=
  Text.display (Text.takeUnits readWidth path)

/-- A path with a null character as it is shown, cut off where its display is long. -/
def shown (path : Text) : Text :=
  if Text.units (displayed path) ≤ shownWidth then displayed path
  else Text.takeUnits shownWidth (displayed path) ++ "...".toList

/-- The fault in words, for the path at which it arose. -/
def detail (path : String) : Fault → String
  | notFound => "file not found"
  | isDirectory => "EISDIR: illegal operation on a directory, read"
  | notDirectory => "ENOTDIR: not a directory, open '" ++ path ++ "'"
  | nameTooLong => "ENAMETOOLONG: name too long, open '" ++ path ++ "'"
  | nullCharacter =>
    "The argument 'path' must be a string, Uint8Array, or URL without null bytes. Received " ++
      String.ofList (shown path.toList)

end Fault

/-- The octets of a file, or why it cannot be read. -/
abbrev Contents := Except Fault (List UInt8)

/-- The settings in the file at `path`, from what an attempt to read it gave. -/
def Settings.ofFile (path : String) : Contents → Except Error Settings
  | .ok octets => .ok (.ofText path (String.ofList (Text.Utf8.decode octets)))
  | .error fault => .error (.unreadable path (fault.detail path))

end Credentials
