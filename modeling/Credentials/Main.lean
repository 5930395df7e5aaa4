import Credentials.Report

/-!
# The command line

The command reports on the file that its first argument names, or on the usual one in the working
directory.
-/

namespace Credentials

/-- The number of an error of the system, which is also given with its sign changed. -/
def errorNumber (code : UInt32) : Nat :=
  if code.toNat < 0x80000000 then code.toNat else 0x100000000 - code.toNat

/-- The fault that an error of the system stands for, if it is one of those that are told apart. -/
def Fault.ofSystem? : IO.Error → Option Fault
  | .noFileOrDirectory .. => some .notFound
  | .inappropriateType _ code _ =>
    match errorNumber code with
    | 20 => some .notDirectory
    | 21 => some .isDirectory
    | _ => none
  | .invalidArgument _ code _ =>
    match errorNumber code with
    | 36 => some .nameTooLong
    | _ => none
  | _ => none

/-- The settings in a file of the system. -/
def loadSystemFile (path : String) : ExceptT Error IO Settings := ExceptT.mk do
  if path.contains '\x00' then
    return Settings.ofFile path (.error .nullCharacter)
  try
    let octets ← IO.FS.readBinFile path
    return Settings.ofFile path (.ok octets.toList)
  catch e =>
    match Fault.ofSystem? e with
    | some fault => return Settings.ofFile path (.error fault)
    | none => return .error (.unreadable path (toString e))

/-- The report on a file of the system, which is read for every question. -/
def Reporter.ofSystemFile (path : String) : Reporter (ExceptT Error IO) where
  path := path
  printLine text := IO.println text
  check service := do return (← loadSystemFile path).missing service
  configured := do return (← loadSystemFile path).configured

end Credentials

open Credentials in
/-- Reports on a file of settings of the system. -/
def main (args : List String) : IO UInt32 := do
  let here := Path.root.follow (toString (← IO.currentDir)).toList
  match ← (Reporter.ofSystemFile (Report.client here args).source).report.run with
  | .ok status => return status
  | .error e =>
    IO.eprintln (Report.complaint e)
    return 1
