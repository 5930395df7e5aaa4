import Credentials.Client
import Credentials.Printing
import Credentials.Table

/-!
# The report on a file of settings

The report shows the path of a file, a table that says of each service whether it is configured
and which of its required keys are missing, and how many services are configured.  It shows keys
only, never their texts.  Every question is put to a client anew.  If the file cannot be read, the
path is all that is reported, and the error is written beside the report.
-/

namespace Credentials

/-- What a command leaves behind: its exit status, its output and its complaints. -/
structure Outcome where
  exit : UInt32
  output : String
  complaints : String
  deriving DecidableEq

/-- What is needed for a report: the path of the file, a place to print lines, and someone to ask
about the services. -/
structure Reporter (m : Type → Type) where
  path : String
  printLine : String → m Unit
  check : Service → m (List String)
  configured : m (List Service)

namespace Reporter

variable {m : Type → Type} [Monad m]

/-- The word for a service of which `missing` are the missing keys. -/
def status (missing : List String) : String :=
  if missing.isEmpty then "ok" else "missing"

/-- The row of a service. -/
def row (r : Reporter m) (service : Service) : m (List Text) := do
  let missing ← r.check service
  return [service.label.toList, (status missing).toList, (", ".intercalate missing).toList]

/-- Prints the report, and gives the exit status. -/
def report (r : Reporter m) : m UInt32 := do
  r.printLine ("\n  " ++ r.path ++ "\n")
  let rows ← Service.all.mapM r.row
  Table.print r.printLine ⟨["Service".toList, "Status".toList, "Missing keys".toList], rows⟩
  let configured ← r.configured
  r.printLine ("  " ++ toString configured.length ++ "/" ++ toString Service.all.length ++
    " services configured\n")
  return 0

/-- The report on the file of a client in a tree of files. -/
def ofClient (c : Client) (t : FileTree) : Reporter Printing where
  path := c.source
  printLine := Printing.line
  check service := MonadExcept.ofExcept (c.check t service)
  configured := MonadExcept.ofExcept (c.configured t)

end Reporter

namespace Report

/-- The complaint about an error. -/
def complaint (e : Error) : String :=
  "Error: " ++ e.message

/-- What the command leaves behind that ends with a status, or stops at an error, after what it has
printed. -/
def outcome : Except Error UInt32 × String → Outcome
  | (.ok status, printed) => ⟨status, printed, ""⟩
  | (.error e, printed) => ⟨1, printed, complaint e ++ "\n"⟩

/-- The client that the arguments of the command describe to someone at `here`: the first one
names the file. -/
def client (here : Path) (args : List String) : Client :=
  .new here ⟨none, args.head?⟩

/-- What the command leaves behind in a tree of files. -/
def run (here : Path) (t : FileTree) (args : List String) : Outcome :=
  outcome (Reporter.ofClient (client here args) t).report.run

end Report

end Credentials
