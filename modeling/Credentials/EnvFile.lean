import Credentials.Text.Lines
import Credentials.EnvFile.Value
import Credentials.Settings

/-!
# Environment files

An environment file is read line by line: each line that is an assignment gives its key a value,
in place of the one it had before, and any other line says nothing.  The name of the parent of a
map of values is no key.
-/

namespace Credentials

namespace EnvFile

/-- The key that a line assigns, with its value. -/
def assigned? (line : Text) : Option (Text × Text) :=
  (assignment.first line).map fun (key, text) => (key, valueOf key (Text.trim text))

/-- The values after a line that follows them. -/
def readLine (values : Values) (line : Text) : Values :=
  match assigned? line with
  | none => values
  | some (key, value) =>
    if String.ofList key = Member.parentName then values
    else values.insert (String.ofList key) (String.ofList value)

/-- The values that the text of a file gives to its keys. -/
def parse (text : String) : Values :=
  (Text.lines text.toList).foldl readLine ∅

end EnvFile

/-- The settings in the text of the file at `path`. -/
def Settings.ofText (path text : String) : Settings :=
  ⟨path, EnvFile.parse text⟩

end Credentials
