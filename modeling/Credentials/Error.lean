/-!
# Errors

Reading settings and credentials fails for one of two causes: a required setting is missing, or
the file of settings cannot be read.  A general error carries a message of its own.  Every error
has a message.
-/

namespace Credentials

/-- Why settings or credentials cannot be given. -/
inductive Error where
  /-- A failure told by its message alone. -/
  | general (message : String)
  /-- The required setting `key` of `service` is absent or empty in the file `source`. -/
  | missing (key service source : String)
  /-- The file `source` cannot be read; `detail` tells why. -/
  | unreadable (source detail : String)
  deriving DecidableEq

namespace Error

/-- The text of an error. -/
def message : Error → String
  | general message => message
  | missing key service source =>
    "Missing configuration: " ++ service ++ " " ++ key ++ " not found in " ++ source
  | unreadable source detail =>
    "Configuration source unreadable: " ++ source ++ " (" ++ detail ++ ")"

/-- Whether a required setting is missing. -/
def isMissing : Error → Bool
  | missing .. => true
  | _ => false

/-- Whether the file of settings cannot be read. -/
def isUnreadable : Error → Bool
  | unreadable .. => true
  | _ => false

end Error

end Credentials
