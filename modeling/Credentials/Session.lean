import Credentials.Client

/-!
# Sessions

A session is a tree of files with a client, seen from the working directory `home`.  A step
changes the tree, replaces the client, or asks something; every step has an answer, and one that
fails leaves the session as it was.
-/

namespace Credentials

/-- What can be done in a session. -/
inductive Step where
  /-- Replaces the client. -/
  | renew (location : Location)
  /-- Asks for the path of the client. -/
  | path
  /-- Writes a file. -/
  | write (path : String) (octets : List UInt8)
  /-- Makes a directory. -/
  | makeDirectory (path : String)
  /-- Removes a file or a directory with all it contains. -/
  | remove (path : String)
  /-- Calls a method of the client. -/
  | call (method : Method)
  /-- Asks the client which required keys of the service with this identifier are missing. -/
  | check (service : String)
  /-- Asks the client which services are configured. -/
  | configured
  /-- Asks for the settings in the file at a path. -/
  | read (path : String)
  deriving DecidableEq

/-- What a step answers. -/
inductive Answer where
  | path (text : String)
  | done
  | bundle (bundle : Bundle)
  | keys (keys : List String)
  | services (services : List Service)
  | settings (settings : Settings)
  | failed (error : Error)
  /-- There is no service with the identifier. -/
  | unknownService
  /-- Something is in the way of a file or a directory. -/
  | refused

namespace Answer

/-- The answer that an outcome gives, `answer` being the form of a result. -/
def of {α : Type} (answer : α → Answer) : Except Error α → Answer
  | .ok a => answer a
  | .error e => failed e

end Answer

/-- A tree of files with a client. -/
structure Session where
  tree : FileTree
  client : Client

namespace Session

/-- The session that begins in the directory `home` of a tree with nothing in it. -/
def start (home : Path) : Session :=
  ⟨.ofDirectory home, .new home {}⟩

/-- The session after a change of its tree, which may have been refused. -/
def change (s : Session) : Option FileTree → Session × Answer
  | some t => ({ s with tree := t }, .done)
  | none => (s, .refused)

/-- The answer to the question which keys of a service are missing.  An unreadable file is
reported even where there is no such service. -/
def check (s : Session) (service : String) : Answer :=
  match Service.ofId? service with
  | some service => .of .keys (s.client.check s.tree service)
  | none => .of (fun _ => .unknownService) (s.client.load s.tree)

/-- The session after a step, and the answer to it. -/
def step (home : Path) (s : Session) : Step → Session × Answer
  | .renew location =>
    ({ s with client := .new home location }, .path (Client.new home location).source)
  | .path => (s, .path s.client.source)
  | .write path octets => s.change (s.tree.write? (home.follow path.toList) octets)
  | .makeDirectory path => s.change (s.tree.makeDirectory? (home.follow path.toList))
  | .remove path => s.change (some (s.tree.remove (home.follow path.toList)))
  | .call method => (s, .of .bundle (s.client.call s.tree method))
  | .check service => (s, s.check service)
  | .configured => (s, .of .services (s.client.configured s.tree))
  | .read path => (s, .of .settings (s.tree.settings home path))

/-- The session after steps, and the answers to them. -/
def run (home : Path) (s : Session) : List Step → Session × List Answer
  | [] => (s, [])
  | a :: as =>
    ((run home (s.step home a).1 as).1, (s.step home a).2 :: (run home (s.step home a).1 as).2)

end Session

end Credentials
