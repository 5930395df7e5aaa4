import Credentials.Text.Lines

/-!
# Paths

A path is a place in a tree of files, given by the names that lead to it from the root.  A text is
followed from a path segment by segment, as its slashes cut it: a name leads one step down, two
dots lead to the parent, which at the root is the root itself, and an empty segment and a single
dot lead nowhere.  A text that begins with a slash is followed from the root.

`p.text` is the path as a text, and `here.resolve l` is the path of the file that the location `l`
describes to someone whose working directory is `here`.
-/

namespace Credentials

/-- A place in a tree of files, as the names from the root. -/
structure Path where
  names : List Text
  deriving DecidableEq

namespace Path

/-- The place where every path begins. -/
def root : Path := ⟨[]⟩

/-- The place that contains `p`, or the root. -/
def parent (p : Path) : Path :=
  ⟨p.names.dropLast⟩

/-- The place called `name` in `p`. -/
def child (p : Path) (name : Text) : Path :=
  ⟨p.names ++ [name]⟩

/-- The segment that stands for the place itself. -/
def dot : Text := ['.']

/-- The segment that stands for the parent. -/
def dotDot : Text := ['.', '.']

/-- Whether a segment is a name, and not one of those that stand for a place on the way. -/
def isName (segment : Text) : Bool :=
  segment ≠ [] && segment ≠ dot && segment ≠ dotDot

/-- The place that a segment leads to. -/
def enter (p : Path) (segment : Text) : Path :=
  if isName segment then p.child segment
  else if segment = dotDot then p.parent
  else p

/-- The segments of a text between its slashes. -/
def segments : Text → List Text
  | [] => [[]]
  | c :: s => if c = '/' then [] :: segments s else Text.consHead c (segments s)

/-- Whether a text is followed from the root. -/
def isAbsolute (s : Text) : Bool :=
  s.head? = some '/'

/-- The place that the segments of a text lead to. -/
def follow (p : Path) (s : Text) : Path :=
  (segments s).foldl enter p

/-- The place where a text is followed from, for someone at `p`. -/
def origin (p : Path) (s : Text) : Path :=
  if isAbsolute s then root else p

/-- The place that a text leads to, for someone at `p`. -/
def goto (p : Path) (s : Text) : Path :=
  (p.origin s).follow s

/-- The path as a text that begins with a slash. -/
def text (p : Path) : Text :=
  '/' :: ['/'].intercalate p.names

/-- The places that contain `p`, from the root on. -/
def ancestors (p : Path) : List Path :=
  (List.range p.names.length).map fun n => ⟨p.names.take n⟩

/-- Whether `p` is `q` or contains it. -/
def isAbove (p q : Path) : Bool :=
  p.names.isPrefixOf q.names

end Path

/-- Where a file of settings is to be found: its directory, if it is not the working directory,
and the file, if it is not the usual one. -/
structure Location where
  directory : Option String := none
  file : Option String := none
  deriving DecidableEq

namespace Location

/-- The usual name of a file of settings. -/
def defaultFile : String := ".env"

end Location

/-- The path of the file that a location describes to someone at `here`. -/
def Path.resolve (here : Path) (l : Location) : Path :=
  (here.goto (l.directory.getD "").toList).goto (l.file.getD Location.defaultFile).toList

end Credentials
