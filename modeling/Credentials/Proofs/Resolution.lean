import Credentials.Client
import Credentials.Proofs.Path

/-!
# Resolved paths

Following texts one after another is following the text that joins them (`Path.goto_join`), so that a
location, seen from a working directory, is resolved as the texts of all three put together.  The text
of the path that this leads to is normal: it begins at the root and has nothing in it that could be
left out (`Path.IsPlain.isNormal_text`).  Such a text leads back to its path from everywhere
(`Path.IsPlain.goto_text`), and therefore resolving it again, in place of the file or of the
directory, gives the same path.
-/

namespace Credentials

namespace Path

/-- A text that names every place on the way from the root, and nothing else: no segment is empty or
stands for a place on the way, and there is no slash at the end, unless it is the text of the root. -/
structure IsNormal (s : Text) : Prop where
  isAbsolute : isAbsolute s = true
  isName : s ≠ ['/'] → ∀ segment ∈ segments s.tail, isName segment = true
  getLast?_ne : s ≠ ['/'] → s.getLast? ≠ some '/'

/-- The text `s` with `base` and a slash before it, unless `s` is absolute.  An empty text adds
nothing. -/
def prepend (base s : Text) : Text :=
  if isAbsolute s ∨ base = [] then s else base ++ '/' :: s

/-- The texts put one after another, from the last one that is absolute on. -/
def join (texts : List Text) : Text :=
  texts.foldr prepend []

variable {p : Path} {s base : Text} {names : List Text}

/-! ### Following texts -/

theorem goto_of_isAbsolute (h : isAbsolute s = true) (p : Path) :
  p.goto s = root.follow s
  := by
  rw [goto, origin, if_pos h]

theorem root_goto (s : Text) :
  root.goto s = root.follow s
  := by
  rw [goto, origin, ite_self]

theorem follow_append (p : Path) (s t : Text) :
  p.follow (s ++ '/' :: t) = (p.follow s).follow t
  := by
  rw [follow, segments_append, List.foldl_append]
  rfl

theorem origin_append (p : Path) (h : base ≠ []) (s : Text) :
  p.origin (base ++ s) = p.origin base
  := by
  obtain ⟨c, base, rfl⟩ := List.exists_cons_of_ne_nil h
  rfl

/-- A text leads from where the one before it has led. -/
theorem goto_prepend (p : Path) (base s : Text) :
  p.goto (prepend base s) = (p.goto base).goto s
  := by
  rw [prepend]
  split
  case isTrue h =>
    rcases h with habsolute | rfl
    · rw [goto_of_isAbsolute habsolute, goto_of_isAbsolute habsolute]
    · rfl
  case isFalse h =>
    obtain ⟨hrelative, hbase⟩ := not_or.mp h
    have horigin : (p.goto base).origin s = p.goto base := by
      rw [origin, if_neg hrelative]
    rw [goto, origin_append p hbase, follow_append, goto, horigin, goto]

theorem goto_join (p : Path) (texts : List Text) :
  p.goto (join texts) = texts.foldl goto p
  := by
  induction texts generalizing p with
  | nil => rfl
  | cons text texts ih =>
    have hjoin : join (text :: texts) = prepend text (join texts) := rfl
    rw [hjoin, goto_prepend, ih, List.foldl_cons]

/-! ### Normal texts -/

/-- Names are entered one below the other. -/
theorem foldl_enter_of_isName (h : ∀ name ∈ names, isName name = true) (p : Path) :
  names.foldl enter p = ⟨p.names ++ names⟩
  := by
  induction names generalizing p with
  | nil => rw [List.foldl_nil, List.append_nil]
  | cons name names ih =>
    obtain ⟨hname, hnames⟩ := List.forall_mem_cons.mp h
    rw [List.foldl_cons, enter, if_pos hname, ih hnames, child, List.append_assoc,
      List.singleton_append]

/-- The text of a plain path leads to the path from everywhere. -/
theorem IsPlain.goto_text (h : p.IsPlain) (q : Path) :
  q.goto p.text = p
  := by
  rw [goto_of_isAbsolute rfl]
  by_cases hroot : p = root
  · rw [hroot]
    rfl
  · have hnames := foldl_enter_of_isName (fun name hname => (h name hname).1) root
    rw [Path.follow, h.segments_text hroot, List.foldl_cons]
    apply hnames

/-- A text made of names has no slash at the end, for an empty segment would follow it. -/
theorem getLast?_ne_slash (h : ∀ segment ∈ segments s, isName segment = true) :
  s.getLast? ≠ some '/'
  := by
  intro hlast
  obtain ⟨t, rfl⟩ := List.getLast?_eq_some_iff.mp hlast
  have hempty : [] ∈ segments (t ++ ['/']) := by
    rw [segments_append]
    apply List.mem_append_right _ List.mem_cons_self
  cases h [] hempty

theorem IsPlain.isNormal_text (h : p.IsPlain) :
  IsNormal p.text
  := by
  have hname : p.text ≠ ['/'] → ∀ segment ∈ segments p.text.tail, isName segment = true := by
    intro htext segment hsegment
    have hnames : p.names ≠ [] := by
      intro hnil
      apply htext
      rw [text, hnil, List.intercalate_nil]
    rw [text, List.tail_cons, segments_intercalate hnames fun name hname => (h name hname).2]
      at hsegment
    apply (h segment hsegment).1
  constructor
  case isAbsolute => rfl
  case isName => apply hname
  case getLast?_ne =>
    intro htext
    have htail : ['/'].intercalate p.names ≠ [] := by
      intro hnil
      apply htext
      rw [text, hnil]
    rw [text, List.getLast?_cons_of_ne_nil htail]
    apply getLast?_ne_slash (hname htext)

/-! ### Locations -/

theorem IsPlain.goto (h : p.IsPlain) (s : Text) :
  (p.goto s).IsPlain
  := by
  rw [Path.goto, origin]
  split
  · apply isPlain_root.follow
  · apply h.follow

theorem IsPlain.resolve (h : p.IsPlain) (l : Location) :
  (p.resolve l).IsPlain
  := by
  apply IsPlain.goto
  apply h.goto

/-- A plain path is the path that its text describes as a file. -/
theorem IsPlain.resolve_text (h : p.IsPlain) (here : Path) (directory : Option String) :
  here.resolve ⟨directory, some (String.ofList p.text)⟩ = p
  := by
  rw [Path.resolve, Option.getD_some, String.toList_ofList, h.goto_text]

/-- A directory may be replaced by the path that it is resolved to. -/
theorem resolve_directory {here : Path} (h : here.IsPlain) (directory file : Option String) :
  here.resolve ⟨some (String.ofList (here.resolve ⟨directory, some ""⟩).text), file⟩
    = here.resolve ⟨directory, file⟩
  := by
  have hdirectory : here.resolve ⟨directory, some ""⟩ = here.goto (directory.getD "").toList := rfl
  have hplain := h.goto (directory.getD "").toList
  rw [Path.resolve, Option.getD_some, String.toList_ofList, hdirectory, hplain.goto_text]
  rfl

theorem resolve_of_isAbsolute {file : String} (h : isAbsolute file.toList = true) (here : Path)
    (directory : Option String) :
  here.resolve ⟨directory, some file⟩ = root.follow file.toList
  := by
  rw [Path.resolve, Option.getD_some, goto_of_isAbsolute h]

/-- A location is resolved, seen from an absolute working directory, as the texts of the working
directory, of its directory and of its file put one after another. -/
theorem resolve_eq_follow_join {home : String} (h : isAbsolute home.toList = true) (l : Location) :
  (root.follow home.toList).resolve l
    = root.follow (join [home.toList, (l.directory.getD home).toList,
        (l.file.getD Location.defaultFile).toList])
  := by
  have hdirectory : (root.follow home.toList).goto (l.directory.getD home).toList
      = (root.follow home.toList).goto (l.directory.getD "").toList := by
    cases l.directory with
    | none =>
      -- `home` stands before itself here, and only the second one counts.
      rw [Option.getD_none, goto_of_isAbsolute h]
      rfl
    | some directory => rfl
  rw [← root_goto (join _), goto_join, List.foldl_cons, root_goto, List.foldl_cons, hdirectory]
  rfl

end Path

namespace Client

/-- The path of the client of the file that a directory and a file describe to someone in the
directory `home`. -/
def sourceFor (home : String) (directory file : Option String) : String :=
  (new (Path.root.follow home.toList) ⟨directory, file⟩).source

theorem sourceFor_eq (home : String) (directory file : Option String) :
  sourceFor home directory file
    = String.ofList ((Path.root.follow home.toList).resolve ⟨directory, file⟩).text
  := rfl

/-- For every absolute working directory, the path of a client is that of the working directory, the
directory and the file put one after another, and its text is normal.  With this text for the file the
path is the same again, whatever the directory, and so it is with the path of the directory alone in
place of the directory.  If the text of the file is absolute, the path does not depend on the
directory. -/
theorem sourceFor_normal_and_stable {home : String} (hhome : Path.isAbsolute home.toList = true)
    (directory file : Option String) :
  sourceFor home directory file
    = String.ofList (Path.root.follow (Path.join [home.toList, (directory.getD home).toList,
        (file.getD Location.defaultFile).toList])).text ∧
  Path.IsNormal (sourceFor home directory file).toList ∧
  (∀ directory',
    sourceFor home directory' (some (sourceFor home directory file))
      = sourceFor home directory file) ∧
  sourceFor home (some (sourceFor home directory (some ""))) file
    = sourceFor home directory file ∧
  (∀ text, file = some text → Path.isAbsolute text.toList = true → ∀ directory',
    sourceFor home directory' file = sourceFor home directory file)
  := by
  have hhere : (Path.root.follow home.toList).IsPlain := Path.isPlain_root.follow home.toList
  have hplain := hhere.resolve ⟨directory, file⟩
  refine ⟨?_, ?_, ?_, ?_, ?_⟩
  · rw [sourceFor_eq, Path.resolve_eq_follow_join hhome]
  · rw [sourceFor_eq, String.toList_ofList]
    apply hplain.isNormal_text
  · intro directory'
    rw [sourceFor_eq home directory file, sourceFor_eq, hplain.resolve_text]
  · rw [sourceFor_eq home directory (some ""), sourceFor_eq, Path.resolve_directory hhere,
      sourceFor_eq]
  · rintro text rfl habsolute directory'
    rw [sourceFor_eq, Path.resolve_of_isAbsolute habsolute, sourceFor_eq,
      Path.resolve_of_isAbsolute habsolute]

/-- Two dots lead out of the working directory and stop at the root, and a text that begins there
leads to the same path from another directory. -/
theorem sourceFor_above_root :
  Path.isAbsolute "/srv/app/".toList = true ∧
  sourceFor "/srv/app/" (some "../../..//conf/./x") (some "../a/") = "/conf/a" ∧
  sourceFor "/srv/app/" (some "b") (some "/conf/a") = "/conf/a" ∧
  Path.isAbsolute "/../c".toList = true ∧
  sourceFor "/srv/app/" (some "b") (some "/../c") = sourceFor "/srv/app/" none (some "/../c")
  := by
  have hhome : Path.isAbsolute "/srv/app/".toList = true := by decide
  have htext : Path.isAbsolute "/../c".toList = true := by decide
  have hsource : sourceFor "/srv/app/" (some "../../..//conf/./x") (some "../a/") = "/conf/a" := by
    decide
  have hstable := sourceFor_normal_and_stable hhome (some "../../..//conf/./x") (some "../a/")
  have habsolute := sourceFor_normal_and_stable hhome none (some "/../c")
  rw [hsource] at hstable
  use hhome, hsource, hstable.2.2.1 (some "b"), htext
  apply habsolute.2.2.2.2 "/../c" rfl htext

end Client

end Credentials
