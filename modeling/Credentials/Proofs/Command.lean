import Mathlib.Order.Bounds.Basic
import Credentials.Report
import Credentials.Proofs.Alignment
import Credentials.Proofs.Client
import Credentials.Proofs.Resolution
import Credentials.Proofs.Service
import Credentials.Proofs.StoredFile

/-!
# What the command leaves behind

The command either cannot read the file, and then it shows the path alone and fails with the message
of the error, or it shows a table and a summary and succeeds (`Report.Leaves`).  A row of the table
tells what the client answers when it is asked which keys of the service are missing, the summary
counts the services that the client calls configured, and the two agree: as many rows are marked as
there are such services (`Report.length_filter_status`).
-/

namespace Credentials

theorem Service.ne_empty_of_mem_required {service : Service} {key : String}
    (h : key ∈ service.required) :
  key ≠ ""
  := by
  revert key
  cases service <;> decide

namespace Report

/-! ### Lines -/

/-- The cells of a line of the table. -/
structure Cells where
  service : String
  status : String
  keys : String

/-- The first line of the table. -/
def header : Cells :=
  ⟨"Service", "Status", "Missing keys"⟩

/-- A text with spaces after it up to the width `w`. -/
def padded (w : Nat) (s : String) : String :=
  s ++ String.ofList (List.replicate (w - Text.units s.toList) ' ')

/-- As many dashes. -/
def dashes (n : Nat) : String :=
  String.ofList (List.replicate n '─')

/-- The line of the cells, in columns of the widths `w`, `w'` and `w''`. -/
def Cells.line (w w' w'' : Nat) (cells : Cells) : String :=
  " " ++ padded w cells.service ++ " │ " ++ padded w' cells.status ++ " │ " ++
    padded w'' cells.keys ++ " "

/-- The line below the header. -/
def rule (w w' w'' : Nat) : String :=
  dashes (w + 2) ++ "┼" ++ dashes (w' + 2) ++ "┼" ++ dashes (w'' + 2)

/-- The greatest length, in code units, of the cells of a column. -/
def IsWidest (cells : List String) (w : Nat) : Prop :=
  IsGreatest {n | ∃ cell ∈ cells, n = Text.units cell.toList} w

/-- The cells that tell which keys of the service with a label are missing. -/
def cellsOf (label : String) (missing : List String) : Cells :=
  ⟨label, if ", ".intercalate missing = "" then "ok" else "missing", ", ".intercalate missing⟩

/-! ### Outcomes -/

/-- Why the file at `path` cannot be read, in words. -/
def reason (path : String) : Fault → String
  | .notFound => "file not found"
  | .isDirectory => "EISDIR: illegal operation on a directory, read"
  | .notDirectory => "ENOTDIR: not a directory, open '" ++ path ++ "'"
  | .nameTooLong => "ENAMETOOLONG: name too long, open '" ++ path ++ "'"
  | .nullCharacter =>
    "The argument 'path' must be a string, Uint8Array, or URL without null bytes. Received " ++
      String.ofList (Fault.shown path.toList)

/-- What the command leaves behind that reports on the file of a client. -/
inductive Leaves (c : Client) (t : FileTree) : Outcome → Prop where
  /-- The file cannot be read, and nothing but its path is shown. -/
  | unreadable {fault : Fault} (hread : t.read .root c.source.toList = .error fault) :
    Leaves c t ⟨1, "\n  " ++ c.source ++ "\n\n",
      "Error: Configuration source unreadable: " ++ c.source ++ " (" ++ reason c.source fault ++
        ")\n"⟩
  /-- The file is read, and the services are shown in the order of the catalog, each by its label and
  with the keys that the client calls missing, which are those missing from the text of the file.
  As many rows are marked as there are services that the client calls configured, and the columns
  are as wide as they need to be. -/
  | readable {octets : List UInt8} {rows : List Cells} {services : List Service} {w w' w'' : Nat}
    (hread : t.read .root c.source.toList = .ok octets)
    (hrows : List.Forall₂ (fun name row => ∃ service missing, Service.id service = name.1 ∧
      c.check t service = .ok missing ∧ missing = (Settings.ofText c.source
        (String.ofList (Text.Utf8.decode octets))).missing service ∧
      row = cellsOf name.2 missing) (Service.identifiers.zip Service.labels) rows)
    (hservices : c.configured t = .ok services)
    (hcount : (rows.filter (·.status = "ok")).length = services.length)
    (hservice : IsWidest ((header :: rows).map (·.service)) w)
    (hstatus : IsWidest ((header :: rows).map (·.status)) w')
    (hkeys : IsWidest ((header :: rows).map (·.keys)) w'') :
    Leaves c t ⟨0, "\n  " ++ c.source ++ "\n\n" ++
      header.line w w' w'' ++ "\n" ++ rule w w' w'' ++ "\n" ++
      String.join (rows.map fun row => row.line w w' w'' ++ "\n") ++ "\n" ++
      "  " ++ toString services.length ++ "/" ++ toString rows.length ++
      " services configured\n\n", ""⟩

variable {c : Client} {t : FileTree} {s : Settings} {rows : List Cells} {w w' w'' k : Nat}

/-! ### Rows -/

/-- Nothing is listed where no key is missing, and only there. -/
theorem intercalate_missing_eq_empty_iff {service : Service} :
  ", ".intercalate (s.missing service) = "" ↔ s.missing service = []
  := by
  have hne : ∀ key ∈ s.missing service, key ≠ "" := fun key hkey =>
    Service.ne_empty_of_mem_required (Settings.mem_missing_iff.mp hkey).1
  generalize s.missing service = keys at hne
  rw [← String.toList_eq_nil_iff]
  match keys with
  | [] => simp
  | [key] => simpa using hne
  | key :: key' :: keys => simp [hne]

/-- The cells of a service, from what the settings have. -/
def rowOf (s : Settings) (service : Service) : Cells :=
  cellsOf service.label (s.missing service)

theorem status_rowOf (s : Settings) (service : Service) :
  (rowOf s service).status = Reporter.status (s.missing service)
  := by
  simp only [rowOf, cellsOf, Reporter.status, List.isEmpty_iff, intercalate_missing_eq_empty_iff]

/-- As many rows are marked as there are services that are configured. -/
theorem length_filter_status (s : Settings) :
  ((Service.all.map (rowOf s)).filter (·.status = "ok")).length = s.configured.length
  := by
  have hok : (fun row : Cells => decide (row.status = "ok")) ∘ rowOf s
      = fun service => (s.missing service).isEmpty := by
    funext service
    rw [Function.comp_apply, status_rowOf, Reporter.status]
    cases (s.missing service).isEmpty <;> rfl
  rw [List.filter_map, List.length_map, hok, Settings.configured]

/-- The rows that tell what the client answers about the services are those of the settings in its
file. -/
theorem forall₂_rows_iff (h : c.load t = .ok s) :
  List.Forall₂ (fun name row => ∃ service missing, Service.id service = name.1 ∧
    c.check t service = .ok missing ∧ missing = s.missing service ∧ row = cellsOf name.2 missing)
      (Service.identifiers.zip Service.labels) rows ↔ rows = Service.all.map (rowOf s)
  := by
  have hrow : (fun service row => ∃ service' missing, Service.id service' = Service.id service ∧
      c.check t service' = .ok missing ∧ missing = s.missing service' ∧
      row = cellsOf service.label missing) = fun service row => rowOf s service = row := by
    funext service row
    rw [eq_iff_iff]
    constructor
    · rintro ⟨service', missing, hid, -, rfl, rfl⟩
      rw [Service.id_injective hid]
      rfl
    · rintro rfl
      use service, s.missing service, rfl, Client.check_of_load_eq_ok h service, rfl
      rfl
  have hmap : List.Forall₂ (fun service row => rowOf s service = row) Service.all rows
      ↔ List.Forall₂ Eq (Service.all.map (rowOf s)) rows := List.forall₂_map_left_iff.symm
  rw [Service.zip_identifiers_labels, List.forall₂_map_left_iff, hrow, hmap,
    List.forall₂_eq_eq_eq, eq_comm]

/-! ### The table -/

/-- The cells as texts, column by column. -/
def Cells.texts (cells : Cells) : List Text :=
  [cells.service.toList, cells.status.toList, cells.keys.toList]

/-- The table of the rows. -/
def tableOf (rows : List Cells) : Table :=
  ⟨header.texts, rows.map Cells.texts⟩

theorem fits_of_mem_tableOf {row : List Text}
    (h : row ∈ (tableOf rows).header :: (tableOf rows).rows) :
  Table.Fits row (tableOf rows).widths
  := by
  apply Table.fits_of_mem _ h
  intro row hrow
  obtain ⟨cells, -, rfl⟩ := List.mem_map.mp hrow
  rfl

/-- The width of a column of the table is the greatest length of its cells. -/
theorem isWidest_of_getElem? {column : Cells → String}
    (hcolumn : ∀ cells : Cells, cells.texts[k]? = some (column cells).toList)
    (h : (tableOf rows).widths[k]? = some w) :
  IsWidest ((header :: rows).map column) w
  := by
  have hset : {n | ∃ cell ∈ (header :: rows).map column, n = Text.units cell.toList}
      = {n | ∃ row ∈ (tableOf rows).header :: (tableOf rows).rows, ∃ cell, row[k]? = some cell ∧
        n = Text.units cell} := by
    have htexts : (tableOf rows).header :: (tableOf rows).rows = (header :: rows).map Cells.texts :=
      rfl
    apply congrArg Set.ofPred
    funext n
    simp only [htexts, List.mem_map, exists_exists_and_eq_and, hcolumn, Option.some.injEq,
      exists_eq_left']
  rw [IsWidest, hset]
  apply Table.isGreatest_units (fun row => fits_of_mem_tableOf) h

theorem exists_widths_eq (rows : List Cells) :
  ∃ w w' w'', (tableOf rows).widths = [w, w', w''] ∧
    IsWidest ((header :: rows).map (·.service)) w ∧ IsWidest ((header :: rows).map (·.status)) w' ∧
    IsWidest ((header :: rows).map (·.keys)) w''
  := by
  have hfits : Table.Fits header.texts (tableOf rows).widths :=
    fits_of_mem_tableOf List.mem_cons_self
  have hlength : (tableOf rows).widths.length = 3 := hfits.length_eq.symm
  obtain ⟨w, w', w'', hwidths⟩ := List.length_eq_three.mp hlength
  use w, w', w'', hwidths
  constructor
  · apply @isWidest_of_getElem? rows w 0 (·.service) fun _ => rfl
    rw [hwidths]
    rfl
  constructor
  · apply @isWidest_of_getElem? rows w' 1 (·.status) fun _ => rfl
    rw [hwidths]
    rfl
  · apply @isWidest_of_getElem? rows w'' 2 (·.keys) fun _ => rfl
    rw [hwidths]
    rfl

theorem ofList_rowText (cells : Cells) :
  String.ofList (Table.rowText [w, w', w''] cells.texts) = cells.line w w' w''
  := by
  rw [← String.toList_inj]
  simp [Table.rowText, Cells.texts, Table.cellText, Cells.line, padded]

theorem ofList_ruleText :
  String.ofList (Table.ruleText [w, w', w'']) = rule w w' w''
  := by
  rw [← String.toList_inj]
  simp [Table.ruleText, rule, dashes]

theorem prints_tableOf (h : (tableOf rows).widths = [w, w', w'']) :
  ((tableOf rows).print Printing.line).Prints
    (header.line w w' w'' ++ "\n" ++ rule w w' w'' ++ "\n" ++
      String.join (rows.map fun row => row.line w w' w'' ++ "\n") ++ "\n") (.ok ())
  := by
  have hrows : (rows.map Cells.texts).map
        ((fun line => String.ofList line ++ "\n") ∘ Table.rowText [w, w', w''])
      = rows.map fun row => row.line w w' w'' ++ "\n" := by
    rw [List.map_map]
    apply List.map_congr_left
    intro row _
    rw [Function.comp_apply, Function.comp_apply, ofList_rowText]
  have hlines : String.join ((tableOf rows).lines.map fun line => String.ofList line ++ "\n")
      = header.line w w' w'' ++ "\n" ++ rule w w' w'' ++ "\n" ++
        String.join (rows.map fun row => row.line w w' w'' ++ "\n") := by
    rw [Table.lines, h, List.map_cons, List.map_cons, List.map_map, String.join_cons,
      String.join_cons, tableOf, hrows, ofList_rowText, ofList_ruleText]
    simp only [String.append_assoc]
  rw [← hlines]
  apply Table.prints_print

/-! ### Reports -/

/-- The row of a service is read without anything being shown. -/
theorem prints_row (h : c.load t = .ok s) (service : Service) :
  ((Reporter.ofClient c t).row service).Prints "" (.ok (rowOf s service).texts)
  := by
  have hcheck : ((Reporter.ofClient c t).check service).Prints "" (.ok (s.missing service)) := by
    rw [← Client.check_of_load_eq_ok h]
    apply Printing.prints_ofExcept
  apply hcheck.bind_of_silent
  rw [Cells.texts, status_rowOf]
  apply Printing.prints_pure

/-- A client that can read its file reports on the services. -/
theorem prints_report_of_load_eq_ok (h : c.load t = .ok s)
    (hrows : rows = Service.all.map (rowOf s)) (hwidths : (tableOf rows).widths = [w, w', w'']) :
  (Reporter.ofClient c t).report.Prints ("\n  " ++ c.source ++ "\n\n" ++
    header.line w w' w'' ++ "\n" ++ rule w w' w'' ++ "\n" ++
    String.join (rows.map fun row => row.line w w' w'' ++ "\n") ++ "\n" ++
    "  " ++ toString s.configured.length ++ "/" ++ toString rows.length ++
    " services configured\n\n") (.ok 0)
  := by
  have htexts : (Service.all.mapM (Reporter.ofClient c t).row).Prints ""
      (.ok (rows.map Cells.texts)) := by
    rw [hrows, List.map_map]
    apply Printing.prints_mapM fun service _ => prints_row h service
  have hconfigured : (Reporter.ofClient c t).configured.Prints "" (.ok s.configured) := by
    rw [← Client.configured_of_load_eq_ok h]
    apply Printing.prints_ofExcept
  have hprints : (Reporter.ofClient c t).report.Prints
      ("\n  " ++ c.source ++ "\n" ++ "\n" ++
        (header.line w w' w'' ++ "\n" ++ rule w w' w'' ++ "\n" ++
          String.join (rows.map fun row => row.line w w' w'' ++ "\n") ++ "\n" ++
        ("  " ++ toString s.configured.length ++ "/" ++ toString Service.all.length ++
          " services configured\n" ++ "\n" ++ ""))) (.ok 0) := by
    apply (Printing.prints_line _).bind
    apply htexts.bind_of_silent
    apply (prints_tableOf hwidths).bind
    apply hconfigured.bind_of_silent
    apply (Printing.prints_line _).bind
    apply Printing.prints_pure
  have hlength : rows.length = Service.all.length := by rw [hrows, List.length_map]
  have hfeeds : "\n\n" = "\n" ++ "\n" := rfl
  have hend : " services configured\n\n" = " services configured\n" ++ "\n" ++ "" := rfl
  rw [hlength, hfeeds, hend]
  simpa only [String.append_assoc] using hprints

/-- A client that cannot read its file shows the path and stops. -/
theorem prints_report_of_load_eq_error {e : Error} (h : c.load t = .error e) :
  (Reporter.ofClient c t).report.Prints ("\n  " ++ c.source ++ "\n\n") (.error e)
  := by
  have hcheck : ((Reporter.ofClient c t).check .openAI).Prints "" (.error e) := by
    rw [← Client.check_of_load_eq_error h .openAI]
    apply Printing.prints_ofExcept
  have hrows : (Service.all.mapM (Reporter.ofClient c t).row).Prints "" (.error e) := by
    apply Printing.prints_mapM_error
    apply hcheck.bind_error
  have hprints : (Reporter.ofClient c t).report.Prints ("\n  " ++ c.source ++ "\n" ++ "\n" ++ "")
      (.error e) := by
    apply (Printing.prints_line _).bind
    apply hrows.bind_error
  have hfeeds : "\n\n" = "\n" ++ "\n" ++ "" := rfl
  rw [hfeeds]
  simpa only [String.append_assoc] using hprints

/-! ### Runs -/

variable {here : Path} {args : List String} {text : String}

theorem run_of_prints_ok {status : UInt32}
    (h : (Reporter.ofClient (client here args) t).report.Prints text (.ok status)) :
  run here t args = ⟨status, text, ""⟩
  := by
  rw [run, h.run_eq]
  rfl

theorem run_of_prints_error {e : Error}
    (h : (Reporter.ofClient (client here args) t).report.Prints text (.error e)) :
  run here t args = ⟨1, text, "Error: " ++ e.message ++ "\n"⟩
  := by
  rw [run, h.run_eq]
  rfl

theorem message_unreadable (path : String) (fault : Fault) :
  "Error: " ++ (Error.unreadable path (fault.detail path)).message ++ "\n"
    = "Error: Configuration source unreadable: " ++ path ++ " (" ++ reason path fault ++ ")\n"
  := by
  have hreason : fault.detail path = reason path fault := by cases fault <;> rfl
  have hmessage : (Error.unreadable path (fault.detail path)).message
      = "Configuration source unreadable: " ++ path ++ " (" ++ fault.detail path ++ ")" := rfl
  rw [hmessage, hreason, ← String.toList_inj]
  simp

/-- What is said of the command is what it leaves behind. -/
theorem Leaves.eq_run {o : Outcome} (h : Leaves (client here args) t o) :
  o = run here t args
  := by
  cases h with
  | unreadable hread =>
    have hload := Client.load_of_read_eq_error hread
    rw [run_of_prints_error (prints_report_of_load_eq_error hload), message_unreadable]
  | @readable octets rows services w w' w'' hread hrows hservices hcount hw hw' hw'' =>
    have hload := Client.load_of_read_eq_ok hread
    have hrows := (forall₂_rows_iff hload).mp hrows
    rw [Client.configured_of_load_eq_ok hload] at hservices
    obtain rfl := Except.ok.inj hservices
    obtain ⟨v, v', v'', hwidths, hv, hv', hv''⟩ := exists_widths_eq rows
    obtain rfl := hw.unique hv
    obtain rfl := hw'.unique hv'
    obtain rfl := hw''.unique hv''
    rw [run_of_prints_ok (prints_report_of_load_eq_ok hload hrows hwidths)]

theorem leaves_run (here : Path) (t : FileTree) (args : List String) :
  Leaves (client here args) t (run here t args)
  := by
  cases hread : t.read .root (client here args).source.toList with
  | error fault =>
    have hload := Client.load_of_read_eq_error hread
    rw [run_of_prints_error (prints_report_of_load_eq_error hload), message_unreadable]
    apply Leaves.unreadable hread
  | ok octets =>
    have hload := Client.load_of_read_eq_ok hread
    obtain ⟨w, w', w'', hwidths, hw, hw', hw''⟩ := exists_widths_eq
      (Service.all.map (rowOf (.ofText (client here args).source
        (String.ofList (Text.Utf8.decode octets)))))
    rw [run_of_prints_ok (prints_report_of_load_eq_ok hload rfl hwidths)]
    apply Leaves.readable hread ((forall₂_rows_iff hload).mpr rfl)
      (Client.configured_of_load_eq_ok hload) (length_filter_status _) hw hw' hw''

theorem Leaves.exit_eq_zero {o : Outcome} {octets : List UInt8} (h : Leaves c t o)
    (hread : t.read .root c.source.toList = .ok octets) :
  o.exit = 0
  := by
  cases h with
  | unreadable herror =>
    rw [hread] at herror
    cases herror
  | readable => rfl

/-- For every list of arguments and every tree of files, the command that reports on the file the
arguments name leaves behind exactly what is said of it: the path and the error, or the report.  It
succeeds if the tree stores the file, whatever its octets are. -/
theorem leaves_iff_eq_run (here : Path) (t : FileTree) (args : List String) :
  (∀ o, Leaves (.new here ⟨none, args.head?⟩) t o ↔ o = run here t args) ∧
  ∀ octets, here.IsPlain → t.Stores (here.resolve ⟨none, args.head?⟩) octets →
    (run here t args).exit = 0
  := by
  have hclient : .new here ⟨none, args.head?⟩ = client here args := rfl
  rw [hclient]
  constructor
  · intro o
    constructor
    · apply Leaves.eq_run
    · intro ho
      rw [ho]
      apply leaves_run
  · intro octets hhere h
    apply (leaves_run here t args).exit_eq_zero
    have hsource : (client here args).source.toList = (here.resolve ⟨none, args.head?⟩).text :=
      String.toList_ofList
    rw [hsource]
    apply h.read_text (hhere.resolve _)

/-- The command succeeds on a file of octets that are no text. -/
theorem exit_run_of_octets :
  ∃ t, (FileTree.ofDirectory ⟨["work".toList]⟩).write? ⟨["work".toList, ".env".toList]⟩ [0xFF]
      = some t ∧
    (run ⟨["work".toList]⟩ t []).exit = 0
  := by
  obtain ⟨t, ht⟩ : ∃ t, (FileTree.ofDirectory ⟨["work".toList]⟩).write?
      ⟨["work".toList, ".env".toList]⟩ [0xFF] = some t := ⟨_, rfl⟩
  have hplain : (⟨["work".toList]⟩ : Path).IsPlain := by
    rw [Path.IsPlain]
    decide
  use t, ht
  apply (leaves_iff_eq_run ⟨["work".toList]⟩ t []).2 [0xFF] hplain
  apply FileTree.stores_of_write? ht

end Report

end Credentials
