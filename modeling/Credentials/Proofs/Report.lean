import Credentials.Report
import Credentials.Proofs.Client
import Credentials.Proofs.FileTree
import Credentials.Proofs.Service
import Credentials.Proofs.EnvFile.LastAssignment

/-!
# What the report shows

The report on settings depends on them only through the keys that are missing
(`ofClient_eq_of_missing_eq`).  Hence two runs of the command, in trees that differ in one file,
leave the same behind if the same required keys are missing from the two texts of the file: the
exit status, the output and the complaints tell nothing of the texts of keys, nor of other keys
(`runAfter?_eq_of_missing_eq`).
-/

namespace Credentials.Report

/-- What the command leaves behind after the text is written to the file at `p`; none if it cannot
be written. -/
def runAfter? (here : Path) (t : FileTree) (args : List String) (p : Path) (text : String) :
    Option Outcome :=
  (t.write? p (Text.Utf8.encode text.toList)).map (run here · args)

variable {c : Client} {t t' : FileTree} {s s' : Settings}

/-- The report depends on what the client answers about the services alone. -/
theorem ofClient_congr (hcheck : ∀ service, c.check t service = c.check t' service)
    (hconfigured : c.configured t = c.configured t') :
  Reporter.ofClient c t = Reporter.ofClient c t'
  := by
  simp only [Reporter.ofClient, hcheck, hconfigured]

theorem ofClient_congr_load (h : c.load t = c.load t') :
  Reporter.ofClient c t = Reporter.ofClient c t'
  := by
  apply ofClient_congr
  · intro service
    rw [Client.check, Client.check, h]
  · rw [Client.configured, Client.configured, h]

/-- A client of settings from which the same keys are missing has the same report. -/
theorem ofClient_eq_of_missing_eq (h : c.load t = .ok s) (h' : c.load t' = .ok s')
    (hmissing : ∀ service, s.missing service = s'.missing service) :
  Reporter.ofClient c t = Reporter.ofClient c t'
  := by
  apply ofClient_congr
  · intro service
    rw [Client.check_of_load_eq_ok h, Client.check_of_load_eq_ok h', hmissing service]
  · rw [Client.configured_of_load_eq_ok h, Client.configured_of_load_eq_ok h',
      Settings.configured_congr hmissing]

/-- Two texts of a file from which the same keys are missing are reported on alike. -/
theorem run_addFile_eq_of_missing_eq (here : Path) (t : FileTree) (args : List String) (p : Path)
    {text text' : String}
    (h : ∀ service, (Settings.ofText (client here args).source text).missing service
      = (Settings.ofText (client here args).source text').missing service) :
  run here (t.addFile p (Text.Utf8.encode text.toList)) args
    = run here (t.addFile p (Text.Utf8.encode text'.toList)) args
  := by
  have hreporter : Reporter.ofClient (client here args)
        (t.addFile p (Text.Utf8.encode text.toList))
      = Reporter.ofClient (client here args) (t.addFile p (Text.Utf8.encode text'.toList)) := by
    rcases t.settings_addFile p text text' .root (client here args).source with
      hload | ⟨hload, hload'⟩
    · apply ofClient_congr_load hload
    · apply ofClient_eq_of_missing_eq hload hload' h
  rw [run, run, hreporter]

/-- Writing one text or another to a file, the one that the arguments name or any other, the command
leaves the same behind if the same keys are missing from the two texts, that is, if the two texts
give the same required keys a value that is not empty.  Nothing else about the texts is shown: no
values, no optional keys, no keys that are not in the catalog and no comments. -/
theorem runAfter?_eq_of_missing_eq (here : Path) (t : FileTree) (args : List String) (p : Path)
    (text text' : String) :
  ((∀ service, (Settings.ofText (client here args).source text).missing service
      = (Settings.ofText (client here args).source text').missing service) →
    runAfter? here t args p text = runAfter? here t args p text') ∧
  ((∀ service : Service, ∀ key ∈ service.required,
      ((Settings.ofText (client here args).source text).Has key
        ↔ (Settings.ofText (client here args).source text').Has key)) →
    runAfter? here t args p text = runAfter? here t args p text')
  := by
  have hmissing : (∀ service, (Settings.ofText (client here args).source text).missing service
        = (Settings.ofText (client here args).source text').missing service) →
      runAfter? here t args p text = runAfter? here t args p text' := by
    intro h
    rw [runAfter?, runAfter?, FileTree.write?, FileTree.write?]
    split
    · rw [Option.map_some, Option.map_some, run_addFile_eq_of_missing_eq here _ args p h]
    · rfl
  use hmissing
  intro h
  apply hmissing
  intro service
  apply Settings.missing_eq_missing_iff.mpr (h service)

/-- The report does not tell a key of Bing Search from a longer one with a comment after it. -/
theorem runAfter?_bingSearch :
  (∀ service, (Settings.ofText "/work/.env" "BING_API_KEY=k").missing service
    = (Settings.ofText "/work/.env" "BING_API_KEY='a longer key' # b").missing service) ∧
  (runAfter? ⟨["work".toList]⟩ (.ofDirectory ⟨["work".toList]⟩) [] ⟨["work".toList, ".env".toList]⟩
    "BING_API_KEY=k").isSome = true ∧
  runAfter? ⟨["work".toList]⟩ (.ofDirectory ⟨["work".toList]⟩) [] ⟨["work".toList, ".env".toList]⟩
      "BING_API_KEY=k"
    = runAfter? ⟨["work".toList]⟩ (.ofDirectory ⟨["work".toList]⟩) []
      ⟨["work".toList, ".env".toList]⟩ "BING_API_KEY='a longer key' # b"
  := by
  have hsource : (client ⟨["work".toList]⟩ []).source = "/work/.env" := by decide
  have hkey : EnvFile.parse "BING_API_KEY=k" = (∅ : Values).insert "BING_API_KEY" "k" :=
    @EnvFile.parse_ofList_key_append "BING_API_KEY".toList "k".toList "k".toList (by decide)
      (by decide) (by decide) (by decide)
  have hlonger : EnvFile.parse "BING_API_KEY='a longer key' # b"
      = (∅ : Values).insert "BING_API_KEY" "a longer key" :=
    @EnvFile.parse_ofList_key_append "BING_API_KEY".toList "'a longer key' # b".toList
      "a longer key".toList (by decide) (by decide) (by decide) (by decide)
  have hmissing : ∀ service, (Settings.ofText "/work/.env" "BING_API_KEY=k").missing service
      = (Settings.ofText "/work/.env" "BING_API_KEY='a longer key' # b").missing service := by
    intro service
    apply Settings.missing_eq_missing_iff.mpr
    intro key _
    rw [Settings.ofText, Settings.ofText, hkey, hlonger, Settings.has_singleton_iff (by decide),
      Settings.has_singleton_iff (by decide)]
  use hmissing
  constructor
  · decide
  · apply (runAfter?_eq_of_missing_eq _ _ _ _ _ _).1
    rw [hsource]
    apply hmissing

end Credentials.Report
