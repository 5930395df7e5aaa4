import Credentials.Proofs.Dependence
import Credentials.Proofs.EnvFile.Concatenation
import Credentials.Proofs.Session

/-!
# What can be read of a configured service

A service is configured if the settings have the keys that the catalog calls required.  A query may
require other keys of the service besides, and for a configured service these alone decide whether
it is answered (`Query.run_of_mem_configured`).  The method that is called without options requires no
others, except for Azure OpenAI, whose deployment it requires, and Key Vault, whose client it
requires (`Client.call_standard_of_configured`).
-/

namespace Credentials

namespace Settings

variable {s : Settings} {keys : List String}

theorem has_overriddenBy_iff {path key : String} {values later : Values} :
  Has ⟨path, values.overriddenBy later⟩ key ↔
    if key ∈ later then Has ⟨path, later⟩ key else Has ⟨path, values⟩ key
  := by
  rw [Has, Values.getElem?_overriddenBy]
  split
  · rfl
  · rfl

/-- Keys that the settings have may be left out when the first one that is missing is looked for. -/
theorem firstMissing?_filter {p : String → Bool} (h : ∀ key ∈ keys, p key = false → s.Has key) :
  s.firstMissing? (keys.filter p) = s.firstMissing? keys
  := by
  have hkeep : ∀ key ∈ keys, ((s.text? key).isNone && p key) = (s.text? key).isNone := by
    intro key hkey
    cases hp : p key with
    | true => apply Bool.and_true
    | false =>
      have hpresent : ¬ (s.text? key).isNone = true := by
        rw [isNone_text?_iff, not_not]
        apply h key hkey hp
      rw [Bool.and_false, Bool.eq_false_iff.mpr hpresent]
  rw [firstMissing?, firstMissing?, ← List.head?_filter, ← List.head?_filter, List.filter_filter,
    List.filter_congr hkeep]

end Settings

/-- The method for the form in which a service is used, called without options. -/
def Method.standard : Service → Method
  | .openAI => openAI
  | .azureOpenAI => azureOpenAI {}
  | .postgres => postgres
  | .pinecone => pinecone
  | .astraDB => astraDB
  | .weaviate => weaviate
  | .bingSearch => bingSearch
  | .mongoDBAtlas => mongoDBAtlas
  | .googlePalm => googlePalm
  | .azureCosmosDB => azureCosmosDB
  | .redis => redis
  | .azureAISearch => azureAISearch {}
  | .azureKeyVault => azureKeyVault {}
  | .bookingSample => bookingSample

namespace Query

variable {q : Query} {s : Settings}

/-- The keys that a query requires besides those that the catalog calls required. -/
def besides (q : Query) : List String :=
  q.required.filter (· ∉ q.service.required)

/-- The keys that the method without options requires besides those that the catalog calls
required. -/
def assumed : Service → List String
  | .azureOpenAI => ["AZURE_OPENAI_DEPLOYMENT_NAME"]
  | .azureKeyVault => ["AZURE_KEY_VAULT_CLIENT_ID", "AZURE_KEY_VAULT_CLIENT_SECRET"]
  | _ => []

@[simp]
theorem service_standard (service : Service) :
  (Method.standard service).query.service = service
  := by
  cases service <;> rfl

theorem besides_standard (service : Service) :
  (Method.standard service).query.besides = assumed service
  := by
  cases service <;> decide

theorem assumed_eq_nil {service : Service} (h : service ≠ .azureOpenAI)
    (h' : service ≠ .azureKeyVault) :
  assumed service = []
  := by
  cases service with
  | azureOpenAI => contradiction
  | azureKeyVault => contradiction
  | _ => rfl

/-- A query about a configured service is answered unless one of the keys is missing that it
requires besides those of the catalog, and then it fails for the first of them. -/
theorem run_of_mem_configured (h : q.service ∈ s.configured) :
  q.run s = match s.firstMissing? q.besides with
    | some key => .error (.missing key q.service.label s.path)
    | none => .ok (q.layout.fill s)
  := by
  have hbesides : s.firstMissing? q.besides = s.firstMissing? q.required := by
    apply Settings.firstMissing?_filter
    intro key _ hkey
    apply Settings.mem_configured_iff.mp h key
    simpa using hkey
  rw [hbesides]
  apply q.run_eq

end Query

namespace Session

/-- The session of someone in the directory `/work` who has written a text to the file `.env`. -/
def withFile (text : String) : Session :=
  ((start ⟨["work".toList]⟩).step ⟨["work".toList]⟩
    (.write ".env" (Text.Utf8.encode text.toList))).1

theorem load_withFile (text : String) :
  (withFile text).client.load (withFile text).tree = .ok (.ofText "/work/.env" text)
  := by
  have hhome : (⟨["work".toList]⟩ : Path).IsPlain := by
    rw [Path.IsPlain]
    decide
  have hsource : (start ⟨["work".toList]⟩).client.source = "/work/.env" := by decide
  rw [← hsource]
  apply load_of_write hhome
  · rfl
  · rfl

end Session

namespace Client

variable {c : Client} {t : FileTree} {s : Settings}

theorem path_of_load_eq_ok (h : c.load t = .ok s) :
  s.path = c.source
  := by
  rw [load, FileTree.settings] at h
  cases hread : t.read .root c.source.toList with
  | ok octets =>
    rw [hread] at h
    cases h
    rfl
  | error fault =>
    rw [hread] at h
    cases h

/-- For a readable file, the method without options of every service that the client calls
configured, other than Azure OpenAI and Key Vault, gives an answer.  That of Azure OpenAI does so
exactly when the file also has the deployment, and that of Key Vault exactly when it also has both
parts of the client's credentials.  Otherwise the method fails for the first of these keys that is
missing. -/
theorem call_standard_of_configured (h : c.load t = .ok s) :
  c.configured t = .ok s.configured ∧
  ∀ service ∈ s.configured,
    (service ≠ .azureOpenAI → service ≠ .azureKeyVault →
      ∃ b, c.call t (.standard service) = .ok b) ∧
    ((∃ b, c.call t (.standard service) = .ok b) ↔ ∀ key ∈ Query.assumed service, s.Has key) ∧
    ∀ e, c.call t (.standard service) = .error e ↔
      ∃ key, s.firstMissing? (Query.assumed service) = some key ∧
        e = .missing key service.label c.source
  := by
  use configured_of_load_eq_ok h
  intro service hservice
  have hcall : c.call t (.standard service) = match s.firstMissing? (Query.assumed service) with
      | some key => .error (.missing key service.label c.source)
      | none => .ok ((Method.standard service).query.layout.fill s) := by
    rw [← Query.service_standard service] at hservice
    rw [call_of_load_eq_ok h, Query.run_of_mem_configured hservice, Query.besides_standard,
      Query.service_standard, path_of_load_eq_ok h]
  have hok : (∃ b, c.call t (.standard service) = .ok b) ↔
      ∀ key ∈ Query.assumed service, s.Has key := by
    rw [hcall, ← Settings.firstMissing?_eq_none_iff]
    cases s.firstMissing? (Query.assumed service) with
    | some key => simp
    | none => simp
  refine ⟨fun hopenAI hkeyVault => ?_, hok, fun e => ?_⟩
  · rw [hok, Query.assumed_eq_nil hopenAI hkeyVault]
    apply List.forall_mem_nil
  · rw [hcall]
    cases s.firstMissing? (Query.assumed service) with
    | some key => simp [eq_comm]
    | none => simp

/-- The method of Bing Search gives an answer for a file with its key. -/
theorem call_standard_of_configured_bingSearch :
  (Session.withFile "BING_API_KEY=k").client.load (Session.withFile "BING_API_KEY=k").tree
    = .ok (.ofText "/work/.env" "BING_API_KEY=k") ∧
  Service.bingSearch ∈ (Settings.ofText "/work/.env" "BING_API_KEY=k").configured ∧
  ∃ b, (Session.withFile "BING_API_KEY=k").client.call (Session.withFile "BING_API_KEY=k").tree
    (.standard .bingSearch) = .ok b
  := by
  have hload := Session.load_withFile "BING_API_KEY=k"
  have hkey : EnvFile.parse "BING_API_KEY=k" = (∅ : Values).insert "BING_API_KEY" "k" :=
    @EnvFile.parse_key_append "BING_API_KEY" "k" (by decide) (by decide) (by decide) (by decide)
  have hservice :
      Service.bingSearch ∈ (Settings.ofText "/work/.env" "BING_API_KEY=k").configured := by
    rw [Settings.mem_configured_iff, Settings.ofText, hkey]
    simp [Service.required, Service.descriptor, Settings.Has]
  use hload, hservice
  apply ((call_standard_of_configured hload).2 .bingSearch hservice).1
  · decide
  · decide

/-- A file with no other keys than the catalog requires for Azure OpenAI and for Key Vault. -/
def azureFile : String :=
  "AZURE_OPENAI_API_KEY=k" ++ "\n" ++ "AZURE_OPENAI_ENDPOINT=e" ++ "\n" ++
    "AZURE_KEY_VAULT_ENDPOINT=v"

theorem parse_azureFile :
  EnvFile.parse azureFile
    = Values.overriddenBy
      (Values.overriddenBy ((∅ : Values).insert "AZURE_OPENAI_API_KEY" "k")
        ((∅ : Values).insert "AZURE_OPENAI_ENDPOINT" "e"))
      ((∅ : Values).insert "AZURE_KEY_VAULT_ENDPOINT" "v")
  := by
  have hapiKey : EnvFile.parse "AZURE_OPENAI_API_KEY=k" = _ :=
    @EnvFile.parse_key_append "AZURE_OPENAI_API_KEY" "k" (by decide) (by decide) (by decide)
      (by decide)
  have hendpoint : EnvFile.parse "AZURE_OPENAI_ENDPOINT=e" = _ :=
    @EnvFile.parse_key_append "AZURE_OPENAI_ENDPOINT" "e" (by decide) (by decide) (by decide)
      (by decide)
  have hkeyVault : EnvFile.parse "AZURE_KEY_VAULT_ENDPOINT=v" = _ :=
    @EnvFile.parse_key_append "AZURE_KEY_VAULT_ENDPOINT" "v" (by decide) (by decide) (by decide)
      (by decide)
  have hopenAI := EnvFile.parse_append_lineEnd .feed "AZURE_OPENAI_API_KEY=k"
    "AZURE_OPENAI_ENDPOINT=e" fun _ => by decide
  have hfile := EnvFile.parse_append_lineEnd .feed
    ("AZURE_OPENAI_API_KEY=k" ++ "\n" ++ "AZURE_OPENAI_ENDPOINT=e") "AZURE_KEY_VAULT_ENDPOINT=v"
    fun _ => by decide
  rw [hapiKey, hendpoint] at hopenAI
  rw [hkeyVault] at hfile
  apply hfile.trans
  apply congrArg (Values.overriddenBy · _) hopenAI

theorem has_azureFile_iff (path key : String) :
  (Settings.ofText path azureFile).Has key ↔
    key ∈ ["AZURE_OPENAI_API_KEY", "AZURE_OPENAI_ENDPOINT", "AZURE_KEY_VAULT_ENDPOINT"]
  := by
  rw [Settings.ofText, parse_azureFile, Settings.has_overriddenBy_iff,
    Settings.has_overriddenBy_iff]
  have hmember : key ∈ (∅ : Values).insert "AZURE_OPENAI_ENDPOINT" "e" ↔
      "AZURE_OPENAI_ENDPOINT" = key := by
    simp
  have hlast : key ∈ (∅ : Values).insert "AZURE_KEY_VAULT_ENDPOINT" "v" ↔
      "AZURE_KEY_VAULT_ENDPOINT" = key := by
    simp
  rw [Settings.has_singleton_iff (by decide), Settings.has_singleton_iff (by decide),
    Settings.has_singleton_iff (by decide)]
  grind

/-- A file with the keys that the catalog requires for Azure OpenAI and Key Vault configures the
two, and no service else, but neither method gives an answer without options. -/
theorem call_standard_azure_eq_error :
  (Session.withFile azureFile).client.configured (Session.withFile azureFile).tree
    = .ok [.azureOpenAI, .azureKeyVault] ∧
  (Session.withFile azureFile).client.call (Session.withFile azureFile).tree
      (.standard .azureOpenAI)
    = .error (.missing "AZURE_OPENAI_DEPLOYMENT_NAME" "Azure OpenAI" "/work/.env") ∧
  (Session.withFile azureFile).client.call (Session.withFile azureFile).tree
      (.standard .azureKeyVault)
    = .error (.missing "AZURE_KEY_VAULT_CLIENT_ID" "Azure Key Vault" "/work/.env")
  := by
  have hload := Session.load_withFile azureFile
  refine ⟨?_, ?_, ?_⟩
  · rw [configured_of_load_eq_ok hload]
    have hconfigured : (Settings.ofText "/work/.env" azureFile).configured
        = Service.all.filter fun service => ∀ key ∈ service.required, key ∈
          ["AZURE_OPENAI_API_KEY", "AZURE_OPENAI_ENDPOINT", "AZURE_KEY_VAULT_ENDPOINT"] := by
      apply List.filter_congr
      intro service _
      rw [Bool.eq_iff_iff, List.isEmpty_iff, decide_eq_true_iff, Settings.missing_eq_nil_iff]
      simp only [has_azureFile_iff]
    rw [hconfigured]
    rfl
  · rw [call_of_load_eq_ok hload]
    apply ((Query.requires_read _).eq_error_iff _ _).mpr
    refine ⟨[], "AZURE_OPENAI_DEPLOYMENT_NAME", _, rfl, List.forall_mem_nil _, ?_, rfl⟩
    rw [has_azureFile_iff]
    decide
  · rw [call_of_load_eq_ok hload]
    apply ((Query.requires_read _).eq_error_iff _ _).mpr
    refine ⟨["AZURE_KEY_VAULT_ENDPOINT"], "AZURE_KEY_VAULT_CLIENT_ID", _, rfl, ?_, ?_, rfl⟩
    · simp only [has_azureFile_iff]
      decide
    · rw [has_azureFile_iff]
      decide

end Client

end Credentials
