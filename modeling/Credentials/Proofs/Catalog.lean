import Mathlib.Tactic.Set
import Credentials.Proofs.Query
import Credentials.Proofs.Service

/-!
# The catalog and the queries

The keys that the catalog calls required are those that the least query of the service requires
(`required_minimal_perm`), and every other query about the service requires these keys and at most
the ones that the catalog calls optional (`required_subset`, `subset_catalog`).  Hence the keys that
are missing according to the catalog tell whether the least query can be answered
(`missing_eq_nil_iff_exists_run_minimal`), and whether any other query may be
(`catalog_agrees_with_queries`).
-/

namespace Credentials

namespace Query

/-- The query for the form in which a service is used that asks for no more than it has to. -/
def minimal : Service → Query
  | .openAI => openAI
  | .azureOpenAI => azureOpenAI ⟨some false, some false⟩
  | .postgres => postgres
  | .pinecone => pinecone
  | .astraDB => astraDB
  | .weaviate => weaviate
  | .bingSearch => bingSearch
  | .mongoDBAtlas => mongoDBAtlas
  | .googlePalm => googlePalm
  | .azureCosmosDB => azureCosmosDB
  | .redis => redis
  | .azureAISearch => azureAISearch ⟨some false⟩
  | .azureKeyVault => azureKeyVault ⟨some false, some false⟩
  | .bookingSample => bookingSample

@[simp]
theorem service_minimal (service : Service) :
  (minimal service).service = service
  := by
  cases service <;> rfl

/-! ### Required keys -/

/-- The keys that the catalog calls required are those of the least query, though not always in the
order in which they are looked up. -/
theorem required_minimal_perm (service : Service) :
  (minimal service).required.Perm service.required
  := by
  cases service <;> decide

/-- Every query requires the keys that the catalog calls required. -/
theorem required_subset (q : Query) :
  q.service.required ⊆ q.required
  := by
  have h : ∀ q ∈ all, q.service.required ⊆ q.required := by decide
  apply h q q.mem_all

/-- Every key that a query requires is in the catalog. -/
theorem subset_catalog (q : Query) :
  q.required ⊆ q.service.required ++ q.service.optional
  := by
  have h : ∀ q ∈ all, q.required ⊆ q.service.required ++ q.service.optional := by decide
  apply h q q.mem_all

/-! ### Answers -/

variable {q : Query} {s : Settings}

/-- A query is answered exactly when the settings have all keys it requires. -/
theorem exists_run_eq_ok_iff :
  (∃ b, q.run s = .ok b) ↔ ∀ key ∈ q.required, s.Has key
  := by
  simp only [run, q.requires_read.eq_ok_iff s, exists_and_left, exists_eq, and_true]

/-- A query that is not answered fails for a key it requires that is missing. -/
theorem exists_missing_of_run_eq_error {e : Error} (h : q.run s = .error e) :
  ∃ key ∈ q.required, ¬ s.Has key ∧ e = .missing key q.service.label s.path
  := by
  obtain ⟨before, key, after, hrequired, -, hkey, he⟩ := (q.requires_read.eq_error_iff s e).mp h
  use key, by simp [hrequired], hkey, he

/-- The keys that are missing for a service are those that its least query requires and that the
settings do not have. -/
theorem mem_missing_iff_minimal {service : Service} {key : String} :
  key ∈ s.missing service ↔ key ∈ (minimal service).required ∧ ¬ s.Has key
  := by
  rw [Settings.mem_missing_iff, (required_minimal_perm service).mem_iff]

theorem missing_eq_nil_iff_exists_run_minimal {service : Service} :
  s.missing service = [] ↔ ∃ b, (minimal service).run s = .ok b
  := by
  rw [Settings.missing_eq_nil_iff, exists_run_eq_ok_iff]
  simp only [(required_minimal_perm service).mem_iff]

/-- No key is missing for a service exactly when the least query about it is answered, and otherwise
that query fails for one of the missing keys.  Whatever is asked about a service, no key is missing
for it if there is an answer, and an error is for a key that the catalog lists for the service and
that the settings do not have.  Hence the services that are configured are those whose least query
is answered, in the order of the catalog. -/
theorem catalog_agrees_with_queries (s : Settings) :
  (∀ service, (s.missing service = [] ↔ ∃ b, (minimal service).run s = .ok b) ∧
    ∀ e, (minimal service).run s = .error e →
      ∃ key ∈ s.missing service, e = .missing key service.label s.path) ∧
  (∀ q : Query, (∀ b, q.run s = .ok b → s.missing q.service = []) ∧
    ∀ e, q.run s = .error e → ∃ key, e = .missing key q.service.label s.path ∧
      (key ∈ q.service.required ∨ key ∈ q.service.optional) ∧ ¬ s.Has key) ∧
  (∀ service, service ∈ s.configured ↔ ∃ b, (minimal service).run s = .ok b) ∧
  (s.configured.map Service.id).Sublist Service.identifiers ∧
  s.configured = Service.all.filter fun service => ((minimal service).run s).isOk
  := by
  refine ⟨fun service => ⟨missing_eq_nil_iff_exists_run_minimal, ?_⟩, fun q => ⟨?_, ?_⟩,
    fun service => ?_, s.map_id_configured_sublist, ?_⟩
  · intro e he
    obtain ⟨key, hkey, hmissing, rfl⟩ := exists_missing_of_run_eq_error he
    use key, mem_missing_iff_minimal.mpr ⟨hkey, hmissing⟩
    rw [service_minimal]
  · intro b hb
    rw [Settings.missing_eq_nil_iff]
    intro key hkey
    apply exists_run_eq_ok_iff.mp ⟨b, hb⟩ key (q.required_subset hkey)
  · intro e he
    obtain ⟨key, hkey, hmissing, rfl⟩ := exists_missing_of_run_eq_error he
    use key, rfl, List.mem_append.mp (q.subset_catalog hkey), hmissing
  · rw [Settings.mem_configured_iff, ← Settings.missing_eq_nil_iff,
      missing_eq_nil_iff_exists_run_minimal]
  · apply List.filter_congr
    intro service _
    rw [Bool.eq_iff_iff, List.isEmpty_iff, missing_eq_nil_iff_exists_run_minimal]
    cases (minimal service).run s with
    | ok b => simp [Except.isOk, Except.toBool]
    | error e => simp [Except.isOk, Except.toBool]

/-- With a key and an endpoint alone, the least query about Azure OpenAI is answered and no key is
missing; the query with a deployment fails for a key that the catalog calls optional. -/
theorem catalog_agrees_without_deployment :
  (∃ b, (minimal .azureOpenAI).run ⟨".env", ((∅ : Values).insert "AZURE_OPENAI_API_KEY" "k").insert
    "AZURE_OPENAI_ENDPOINT" "e"⟩ = .ok b) ∧
  Settings.missing ⟨".env", ((∅ : Values).insert "AZURE_OPENAI_API_KEY" "k").insert
    "AZURE_OPENAI_ENDPOINT" "e"⟩ .azureOpenAI = [] ∧
  (azureOpenAI {}).run ⟨".env", ((∅ : Values).insert "AZURE_OPENAI_API_KEY" "k").insert
    "AZURE_OPENAI_ENDPOINT" "e"⟩
      = .error (.missing "AZURE_OPENAI_DEPLOYMENT_NAME" "Azure OpenAI" ".env") ∧
  "AZURE_OPENAI_DEPLOYMENT_NAME" ∈ Service.azureOpenAI.optional
  := by
  set s : Settings := ⟨".env", ((∅ : Values).insert "AZURE_OPENAI_API_KEY" "k").insert
    "AZURE_OPENAI_ENDPOINT" "e"⟩ with hs
  have hok : ∃ b, (minimal .azureOpenAI).run s = .ok b := by
    rw [exists_run_eq_ok_iff]
    simp [hs, minimal, required, Settings.Has, Std.ExtTreeMap.getElem?_insert]
  have herror : (azureOpenAI {}).run s
      = .error (.missing "AZURE_OPENAI_DEPLOYMENT_NAME" "Azure OpenAI" ".env") := by
    apply ((azureOpenAI {}).requires_read.eq_error_iff s _).mpr
    refine ⟨[], _, ["AZURE_OPENAI_API_KEY", "AZURE_OPENAI_ENDPOINT"], rfl, by simp, ?_, rfl⟩
    simp [hs, Settings.Has]
  obtain ⟨b, hb⟩ := hok
  have hagrees := catalog_agrees_with_queries s
  use ⟨b, hb⟩, (hagrees.2.1 (minimal .azureOpenAI)).1 b hb, herror
  obtain ⟨key, heq, hcatalog, -⟩ := (hagrees.2.1 (azureOpenAI {})).2 _ herror
  obtain rfl := (Error.missing.inj heq).1
  apply hcatalog.resolve_left (by decide)

end Query

end Credentials
