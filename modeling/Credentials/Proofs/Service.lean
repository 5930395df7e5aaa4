import Mathlib.Logic.Basic
import Credentials.Proofs.Reading

/-!
# Missing keys

The keys that are missing for a service are the keys it requires for which the settings have no
text, in the order of the catalog and each of them once.  A service is configured if no key is
missing for it (`mem_configured_iff`).  Which keys are missing, and hence which services are
configured, depends on the settings only through the required keys that they have
(`missing_eq_missing_iff`).
-/

namespace Credentials

namespace Service

/-- The identifiers of the services, in the order of the catalog. -/
def identifiers : List String :=
  ["openai", "azureOpenAI", "postgres", "pinecone", "astraDB", "weaviate", "bingSearch",
    "mongoDBAtlas", "googlePalm", "azureCosmosDB", "redis", "azureAISearch", "azureKeyVault",
    "bookingSample"]

/-- The labels of the services, in the same order. -/
def labels : List String :=
  ["OpenAI", "Azure OpenAI", "Postgres", "Pinecone", "AstraDB", "Weaviate", "Bing Search",
    "MongoDB Atlas", "Google PaLM", "Azure Cosmos DB", "Redis", "Azure AI Search",
    "Azure Key Vault", "Booking Sample"]

theorem map_id_all :
  all.map id = identifiers
  := rfl

theorem zip_identifiers_labels :
  identifiers.zip labels = all.map fun service => (service.id, service.label)
  := rfl

theorem nodup_required (service : Service) :
  service.required.Nodup
  := by
  cases service <;> decide

theorem ne_parentName_of_mem_required {service : Service} {key : String}
    (h : key ∈ service.required) :
  key ≠ Member.parentName
  := by
  rintro rfl
  cases service <;> revert h <;> decide

end Service

namespace Settings

variable {s s' : Settings} {service : Service} {key : String}

theorem mem_missing_iff :
  key ∈ s.missing service ↔ key ∈ service.required ∧ ¬ s.Has key
  := by
  rw [missing, List.mem_filter, isNone_text?_iff]

theorem missing_eq_nil_iff :
  s.missing service = [] ↔ ∀ key ∈ service.required, s.Has key
  := by
  simp only [List.eq_nil_iff_forall_not_mem, mem_missing_iff, not_and, Classical.not_not]

/-- Missing keys come in the order of the catalog. -/
theorem missing_sublist (s : Settings) (service : Service) :
  (s.missing service).Sublist service.required
  := List.filter_sublist

theorem nodup_missing (s : Settings) (service : Service) :
  (s.missing service).Nodup
  := service.nodup_required.sublist (s.missing_sublist service)

/-- The same keys are missing for a service exactly when the same required keys are there. -/
theorem missing_eq_missing_iff :
  s.missing service = s'.missing service ↔ ∀ key ∈ service.required, (s.Has key ↔ s'.Has key)
  := by
  constructor
  · intro h key hkey
    rw [← not_iff_not]
    have hmem : key ∈ s.missing service ↔ key ∈ s'.missing service := by rw [h]
    simpa [mem_missing_iff, hkey] using hmem
  · intro h
    apply List.filter_congr
    intro key hkey
    rw [Bool.eq_iff_iff, isNone_text?_iff, isNone_text?_iff, h key hkey]

theorem mem_configured_iff :
  service ∈ s.configured ↔ ∀ key ∈ service.required, s.Has key
  := by
  simp [configured, service.mem_all, missing_eq_nil_iff]

/-- The services that are configured come in the order of the catalog. -/
theorem map_id_configured_sublist (s : Settings) :
  (s.configured.map Service.id).Sublist Service.identifiers
  := by
  rw [← Service.map_id_all]
  apply List.Sublist.map
  apply List.filter_sublist

/-- The services that are configured are told by the keys that are missing. -/
theorem configured_congr (h : ∀ service, s.missing service = s'.missing service) :
  s.configured = s'.configured
  := by
  simp only [configured, h]

end Settings

end Credentials
