import Mathlib.Tactic.Use
import Credentials.Reading

/-!
# What readings require

A reading requires a list of keys of a service if it gives its result for settings that have a
text under each of these keys, and fails for the first key that is missing otherwise (`Requires`).
Readings that follow each other require their keys one after the other (`Requires.bind`), and every
reading of credentials is made in this way: its list tells the order in which it looks up the keys
it requires, and its result tells from which keys the parts of the credentials come.
-/

namespace Credentials

namespace Settings

/-- The settings have a text under the key, and it is not empty. -/
def Has (s : Settings) (key : String) : Prop :=
  ∃ value, s.values[key]? = some value ∧ value ≠ ""

/-- The text under the key, which is empty if the settings have none. -/
def textOf (s : Settings) (key : String) : String :=
  (s.text? key).getD ""

/-- The first of the keys that is missing. -/
def firstMissing? (s : Settings) (keys : List String) : Option String :=
  keys.find? fun key => (s.text? key).isNone

variable {s : Settings} {key : String}

theorem text?_eq_some_iff {value : String} :
  s.text? key = some value ↔ s.values[key]? = some value ∧ value ≠ ""
  := by
  simp [text?, Option.filter_eq_some_iff]

theorem isNone_text?_iff :
  (s.text? key).isNone = true ↔ ¬ s.Has key
  := by
  simp [Has, ← text?_eq_some_iff, Option.eq_none_iff_forall_ne_some]

/-- Settings do not have a key if it is absent or its text is empty. -/
theorem not_has_iff :
  ¬ s.Has key ↔ s.values[key]? = none ∨ s.values[key]? = some ""
  := by
  rw [Has]
  cases s.values[key]? <;> simp

/-- Settings with a single key whose text is not empty have that key alone. -/
theorem has_singleton_iff {path k v : String} (hv : v ≠ "") :
  Has ⟨path, (∅ : Values).insert k v⟩ key ↔ k = key
  := by
  simp [Has, Std.ExtTreeMap.getElem?_insert, and_assoc, hv]

theorem Has.text?_eq (h : s.Has key) :
  s.text? key = some (s.textOf key)
  := by
  obtain ⟨value, hvalue⟩ := h
  rw [textOf, text?_eq_some_iff.mpr hvalue, Option.getD_some]

/-- The text under a key that the settings have is the value of that key. -/
theorem Has.getElem?_eq (h : s.Has key) :
  s.values[key]? = some (s.textOf key) ∧ s.textOf key ≠ ""
  := text?_eq_some_iff.mp h.text?_eq

theorem firstMissing?_append (s : Settings) (keys keys' : List String) :
  s.firstMissing? (keys ++ keys') = (s.firstMissing? keys).or (s.firstMissing? keys')
  := List.find?_append

theorem firstMissing?_eq_none_iff {keys : List String} :
  s.firstMissing? keys = none ↔ ∀ key ∈ keys, s.Has key
  := by
  simp only [firstMissing?, List.find?_eq_none, isNone_text?_iff, Classical.not_not]

theorem firstMissing?_eq_some_iff {keys : List String} :
  s.firstMissing? keys = some key ↔ ∃ before after, keys = before ++ key :: after ∧
    (∀ k ∈ before, s.Has k) ∧ ¬ s.Has key
  := by
  have hnot : ∀ k, (! (s.text? k).isNone) = true ↔ s.Has k := by
    intro k
    rw [Bool.not_eq_true', ← Bool.not_eq_true, isNone_text?_iff, Classical.not_not]
  simp only [firstMissing?, List.find?_eq_some_iff_append, isNone_text?_iff, hnot]
  constructor
  · rintro ⟨hkey, before, after, hkeys, hbefore⟩
    use before, after, hkeys, hbefore
  · rintro ⟨before, after, hkeys, hbefore, hkey⟩
    use hkey, before, after, hkeys

end Settings

namespace Reading

variable {α β : Type} {service : Service} {keys keys' : List String}

/-- The reading gives its result for settings that have the keys, and fails for the first key that
is missing otherwise. -/
def Requires (r : Reading α) (service : Service) (keys : List String) (result : Settings → α) :
    Prop :=
  ∀ s, r s = match s.firstMissing? keys with
    | some key => .error (.missing key service.label s.path)
    | none => .ok (result s)

/-! ### Rules -/

theorem Requires.pure (a : α) :
  Requires (pure a) service [] fun _ => a
  := by
  intro s
  rfl

/-- Readings that follow each other require their keys one after the other. -/
theorem Requires.bind {r : Reading α} {f : α → Reading β} {result : Settings → α}
    {result' : α → Settings → β} (h : r.Requires service keys result)
    (h' : ∀ a, (f a).Requires service keys' (result' a)) :
  (r >>= f).Requires service (keys ++ keys') fun s => result' (result s) s
  := by
  intro s
  have hbind : (r >>= f) s = (r s >>= fun a => f a s) := rfl
  rw [hbind, h s, Settings.firstMissing?_append]
  cases s.firstMissing? keys with
  | some key => rfl
  | none => apply h' (result s) s

theorem Requires.map {r : Reading α} {result : Settings → α} (g : α → β)
    (h : r.Requires service keys result) :
  (g <$> r).Requires service keys fun s => g (result s)
  := by
  intro s
  have hmap : (g <$> r) s = g <$> r s := rfl
  rw [hmap, h s]
  cases s.firstMissing? keys with
  | some key => rfl
  | none => rfl

theorem requires_text? (service : Service) (key : String) :
  (text? key).Requires service [] fun s => s.text? key
  := by
  intro s
  rfl

theorem requires_requireText (service : Service) (key : String) :
  (service.requireText key).Requires service [key] fun s => s.textOf key
  := by
  intro s
  rw [Service.requireText, Settings.requireText, Settings.firstMissing?, List.find?_singleton]
  cases htext : s.text? key with
  | some value => simp [Settings.textOf, htext]
  | none => rfl

theorem requires_requireIf (service : Service) (flag : Bool) (key : String) :
  (service.requireIf flag key).Requires service (if flag then [key] else [])
    fun s => if flag then some (s.textOf key) else none
  := by
  cases flag with
  | true => apply (requires_requireText service key).map
  | false => apply Requires.pure

/-! ### Results and errors -/

variable {r : Reading α} {result : Settings → α}

/-- A reading gives a result exactly when the settings have all keys it requires. -/
theorem Requires.eq_ok_iff (h : r.Requires service keys result) (s : Settings) (a : α) :
  r s = .ok a ↔ (∀ key ∈ keys, s.Has key) ∧ a = result s
  := by
  rw [h s, ← Settings.firstMissing?_eq_none_iff]
  cases s.firstMissing? keys with
  | some key => simp
  | none => simp [eq_comm]

/-- A reading fails exactly for the first key it requires that the settings do not have. -/
theorem Requires.eq_error_iff (h : r.Requires service keys result) (s : Settings) (e : Error) :
  r s = .error e ↔ ∃ before key after, keys = before ++ key :: after ∧
    (∀ k ∈ before, s.Has k) ∧ ¬ s.Has key ∧ e = .missing key service.label s.path
  := by
  rw [h s]
  constructor
  · intro he
    cases hmissing : s.firstMissing? keys with
    | some key =>
      rw [hmissing] at he
      obtain ⟨before, after, hkeys, hbefore, hkey⟩ := Settings.firstMissing?_eq_some_iff.mp hmissing
      use before, key, after, hkeys, hbefore, hkey
      cases he
      rfl
    | none =>
      rw [hmissing] at he
      cases he
  · rintro ⟨before, key, after, hkeys, hbefore, hkey, rfl⟩
    rw [Settings.firstMissing?_eq_some_iff.mpr ⟨before, after, hkeys, hbefore, hkey⟩]

end Reading

/-! ### Readings of credentials -/

open Reading

theorem OpenAI.requires_read :
  OpenAI.read.Requires .openAI ["OPENAI_API_KEY"]
    fun s => ⟨s.textOf "OPENAI_API_KEY", s.text? "OPENAI_ORG_ID"⟩
  := by
  apply (requires_requireText _ _).bind fun apiKey =>
    (requires_text? _ _).bind fun organization => Requires.pure (OpenAI.mk apiKey organization)

theorem AzureOpenAI.requires_readDeployment (required : Bool) :
  (readDeployment required).Requires .azureOpenAI
    (if required then ["AZURE_OPENAI_DEPLOYMENT_NAME"] else [])
    fun s => s.textOf "AZURE_OPENAI_DEPLOYMENT_NAME"
  := by
  cases required with
  | true => apply requires_requireText
  | false => apply (requires_text? _ _).bind fun deployment => Requires.pure (deployment.getD "")

/-- The deployment and the version come before the key and the endpoint. -/
theorem AzureOpenAI.requires_read (options : AzureOpenAIOptions) :
  (AzureOpenAI.read options).Requires .azureOpenAI
    ((if options.includeDeployment.getD true then ["AZURE_OPENAI_DEPLOYMENT_NAME"] else []) ++
      ((if options.includeApiVersion.getD false then ["AZURE_OPENAI_API_VERSION"] else []) ++
        ["AZURE_OPENAI_API_KEY", "AZURE_OPENAI_ENDPOINT"]))
    fun s => ⟨s.textOf "AZURE_OPENAI_DEPLOYMENT_NAME", s.textOf "AZURE_OPENAI_API_KEY",
      s.textOf "AZURE_OPENAI_ENDPOINT",
      if options.includeApiVersion.getD false then some (s.textOf "AZURE_OPENAI_API_VERSION")
      else none⟩
  := by
  apply (requires_readDeployment (options.includeDeployment.getD true)).bind fun deployment =>
    (requires_requireIf _ _ _).bind fun version =>
      (requires_requireText _ "AZURE_OPENAI_API_KEY").bind fun apiKey =>
        (requires_requireText _ "AZURE_OPENAI_ENDPOINT").bind fun endpoint =>
          Requires.pure (AzureOpenAI.mk deployment apiKey endpoint version)

/-- The record requires what the credentials it is made of require. -/
theorem AzureOpenAIRecord.requires_read (options : AzureOpenAIOptions) :
  (AzureOpenAIRecord.read options).Requires .azureOpenAI
    ((if options.includeDeployment.getD true then ["AZURE_OPENAI_DEPLOYMENT_NAME"] else []) ++
      ((if options.includeApiVersion.getD false then ["AZURE_OPENAI_API_VERSION"] else []) ++
        ["AZURE_OPENAI_API_KEY", "AZURE_OPENAI_ENDPOINT"]))
    fun s => ⟨s.textOf "AZURE_OPENAI_API_KEY", s.textOf "AZURE_OPENAI_ENDPOINT",
      if options.includeDeployment.getD true then some (s.textOf "AZURE_OPENAI_DEPLOYMENT_NAME")
      else none,
      if options.includeApiVersion.getD false then some (s.textOf "AZURE_OPENAI_API_VERSION")
      else none⟩
  := by
  apply (AzureOpenAI.requires_read options).map fun c => AzureOpenAIRecord.mk c.apiKey c.endpoint
    (if options.includeDeployment.getD true then some c.deployment else none) c.version

theorem Pinecone.requires_read :
  Pinecone.read.Requires .pinecone ["PINECONE_API_KEY", "PINECONE_ENVIRONMENT"]
    fun s => ⟨s.textOf "PINECONE_API_KEY", s.textOf "PINECONE_ENVIRONMENT"⟩
  := by
  apply (requires_requireText _ _).bind fun apiKey =>
    (requires_requireText _ "PINECONE_ENVIRONMENT").bind fun environment =>
      Requires.pure (Pinecone.mk apiKey environment)

theorem AstraDB.requires_read :
  AstraDB.read.Requires .astraDB
    ["ASTRADB_APP_TOKEN", "ASTRADB_ID", "ASTRADB_REGION", "ASTRADB_KEYSPACE"]
    fun s => ⟨s.textOf "ASTRADB_APP_TOKEN", s.textOf "ASTRADB_ID", s.textOf "ASTRADB_REGION",
      s.textOf "ASTRADB_KEYSPACE"⟩
  := by
  apply (requires_requireText _ _).bind fun token =>
    (requires_requireText _ "ASTRADB_ID").bind fun databaseId =>
      (requires_requireText _ "ASTRADB_REGION").bind fun region =>
        (requires_requireText _ "ASTRADB_KEYSPACE").bind fun keyspace =>
          Requires.pure (AstraDB.mk token databaseId region keyspace)

theorem Weaviate.requires_read :
  Weaviate.read.Requires .weaviate ["WEAVIATE_URL"]
    fun s => ⟨s.text? "WEAVIATE_API_KEY", s.textOf "WEAVIATE_URL"⟩
  := by
  apply (requires_requireText _ _).bind fun url =>
    (requires_text? _ _).bind fun apiKey => Requires.pure (Weaviate.mk apiKey url)

theorem AzureCosmosDB.requires_read :
  AzureCosmosDB.read.Requires .azureCosmosDB ["AZCOSMOS_CONNSTR"]
    fun s => ⟨s.text? "AZCOSMOS_API", s.textOf "AZCOSMOS_CONNSTR"⟩
  := by
  apply (requires_requireText _ _).bind fun connection =>
    (requires_text? _ _).bind fun api => Requires.pure (AzureCosmosDB.mk api connection)

/-- The URL comes before the key. -/
theorem AzureAISearch.requires_read (options : AzureAISearchOptions) :
  (AzureAISearch.read options).Requires .azureAISearch
    (["AZURE_AISEARCH_URL", "AZURE_AISEARCH_API_KEY"] ++
      (if options.includeIndexName.getD false then ["AZURE_AISEARCH_INDEX_NAME"] else []))
    fun s => ⟨s.textOf "AZURE_AISEARCH_API_KEY", s.textOf "AZURE_AISEARCH_URL",
      if options.includeIndexName.getD false then some (s.textOf "AZURE_AISEARCH_INDEX_NAME")
      else none⟩
  := by
  have h := (requires_requireText .azureAISearch "AZURE_AISEARCH_URL").bind fun url =>
    (requires_requireText _ "AZURE_AISEARCH_API_KEY").bind fun apiKey =>
      (requires_requireIf _ (options.includeIndexName.getD false) "AZURE_AISEARCH_INDEX_NAME").bind
        fun index => Requires.pure (AzureAISearch.mk apiKey url index)
  rw [List.append_nil] at h
  apply h

theorem AzureKeyVault.requires_read (options : AzureKeyVaultOptions) :
  (AzureKeyVault.read options).Requires .azureKeyVault
    ("AZURE_KEY_VAULT_ENDPOINT" ::
      ((if options.includeClientId.getD true then ["AZURE_KEY_VAULT_CLIENT_ID"] else []) ++
        (if options.includeClientSecret.getD true then ["AZURE_KEY_VAULT_CLIENT_SECRET"] else [])))
    fun s => ⟨s.textOf "AZURE_KEY_VAULT_ENDPOINT",
      if options.includeClientId.getD true then some (s.textOf "AZURE_KEY_VAULT_CLIENT_ID")
      else none,
      if options.includeClientSecret.getD true then some (s.textOf "AZURE_KEY_VAULT_CLIENT_SECRET")
      else none⟩
  := by
  have h := (requires_requireText .azureKeyVault "AZURE_KEY_VAULT_ENDPOINT").bind fun endpoint =>
    (requires_requireIf _ (options.includeClientId.getD true) "AZURE_KEY_VAULT_CLIENT_ID").bind
      fun clientId => (requires_requireIf _ (options.includeClientSecret.getD true)
        "AZURE_KEY_VAULT_CLIENT_SECRET").bind fun clientSecret =>
          Requires.pure (AzureKeyVault.mk endpoint clientId clientSecret)
  rw [List.append_nil] at h
  apply h

theorem BookingSample.requires_read :
  BookingSample.read.Requires .bookingSample
    ["BOOKING_SAMPLE_CLIENT_ID", "BOOKING_SAMPLE_TENANT_ID", "BOOKING_SAMPLE_CLIENT_SECRET"]
    fun s => ⟨s.textOf "BOOKING_SAMPLE_CLIENT_ID", s.textOf "BOOKING_SAMPLE_TENANT_ID",
      s.textOf "BOOKING_SAMPLE_CLIENT_SECRET"⟩
  := by
  apply (requires_requireText _ _).bind fun clientId =>
    (requires_requireText _ "BOOKING_SAMPLE_TENANT_ID").bind fun tenantId =>
      (requires_requireText _ "BOOKING_SAMPLE_CLIENT_SECRET").bind fun clientSecret =>
        Requires.pure (BookingSample.mk clientId tenantId clientSecret)

end Credentials
