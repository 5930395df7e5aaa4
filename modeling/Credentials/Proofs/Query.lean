import Credentials.Query
import Credentials.Proofs.Reading

/-!
# What queries require and answer

Each query has the list of the keys it requires, in the order in which it looks them up
(`Query.required`), and a layout, which tells the place in the answer of each key
(`Query.layout`).  The order of the list and the places of the layout are independent of each
other, but the keys that stand at required places of the layout are those of the list, each of them
once (`Query.keys_layout_perm`).

A query answers with its layout filled from the settings if they have all required keys, and fails
for the first of them that is missing otherwise (`Query.run_fills_layout_or_first_missing`).
-/

namespace Credentials

/-! ### Layouts -/

/-- What stands at a place of a tuple. -/
inductive Slot where
  /-- The text of a required key. -/
  | required (key : String)
  /-- The text of a key, if the settings have it. -/
  | optional (key : String)
  /-- The text of a key, or the empty text if the settings do not have it. -/
  | orEmpty (key : String)
  /-- Nothing. -/
  | unset
  deriving DecidableEq

/-- A bundle with keys in place of their texts. -/
inductive Layout where
  | text (key : String)
  | tuple (slots : List Slot)
  | record (fields : List (String × Field))
  deriving DecidableEq

namespace Slot

/-- The slot with the text that the settings have for its key. -/
def fill (s : Settings) : Slot → Option String
  | required key => some (s.textOf key)
  | optional key => s.text? key
  | orEmpty key => some (s.textOf key)
  | unset => none

/-- The key of a required slot. -/
def key? : Slot → Option String
  | required key => some key
  | _ => none

end Slot

namespace Field

/-- The field with another text. -/
def map (f : String → String) : Field → Field
  | text value => text (f value)
  | apiKey key => apiKey (f key)

/-- The text of a field. -/
def value : Field → String
  | text value => value
  | apiKey key => key

end Field

namespace Layout

/-- The bundle with the texts that the settings have for the keys of the layout. -/
def fill (s : Settings) : Layout → Bundle
  | text key => .text (s.textOf key)
  | tuple slots => .tuple (slots.map (Slot.fill s))
  | record fields => .record (fields.map fun f => (f.1, f.2.map s.textOf))

/-- The required keys of a layout, in the order of their places. -/
def keys : Layout → List String
  | text key => [key]
  | tuple slots => slots.filterMap Slot.key?
  | record fields => fields.map fun f => f.2.value

end Layout

namespace Query

/-- The keys that a query requires, in the order in which they are looked up. -/
def required : Query → List String
  | openAI => ["OPENAI_API_KEY"]
  | azureOpenAI o | azureOpenAIRecord o =>
    (if o.includeDeployment.getD true then ["AZURE_OPENAI_DEPLOYMENT_NAME"] else []) ++
      ((if o.includeApiVersion.getD false then ["AZURE_OPENAI_API_VERSION"] else []) ++
        ["AZURE_OPENAI_API_KEY", "AZURE_OPENAI_ENDPOINT"])
  | postgres => ["POSTGRES_CONNECTION_STRING"]
  | pinecone => ["PINECONE_API_KEY", "PINECONE_ENVIRONMENT"]
  | astraDB => ["ASTRADB_APP_TOKEN", "ASTRADB_ID", "ASTRADB_REGION", "ASTRADB_KEYSPACE"]
  | weaviate => ["WEAVIATE_URL"]
  | bingSearch => ["BING_API_KEY"]
  | mongoDBAtlas => ["MONGODB_ATLAS_CONNECTION_STRING"]
  | googlePalm => ["GOOGLE_PALM_API_KEY"]
  | azureCosmosDB => ["AZCOSMOS_CONNSTR"]
  | redis => ["REDIS_CONNECTION_STRING"]
  | azureAISearch o =>
    ["AZURE_AISEARCH_URL", "AZURE_AISEARCH_API_KEY"] ++
      (if o.includeIndexName.getD false then ["AZURE_AISEARCH_INDEX_NAME"] else [])
  | azureAISearchRecord =>
    ["AZURE_AISEARCH_URL", "AZURE_AISEARCH_API_KEY", "AZURE_AISEARCH_INDEX_NAME"]
  | azureKeyVault o =>
    "AZURE_KEY_VAULT_ENDPOINT" ::
      ((if o.includeClientId.getD true then ["AZURE_KEY_VAULT_CLIENT_ID"] else []) ++
        (if o.includeClientSecret.getD true then ["AZURE_KEY_VAULT_CLIENT_SECRET"] else []))
  | azureKeyVaultRecord =>
    ["AZURE_KEY_VAULT_ENDPOINT", "AZURE_KEY_VAULT_CLIENT_ID", "AZURE_KEY_VAULT_CLIENT_SECRET"]
  | bookingSample | bookingSampleRecord =>
    ["BOOKING_SAMPLE_CLIENT_ID", "BOOKING_SAMPLE_TENANT_ID", "BOOKING_SAMPLE_CLIENT_SECRET"]

/-- The places of the keys in the answer to a query. -/
def layout : Query → Layout
  | openAI => .tuple [.required "OPENAI_API_KEY", .optional "OPENAI_ORG_ID"]
  | azureOpenAI o =>
    .tuple ([if o.includeDeployment.getD true then .required "AZURE_OPENAI_DEPLOYMENT_NAME"
        else .orEmpty "AZURE_OPENAI_DEPLOYMENT_NAME",
      .required "AZURE_OPENAI_API_KEY", .required "AZURE_OPENAI_ENDPOINT"] ++
      if o.includeApiVersion.getD false then [.required "AZURE_OPENAI_API_VERSION"] else [])
  | azureOpenAIRecord o =>
    .record ([("apiKey", .text "AZURE_OPENAI_API_KEY"),
      ("endpoint", .text "AZURE_OPENAI_ENDPOINT")] ++
      (if o.includeDeployment.getD true then
        [("deploymentName", .text "AZURE_OPENAI_DEPLOYMENT_NAME")] else []) ++
      if o.includeApiVersion.getD false then [("apiVersion", .text "AZURE_OPENAI_API_VERSION")]
      else [])
  | postgres => .text "POSTGRES_CONNECTION_STRING"
  | pinecone => .tuple [.required "PINECONE_API_KEY", .required "PINECONE_ENVIRONMENT"]
  | astraDB =>
    .tuple [.required "ASTRADB_APP_TOKEN", .required "ASTRADB_ID", .required "ASTRADB_REGION",
      .required "ASTRADB_KEYSPACE"]
  | weaviate => .tuple [.optional "WEAVIATE_API_KEY", .required "WEAVIATE_URL"]
  | bingSearch => .text "BING_API_KEY"
  | mongoDBAtlas => .text "MONGODB_ATLAS_CONNECTION_STRING"
  | googlePalm => .text "GOOGLE_PALM_API_KEY"
  | azureCosmosDB => .tuple [.optional "AZCOSMOS_API", .required "AZCOSMOS_CONNSTR"]
  | redis => .text "REDIS_CONNECTION_STRING"
  | azureAISearch o =>
    .tuple ([.required "AZURE_AISEARCH_API_KEY", .required "AZURE_AISEARCH_URL"] ++
      if o.includeIndexName.getD false then [.required "AZURE_AISEARCH_INDEX_NAME"] else [])
  | azureAISearchRecord =>
    .record [("authentication", .apiKey "AZURE_AISEARCH_API_KEY"),
      ("endpoint", .text "AZURE_AISEARCH_URL"), ("indexName", .text "AZURE_AISEARCH_INDEX_NAME")]
  | azureKeyVault o =>
    .tuple [.required "AZURE_KEY_VAULT_ENDPOINT",
      if o.includeClientId.getD true then .required "AZURE_KEY_VAULT_CLIENT_ID" else .unset,
      if o.includeClientSecret.getD true then .required "AZURE_KEY_VAULT_CLIENT_SECRET" else .unset]
  | azureKeyVaultRecord =>
    .record [("endpoint", .text "AZURE_KEY_VAULT_ENDPOINT"),
      ("clientId", .text "AZURE_KEY_VAULT_CLIENT_ID"),
      ("clientSecret", .text "AZURE_KEY_VAULT_CLIENT_SECRET")]
  | bookingSample =>
    .tuple [.required "BOOKING_SAMPLE_CLIENT_ID", .required "BOOKING_SAMPLE_TENANT_ID",
      .required "BOOKING_SAMPLE_CLIENT_SECRET"]
  | bookingSampleRecord =>
    .record [("clientId", .text "BOOKING_SAMPLE_CLIENT_ID"),
      ("tenantId", .text "BOOKING_SAMPLE_TENANT_ID"),
      ("clientSecret", .text "BOOKING_SAMPLE_CLIENT_SECRET")]

/-- The query with every flag set, those that were not set to their defaults. -/
def withDefaults : Query → Query
  | azureOpenAI o =>
    azureOpenAI ⟨some (o.includeDeployment.getD true), some (o.includeApiVersion.getD false)⟩
  | azureOpenAIRecord o =>
    azureOpenAIRecord ⟨some (o.includeDeployment.getD true), some (o.includeApiVersion.getD false)⟩
  | azureAISearch o => azureAISearch ⟨some (o.includeIndexName.getD false)⟩
  | azureKeyVault o =>
    azureKeyVault ⟨some (o.includeClientId.getD true), some (o.includeClientSecret.getD true)⟩
  | q => q

/-! ### All queries -/

/-- The queries about services without options, and the others with all their options. -/
def all : List Query :=
  [openAI, postgres, pinecone, astraDB, weaviate, bingSearch, mongoDBAtlas, googlePalm,
    azureCosmosDB, redis, azureAISearchRecord, azureKeyVaultRecord, bookingSample,
    bookingSampleRecord] ++
  [none, some false, some true].flatMap fun a => azureAISearch ⟨a⟩ ::
    [none, some false, some true].flatMap fun b => [azureOpenAI ⟨a, b⟩, azureOpenAIRecord ⟨a, b⟩,
      azureKeyVault ⟨a, b⟩]

theorem mem_all (q : Query) :
  q ∈ all
  := by
  cases q with
  | azureOpenAI o | azureOpenAIRecord o =>
    rcases o with ⟨_ | _ | _, _ | _ | _⟩ <;> decide
  | azureAISearch o => rcases o with ⟨_ | _ | _⟩ <;> decide
  | azureKeyVault o => rcases o with ⟨_ | _ | _, _ | _ | _⟩ <;> decide
  | _ => decide

/-! ### Answers -/

/-- The required places of the layout of a query are for the keys it requires, one for each. -/
theorem keys_layout_perm (q : Query) :
  q.layout.keys.Perm q.required
  := by
  have h : ∀ q ∈ all, q.layout.keys.Perm q.required := by decide
  apply h q q.mem_all

/-- The reading of a query requires the keys of the query and gives its layout, filled. -/
theorem requires_read (q : Query) :
  q.read.Requires q.service q.required fun s => q.layout.fill s
  := by
  cases q with
  | openAI => apply OpenAI.requires_read.map
  | azureOpenAI o =>
    have h := (AzureOpenAI.requires_read o).map Bundle.ofAzureOpenAI
    rcases o with ⟨_ | _ | _, _ | _ | _⟩ <;> apply h
  | azureOpenAIRecord o =>
    have h := (AzureOpenAIRecord.requires_read o).map Bundle.ofAzureOpenAIRecord
    rcases o with ⟨_ | _ | _, _ | _ | _⟩ <;> apply h
  | pinecone => apply Pinecone.requires_read.map
  | astraDB => apply AstraDB.requires_read.map
  | weaviate => apply Weaviate.requires_read.map
  | azureCosmosDB => apply AzureCosmosDB.requires_read.map
  | azureAISearch o =>
    have h := (AzureAISearch.requires_read o).map Bundle.ofAzureAISearch
    rcases o with ⟨_ | _ | _⟩ <;> apply h
  | azureAISearchRecord =>
    apply (AzureAISearch.requires_read ⟨some true⟩).map Bundle.ofAzureAISearchRecord
  | azureKeyVault o =>
    have h := (AzureKeyVault.requires_read o).map Bundle.ofAzureKeyVault
    rcases o with ⟨_ | _ | _, _ | _ | _⟩ <;> apply h
  | azureKeyVaultRecord =>
    apply (AzureKeyVault.requires_read {}).map Bundle.ofAzureKeyVaultRecord
  | bookingSample => apply BookingSample.requires_read.map
  | bookingSampleRecord => apply BookingSample.requires_read.map
  | postgres | bingSearch | mongoDBAtlas | googlePalm | redis =>
    apply (Reading.requires_requireText _ _).map

/-- A query asks for the same whether a flag is not set or set to its default. -/
theorem read_withDefaults (q : Query) :
  q.withDefaults.read = q.read
  := by
  cases q with
  | azureOpenAI o | azureOpenAIRecord o | azureKeyVault o =>
    rcases o with ⟨_ | _, _ | _⟩ <;> rfl
  | azureAISearch o => rcases o with ⟨_ | _⟩ <;> rfl
  | _ => rfl

/-- A query gives a bundle exactly when the settings have all keys it requires, and then fills its
layout, in which each required key has its own text, which is not empty; otherwise it fails for the
first required key, in the order in which they are looked up, that the settings do not have.  A flag
that is not set counts as its default. -/
theorem run_fills_layout_or_first_missing (q : Query) (s : Settings) :
  (∀ b, q.run s = .ok b ↔ (∀ key ∈ q.required, s.Has key) ∧ b = q.layout.fill s) ∧
  (∀ e, q.run s = .error e ↔ ∃ before key after, q.required = before ++ key :: after ∧
    (∀ k ∈ before, s.Has k) ∧ ¬ s.Has key ∧ e = .missing key q.service.label s.path) ∧
  q.layout.keys.Perm q.required ∧
  (∀ b, q.run s = .ok b → ∀ key ∈ q.layout.keys,
    s.values[key]? = some (s.textOf key) ∧ s.textOf key ≠ "") ∧
  q.withDefaults.run s = q.run s
  := by
  have hok := q.requires_read.eq_ok_iff s
  refine ⟨hok, q.requires_read.eq_error_iff s, q.keys_layout_perm, ?_, ?_⟩
  · intro b hb key hkey
    apply Settings.Has.getElem?_eq
    apply ((hok b).mp hb).1
    apply q.keys_layout_perm.mem_iff.mp hkey
  · rw [run, run, q.read_withDefaults]

/-- The version is looked up before the key and the endpoint, and Weaviate needs no key. -/
theorem run_without_version_and_without_key :
  (azureOpenAI ⟨none, some true⟩).run
      ⟨".env", (∅ : Values).insert "AZURE_OPENAI_DEPLOYMENT_NAME" "gpt"⟩
    = .error (.missing "AZURE_OPENAI_API_VERSION" "Azure OpenAI" ".env") ∧
  weaviate.run ⟨".env", (∅ : Values).insert "WEAVIATE_URL" "http://localhost"⟩
    = .ok (.tuple [none, some "http://localhost"])
  := by
  constructor
  · apply ((run_fills_layout_or_first_missing _ _).2.1 _).mpr
    refine ⟨["AZURE_OPENAI_DEPLOYMENT_NAME"], "AZURE_OPENAI_API_VERSION", _, rfl, ?_, ?_, rfl⟩
    · simp [Settings.Has]
    · simp [Settings.Has]
  · apply ((run_fills_layout_or_first_missing _ _).1 _).mpr
    constructor
    · simp [Query.required, Settings.Has]
    · simp [Query.layout, Layout.fill, Slot.fill, Settings.textOf, Settings.text?, Option.filter]

end Query

end Credentials
