import Credentials.Settings

/-!
# Services

There are fourteen services.  The catalog gives each its label, the keys it requires and the keys
it may use besides.  A required key is missing from settings that have no text for it, and a
service is configured if none of its required keys is missing.
-/

namespace Credentials

/-- The services. -/
inductive Service where
  | openAI
  | azureOpenAI
  | postgres
  | pinecone
  | astraDB
  | weaviate
  | bingSearch
  | mongoDBAtlas
  | googlePalm
  | azureCosmosDB
  | redis
  | azureAISearch
  | azureKeyVault
  | bookingSample
  deriving DecidableEq, Repr

/-- The entry of a service in the catalog. -/
structure Descriptor where
  label : String
  required : List String
  optional : List String
  deriving DecidableEq

namespace Service

/-- The services in the order of the catalog. -/
def all : List Service :=
  [openAI, azureOpenAI, postgres, pinecone, astraDB, weaviate, bingSearch, mongoDBAtlas,
    googlePalm, azureCosmosDB, redis, azureAISearch, azureKeyVault, bookingSample]

/-- The identifier of a service. -/
def id : Service → String
  | openAI => "openai"
  | azureOpenAI => "azureOpenAI"
  | postgres => "postgres"
  | pinecone => "pinecone"
  | astraDB => "astraDB"
  | weaviate => "weaviate"
  | bingSearch => "bingSearch"
  | mongoDBAtlas => "mongoDBAtlas"
  | googlePalm => "googlePalm"
  | azureCosmosDB => "azureCosmosDB"
  | redis => "redis"
  | azureAISearch => "azureAISearch"
  | azureKeyVault => "azureKeyVault"
  | bookingSample => "bookingSample"

/-- The service of an identifier. -/
def ofId? (name : String) : Option Service :=
  all.find? fun service => service.id = name

/-- The catalog. -/
def descriptor : Service → Descriptor
  | openAI => ⟨"OpenAI", ["OPENAI_API_KEY"], ["OPENAI_ORG_ID"]⟩
  | azureOpenAI =>
    ⟨"Azure OpenAI", ["AZURE_OPENAI_API_KEY", "AZURE_OPENAI_ENDPOINT"],
      ["AZURE_OPENAI_DEPLOYMENT_NAME", "AZURE_OPENAI_API_VERSION"]⟩
  | postgres => ⟨"Postgres", ["POSTGRES_CONNECTION_STRING"], []⟩
  | pinecone => ⟨"Pinecone", ["PINECONE_API_KEY", "PINECONE_ENVIRONMENT"], []⟩
  | astraDB =>
    ⟨"AstraDB", ["ASTRADB_APP_TOKEN", "ASTRADB_ID", "ASTRADB_REGION", "ASTRADB_KEYSPACE"], []⟩
  | weaviate => ⟨"Weaviate", ["WEAVIATE_URL"], ["WEAVIATE_API_KEY"]⟩
  | bingSearch => ⟨"Bing Search", ["BING_API_KEY"], []⟩
  | mongoDBAtlas => ⟨"MongoDB Atlas", ["MONGODB_ATLAS_CONNECTION_STRING"], []⟩
  | googlePalm => ⟨"Google PaLM", ["GOOGLE_PALM_API_KEY"], []⟩
  | azureCosmosDB => ⟨"Azure Cosmos DB", ["AZCOSMOS_CONNSTR"], ["AZCOSMOS_API"]⟩
  | redis => ⟨"Redis", ["REDIS_CONNECTION_STRING"], []⟩
  | azureAISearch =>
    ⟨"Azure AI Search", ["AZURE_AISEARCH_API_KEY", "AZURE_AISEARCH_URL"],
      ["AZURE_AISEARCH_INDEX_NAME"]⟩
  | azureKeyVault =>
    ⟨"Azure Key Vault", ["AZURE_KEY_VAULT_ENDPOINT"],
      ["AZURE_KEY_VAULT_CLIENT_ID", "AZURE_KEY_VAULT_CLIENT_SECRET"]⟩
  | bookingSample =>
    ⟨"Booking Sample",
      ["BOOKING_SAMPLE_CLIENT_ID", "BOOKING_SAMPLE_TENANT_ID", "BOOKING_SAMPLE_CLIENT_SECRET"],
      []⟩

/-- The name of a service in messages and reports. -/
def label (service : Service) : String :=
  service.descriptor.label

/-- The keys that a service requires. -/
def required (service : Service) : List String :=
  service.descriptor.required

/-- The keys that a service may use besides those it requires. -/
def optional (service : Service) : List String :=
  service.descriptor.optional

theorem mem_all (service : Service) :
  service ∈ all
  := by
  cases service <;> decide

@[simp]
theorem ofId?_id (service : Service) :
  ofId? service.id = some service
  := by
  cases service <;> decide

theorem id_injective {a b : Service} (h : a.id = b.id) :
  a = b
  := by
  have := ofId?_id a
  rw [h, ofId?_id] at this
  exact (Option.some.inj this).symm

end Service

namespace Settings

/-- The required keys of a service for which the settings have no text, in the order of the
catalog. -/
def missing (s : Settings) (service : Service) : List String :=
  service.required.filter fun key => (s.text? key).isNone

/-- The services none of whose required keys is missing, in the order of the catalog. -/
def configured (s : Settings) : List Service :=
  Service.all.filter fun service => (s.missing service).isEmpty

end Settings

end Credentials
