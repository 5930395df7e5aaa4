import Credentials.Bundle

/-!
# Reading credentials

A reading looks up keys of settings, one after the other, and stops at the first required key
that is missing.  Each type of credentials has a reading `read`, in which the order of the
look-ups matters: where several required keys are missing, the error names the first one.
-/

namespace Credentials

/-- A computation that looks up keys of settings. -/
abbrev Reading (α : Type) := ReaderT Settings (Except Error) α

/-- The text of a key, if there is one. -/
def Reading.text? (key : String) : Reading (Option String) :=
  fun s => .ok (s.text? key)

namespace Service

/-- The text of a key that the service requires. -/
def requireText (service : Service) (key : String) : Reading String :=
  fun s => s.requireText key service.label

/-- The text of a key that the service requires if the flag is set. -/
def requireIf (service : Service) (flag : Bool) (key : String) : Reading (Option String) :=
  if flag then some <$> service.requireText key else pure none

end Service

/-- The key is looked up first. -/
def OpenAI.read : Reading OpenAI := do
  let apiKey ← Service.openAI.requireText "OPENAI_API_KEY"
  let organization ← Reading.text? "OPENAI_ORG_ID"
  return ⟨apiKey, organization⟩

/-- The deployment of the Azure OpenAI credentials, which is empty where it is neither required
nor set. -/
def AzureOpenAI.readDeployment (required : Bool) : Reading String := do
  if required then Service.azureOpenAI.requireText "AZURE_OPENAI_DEPLOYMENT_NAME"
  else return (← Reading.text? "AZURE_OPENAI_DEPLOYMENT_NAME").getD ""

/-- The deployment and the version are looked up before the key and the endpoint.  Where the flags
are not set, the deployment is required and the version is not. -/
def AzureOpenAI.read (options : AzureOpenAIOptions) : Reading AzureOpenAI := do
  let deployment ← readDeployment (options.includeDeployment.getD true)
  let version ← Service.azureOpenAI.requireIf (options.includeApiVersion.getD false)
    "AZURE_OPENAI_API_VERSION"
  let apiKey ← Service.azureOpenAI.requireText "AZURE_OPENAI_API_KEY"
  let endpoint ← Service.azureOpenAI.requireText "AZURE_OPENAI_ENDPOINT"
  return ⟨deployment, apiKey, endpoint, version⟩

/-- The deployment is part of the record only if it is required. -/
def AzureOpenAIRecord.read (options : AzureOpenAIOptions) : Reading AzureOpenAIRecord := do
  let c ← AzureOpenAI.read options
  return ⟨c.apiKey, c.endpoint,
    if options.includeDeployment.getD true then some c.deployment else none, c.version⟩

/-- The key of Google PaLM. -/
def readGooglePalm : Reading String :=
  Service.googlePalm.requireText "GOOGLE_PALM_API_KEY"

/-- The connection string of Postgres. -/
def readPostgres : Reading String :=
  Service.postgres.requireText "POSTGRES_CONNECTION_STRING"

/-- The connection string of MongoDB Atlas. -/
def readMongoDBAtlas : Reading String :=
  Service.mongoDBAtlas.requireText "MONGODB_ATLAS_CONNECTION_STRING"

/-- The connection string of Redis. -/
def readRedis : Reading String :=
  Service.redis.requireText "REDIS_CONNECTION_STRING"

/-- The key of Bing Search. -/
def readBingSearch : Reading String :=
  Service.bingSearch.requireText "BING_API_KEY"

/-- The key is looked up first. -/
def Pinecone.read : Reading Pinecone := do
  let apiKey ← Service.pinecone.requireText "PINECONE_API_KEY"
  let environment ← Service.pinecone.requireText "PINECONE_ENVIRONMENT"
  return ⟨apiKey, environment⟩

/-- The keys are looked up in the order of the catalog. -/
def AstraDB.read : Reading AstraDB := do
  let token ← Service.astraDB.requireText "ASTRADB_APP_TOKEN"
  let databaseId ← Service.astraDB.requireText "ASTRADB_ID"
  let region ← Service.astraDB.requireText "ASTRADB_REGION"
  let keyspace ← Service.astraDB.requireText "ASTRADB_KEYSPACE"
  return ⟨token, databaseId, region, keyspace⟩

/-- The URL is looked up first. -/
def Weaviate.read : Reading Weaviate := do
  let url ← Service.weaviate.requireText "WEAVIATE_URL"
  let apiKey ← Reading.text? "WEAVIATE_API_KEY"
  return ⟨apiKey, url⟩

/-- The connection string is looked up first. -/
def AzureCosmosDB.read : Reading AzureCosmosDB := do
  let connection ← Service.azureCosmosDB.requireText "AZCOSMOS_CONNSTR"
  let api ← Reading.text? "AZCOSMOS_API"
  return ⟨api, connection⟩

/-- The URL is looked up before the key, and the index last, if the flag is set. -/
def AzureAISearch.read (options : AzureAISearchOptions) : Reading AzureAISearch := do
  let url ← Service.azureAISearch.requireText "AZURE_AISEARCH_URL"
  let apiKey ← Service.azureAISearch.requireText "AZURE_AISEARCH_API_KEY"
  let index ← Service.azureAISearch.requireIf (options.includeIndexName.getD false)
    "AZURE_AISEARCH_INDEX_NAME"
  return ⟨apiKey, url, index⟩

/-- The endpoint is looked up first.  Both parts of the client's credentials are required where the
flags are not set. -/
def AzureKeyVault.read (options : AzureKeyVaultOptions) : Reading AzureKeyVault := do
  let endpoint ← Service.azureKeyVault.requireText "AZURE_KEY_VAULT_ENDPOINT"
  let clientId ← Service.azureKeyVault.requireIf (options.includeClientId.getD true)
    "AZURE_KEY_VAULT_CLIENT_ID"
  let clientSecret ← Service.azureKeyVault.requireIf (options.includeClientSecret.getD true)
    "AZURE_KEY_VAULT_CLIENT_SECRET"
  return ⟨endpoint, clientId, clientSecret⟩

/-- The keys are looked up in the order of the catalog. -/
def BookingSample.read : Reading BookingSample := do
  let clientId ← Service.bookingSample.requireText "BOOKING_SAMPLE_CLIENT_ID"
  let tenantId ← Service.bookingSample.requireText "BOOKING_SAMPLE_TENANT_ID"
  let clientSecret ← Service.bookingSample.requireText "BOOKING_SAMPLE_CLIENT_SECRET"
  return ⟨clientId, tenantId, clientSecret⟩

end Credentials
