import Credentials.Service

/-!
# Bundles of credentials

Each service has a type of credentials: a text for the services that need a single one, and
a structure for the others.  Four services also have a record form of their credentials.  A
`Bundle` is what all of these have in common: a text, a tuple whose slots may be open, or a
record of named fields.
-/

namespace Credentials

/-- The value of a field of a record: a text, or a key by which to authenticate. -/
inductive Field where
  | text (value : String)
  | apiKey (key : String)
  deriving DecidableEq

/-- Credentials in the form in which they are handed over. -/
inductive Bundle where
  | text (value : String)
  | tuple (slots : List (Option String))
  | record (fields : List (String × Field))
  deriving DecidableEq

/-- Which parts of the Azure OpenAI credentials are required besides the key and the endpoint.  A
flag need not be set. -/
structure AzureOpenAIOptions where
  includeDeployment : Option Bool := none
  includeApiVersion : Option Bool := none
  deriving DecidableEq

/-- Whether the name of the index is part of the Azure AI Search credentials. -/
structure AzureAISearchOptions where
  includeIndexName : Option Bool := none
  deriving DecidableEq

/-- Which parts of the Azure Key Vault credentials go with the endpoint. -/
structure AzureKeyVaultOptions where
  includeClientId : Option Bool := none
  includeClientSecret : Option Bool := none
  deriving DecidableEq

/-- The credentials of OpenAI; an organization need not be set. -/
structure OpenAI where
  apiKey : String
  organization : Option String
  deriving DecidableEq

/-- The credentials of Azure OpenAI.  The deployment is empty where it is neither required nor
set; the version is there only if it is required. -/
structure AzureOpenAI where
  deployment : String
  apiKey : String
  endpoint : String
  version : Option String
  deriving DecidableEq

/-- The credentials of Pinecone. -/
structure Pinecone where
  apiKey : String
  environment : String
  deriving DecidableEq

/-- The credentials of AstraDB. -/
structure AstraDB where
  token : String
  databaseId : String
  region : String
  keyspace : String
  deriving DecidableEq

/-- The credentials of Weaviate; a local server runs without a key. -/
structure Weaviate where
  apiKey : Option String
  url : String
  deriving DecidableEq

/-- The credentials of Azure Cosmos DB; an API need not be set. -/
structure AzureCosmosDB where
  api : Option String
  connection : String
  deriving DecidableEq

/-- The credentials of Azure AI Search; the index is there only if it is asked for. -/
structure AzureAISearch where
  apiKey : String
  url : String
  index : Option String
  deriving DecidableEq

/-- The credentials of Azure Key Vault; the parts besides the endpoint are there only if they are
asked for. -/
structure AzureKeyVault where
  endpoint : String
  clientId : Option String
  clientSecret : Option String
  deriving DecidableEq

/-- The credentials of the booking sample. -/
structure BookingSample where
  clientId : String
  tenantId : String
  clientSecret : String
  deriving DecidableEq

/-- The record form of the Azure OpenAI credentials. -/
structure AzureOpenAIRecord where
  apiKey : String
  endpoint : String
  deployment : Option String
  version : Option String
  deriving DecidableEq

namespace Bundle

/-- A tuple all of whose slots have a text. -/
def texts (values : List String) : Bundle :=
  tuple (values.map some)

/-- A field of a record that is there if it has a text. -/
def optionalField (name : String) (value : Option String) : List (String × Field) :=
  (value.map fun v => (name, Field.text v)).toList

/-- The key, then the organization. -/
def ofOpenAI (c : OpenAI) : Bundle :=
  tuple [some c.apiKey, c.organization]

/-- The deployment, the key and the endpoint, then the version if there is one. -/
def ofAzureOpenAI (c : AzureOpenAI) : Bundle :=
  texts ([c.deployment, c.apiKey, c.endpoint] ++ c.version.toList)

/-- The key, then the environment. -/
def ofPinecone (c : Pinecone) : Bundle :=
  texts [c.apiKey, c.environment]

/-- The token, the database, the region and the keyspace. -/
def ofAstraDB (c : AstraDB) : Bundle :=
  texts [c.token, c.databaseId, c.region, c.keyspace]

/-- The key, then the URL. -/
def ofWeaviate (c : Weaviate) : Bundle :=
  tuple [c.apiKey, some c.url]

/-- The API, then the connection string. -/
def ofAzureCosmosDB (c : AzureCosmosDB) : Bundle :=
  tuple [c.api, some c.connection]

/-- The key and the URL, then the index if there is one. -/
def ofAzureAISearch (c : AzureAISearch) : Bundle :=
  texts ([c.apiKey, c.url] ++ c.index.toList)

/-- The endpoint, then the two parts of the client's credentials. -/
def ofAzureKeyVault (c : AzureKeyVault) : Bundle :=
  tuple [some c.endpoint, c.clientId, c.clientSecret]

/-- The client, the tenant and the secret. -/
def ofBookingSample (c : BookingSample) : Bundle :=
  texts [c.clientId, c.tenantId, c.clientSecret]

/-- The record of Azure OpenAI, with a deployment and a version where there is one. -/
def ofAzureOpenAIRecord (c : AzureOpenAIRecord) : Bundle :=
  record ([("apiKey", .text c.apiKey), ("endpoint", .text c.endpoint)] ++
    optionalField "deploymentName" c.deployment ++ optionalField "apiVersion" c.version)

/-- The record of Azure AI Search, as a data source is configured; the key stands under the way to
authenticate. -/
def ofAzureAISearchRecord (c : AzureAISearch) : Bundle :=
  record ([("authentication", .apiKey c.apiKey), ("endpoint", .text c.url)] ++
    optionalField "indexName" c.index)

/-- The record of Azure Key Vault, with the parts of the client's credentials that there are. -/
def ofAzureKeyVaultRecord (c : AzureKeyVault) : Bundle :=
  record ([("endpoint", .text c.endpoint)] ++ optionalField "clientId" c.clientId ++
    optionalField "clientSecret" c.clientSecret)

/-- The record of the booking sample. -/
def ofBookingSampleRecord (c : BookingSample) : Bundle :=
  record [("clientId", .text c.clientId), ("tenantId", .text c.tenantId),
    ("clientSecret", .text c.clientSecret)]

end Bundle

end Credentials
