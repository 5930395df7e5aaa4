import Credentials.Reading

/-!
# Queries

A query asks for the credentials of one service in one form, with the options of that service.
There is a query for the form in which each service is used, and one for each of the four record
forms.  `q.run s` is the answer to the query `q` from the settings `s`.
-/

namespace Credentials

/-- The questions for credentials. -/
inductive Query where
  | openAI
  | azureOpenAI (options : AzureOpenAIOptions)
  | azureOpenAIRecord (options : AzureOpenAIOptions)
  | postgres
  | pinecone
  | astraDB
  | weaviate
  | bingSearch
  | mongoDBAtlas
  | googlePalm
  | azureCosmosDB
  | redis
  | azureAISearch (options : AzureAISearchOptions)
  | azureAISearchRecord
  | azureKeyVault (options : AzureKeyVaultOptions)
  | azureKeyVaultRecord
  | bookingSample
  | bookingSampleRecord
  deriving DecidableEq

namespace Query

/-- The service whose credentials a query asks for. -/
def service : Query → Service
  | openAI => .openAI
  | azureOpenAI _ => .azureOpenAI
  | azureOpenAIRecord _ => .azureOpenAI
  | postgres => .postgres
  | pinecone => .pinecone
  | astraDB => .astraDB
  | weaviate => .weaviate
  | bingSearch => .bingSearch
  | mongoDBAtlas => .mongoDBAtlas
  | googlePalm => .googlePalm
  | azureCosmosDB => .azureCosmosDB
  | redis => .redis
  | azureAISearch _ => .azureAISearch
  | azureAISearchRecord => .azureAISearch
  | azureKeyVault _ => .azureKeyVault
  | azureKeyVaultRecord => .azureKeyVault
  | bookingSample => .bookingSample
  | bookingSampleRecord => .bookingSample

/-- The reading that answers a query. -/
def read : Query → Reading Bundle
  | openAI => Bundle.ofOpenAI <$> OpenAI.read
  | azureOpenAI options => Bundle.ofAzureOpenAI <$> AzureOpenAI.read options
  | azureOpenAIRecord options => Bundle.ofAzureOpenAIRecord <$> AzureOpenAIRecord.read options
  | postgres => Bundle.text <$> readPostgres
  | pinecone => Bundle.ofPinecone <$> Pinecone.read
  | astraDB => Bundle.ofAstraDB <$> AstraDB.read
  | weaviate => Bundle.ofWeaviate <$> Weaviate.read
  | bingSearch => Bundle.text <$> readBingSearch
  | mongoDBAtlas => Bundle.text <$> readMongoDBAtlas
  | googlePalm => Bundle.text <$> readGooglePalm
  | azureCosmosDB => Bundle.ofAzureCosmosDB <$> AzureCosmosDB.read
  | redis => Bundle.text <$> readRedis
  | azureAISearch options => Bundle.ofAzureAISearch <$> AzureAISearch.read options
  | azureAISearchRecord => Bundle.ofAzureAISearchRecord <$> AzureAISearch.read ⟨some true⟩
  | azureKeyVault options => Bundle.ofAzureKeyVault <$> AzureKeyVault.read options
  | azureKeyVaultRecord => Bundle.ofAzureKeyVaultRecord <$> AzureKeyVault.read {}
  | bookingSample => Bundle.ofBookingSample <$> BookingSample.read
  | bookingSampleRecord => Bundle.ofBookingSampleRecord <$> BookingSample.read

/-- The answer to a query from settings. -/
def run (q : Query) (s : Settings) : Except Error Bundle :=
  q.read s

end Query

end Credentials
