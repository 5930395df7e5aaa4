import Credentials.FileTree
import Credentials.Query

/-!
# Clients

A client is the path of a file of settings.  It holds nothing else: whatever it is asked, it reads
the file first, so that an unreadable file is the error that comes before all others.

A client has a method for each form of credentials, which takes the options of the service, if it
has any.
-/

namespace Credentials

/-- The methods of a client, each with the options it is called with. -/
inductive Method where
  | openAI
  | azureOpenAI (options : AzureOpenAIOptions := {})
  | azureOpenAIRecord (options : AzureOpenAIOptions := {})
  | postgres
  | pinecone
  | astraDB
  | weaviate
  | bingSearch
  | mongoDBAtlas
  | googlePalm
  | azureCosmosDB
  | redis
  | azureAISearch (options : AzureAISearchOptions := {})
  | azureAISearchRecord
  | azureKeyVault (options : AzureKeyVaultOptions := {})
  | azureKeyVaultRecord
  | bookingSample
  | bookingSampleRecord
  deriving DecidableEq

/-- Someone who answers from the file at `path`. -/
structure Client where
  path : Path
  deriving DecidableEq

namespace Client

/-- The client of the file that a location describes to someone at `here`. -/
def new (here : Path) (l : Location) : Client :=
  ⟨here.resolve l⟩

/-- The path of the file as a text. -/
def source (c : Client) : String :=
  String.ofList c.path.text

/-- The settings in the client's file. -/
def load (c : Client) (t : FileTree) : Except Error Settings :=
  t.settings .root c.source

/-- The answer to a query. -/
def ask (c : Client) (t : FileTree) (q : Query) : Except Error Bundle := do
  let s ← c.load t
  q.run s

/-!
### Methods

Each method asks its own query, with the options that it is given.
-/

def openAI (c : Client) (t : FileTree) : Except Error Bundle :=
  c.ask t .openAI

def azureOpenAI (c : Client) (t : FileTree) (options : AzureOpenAIOptions := {}) :
    Except Error Bundle :=
  c.ask t (.azureOpenAI options)

def azureOpenAIRecord (c : Client) (t : FileTree) (options : AzureOpenAIOptions := {}) :
    Except Error Bundle :=
  c.ask t (.azureOpenAIRecord options)

def postgres (c : Client) (t : FileTree) : Except Error Bundle :=
  c.ask t .postgres

def pinecone (c : Client) (t : FileTree) : Except Error Bundle :=
  c.ask t .pinecone

def astraDB (c : Client) (t : FileTree) : Except Error Bundle :=
  c.ask t .astraDB

def weaviate (c : Client) (t : FileTree) : Except Error Bundle :=
  c.ask t .weaviate

def bingSearch (c : Client) (t : FileTree) : Except Error Bundle :=
  c.ask t .bingSearch

def mongoDBAtlas (c : Client) (t : FileTree) : Except Error Bundle :=
  c.ask t .mongoDBAtlas

def googlePalm (c : Client) (t : FileTree) : Except Error Bundle :=
  c.ask t .googlePalm

def azureCosmosDB (c : Client) (t : FileTree) : Except Error Bundle :=
  c.ask t .azureCosmosDB

def redis (c : Client) (t : FileTree) : Except Error Bundle :=
  c.ask t .redis

def azureAISearch (c : Client) (t : FileTree) (options : AzureAISearchOptions := {}) :
    Except Error Bundle :=
  c.ask t (.azureAISearch options)

def azureAISearchRecord (c : Client) (t : FileTree) : Except Error Bundle :=
  c.ask t .azureAISearchRecord

def azureKeyVault (c : Client) (t : FileTree) (options : AzureKeyVaultOptions := {}) :
    Except Error Bundle :=
  c.ask t (.azureKeyVault options)

def azureKeyVaultRecord (c : Client) (t : FileTree) : Except Error Bundle :=
  c.ask t .azureKeyVaultRecord

def bookingSample (c : Client) (t : FileTree) : Except Error Bundle :=
  c.ask t .bookingSample

def bookingSampleRecord (c : Client) (t : FileTree) : Except Error Bundle :=
  c.ask t .bookingSampleRecord

/-- The answer of a method. -/
def call (c : Client) (t : FileTree) : Method → Except Error Bundle
  | .openAI => c.openAI t
  | .azureOpenAI options => c.azureOpenAI t options
  | .azureOpenAIRecord options => c.azureOpenAIRecord t options
  | .postgres => c.postgres t
  | .pinecone => c.pinecone t
  | .astraDB => c.astraDB t
  | .weaviate => c.weaviate t
  | .bingSearch => c.bingSearch t
  | .mongoDBAtlas => c.mongoDBAtlas t
  | .googlePalm => c.googlePalm t
  | .azureCosmosDB => c.azureCosmosDB t
  | .redis => c.redis t
  | .azureAISearch options => c.azureAISearch t options
  | .azureAISearchRecord => c.azureAISearchRecord t
  | .azureKeyVault options => c.azureKeyVault t options
  | .azureKeyVaultRecord => c.azureKeyVaultRecord t
  | .bookingSample => c.bookingSample t
  | .bookingSampleRecord => c.bookingSampleRecord t

/-! ### The catalog -/

/-- The required keys of a service that are missing. -/
def check (c : Client) (t : FileTree) (service : Service) : Except Error (List String) := do
  let s ← c.load t
  return s.missing service

/-- The services that are configured. -/
def configured (c : Client) (t : FileTree) : Except Error (List Service) := do
  let s ← c.load t
  return s.configured

end Client

end Credentials
