import Credentials.Client

/-!
# What a client answers

A client that can read its file answers from the settings in the text of the file
(`Client.load_of_read_eq_ok`), and one that cannot gives the same error to every question
(`Client.load_of_read_eq_error`).  Each of its methods answers the query of the same name
(`Client.call_eq_ask`).
-/

namespace Credentials

/-- The query that a method answers. -/
def Method.query : Method → Query
  | openAI => .openAI
  | azureOpenAI options => .azureOpenAI options
  | azureOpenAIRecord options => .azureOpenAIRecord options
  | postgres => .postgres
  | pinecone => .pinecone
  | astraDB => .astraDB
  | weaviate => .weaviate
  | bingSearch => .bingSearch
  | mongoDBAtlas => .mongoDBAtlas
  | googlePalm => .googlePalm
  | azureCosmosDB => .azureCosmosDB
  | redis => .redis
  | azureAISearch options => .azureAISearch options
  | azureAISearchRecord => .azureAISearchRecord
  | azureKeyVault options => .azureKeyVault options
  | azureKeyVaultRecord => .azureKeyVaultRecord
  | bookingSample => .bookingSample
  | bookingSampleRecord => .bookingSampleRecord

namespace Client

variable {c : Client} {t : FileTree} {s : Settings} {e : Error}

theorem call_eq_ask (c : Client) (t : FileTree) (m : Method) :
  c.call t m = c.ask t m.query
  := by
  cases m <;> rfl

theorem load_of_read_eq_ok {octets : List UInt8} (h : t.read .root c.source.toList = .ok octets) :
  c.load t = .ok (.ofText c.source (String.ofList (Text.Utf8.decode octets)))
  := by
  rw [load, FileTree.settings, h, Settings.ofFile]

theorem load_of_read_eq_error {fault : Fault} (h : t.read .root c.source.toList = .error fault) :
  c.load t = .error (.unreadable c.source (fault.detail c.source))
  := by
  rw [load, FileTree.settings, h, Settings.ofFile]

/-! ### Readable files -/

theorem ask_of_load_eq_ok (h : c.load t = .ok s) (q : Query) :
  c.ask t q = q.run s
  := by
  rw [ask, h]
  rfl

theorem call_of_load_eq_ok (h : c.load t = .ok s) (m : Method) :
  c.call t m = m.query.run s
  := by
  rw [call_eq_ask, ask_of_load_eq_ok h]

theorem check_of_load_eq_ok (h : c.load t = .ok s) (service : Service) :
  c.check t service = .ok (s.missing service)
  := by
  rw [check, h]
  rfl

theorem configured_of_load_eq_ok (h : c.load t = .ok s) :
  c.configured t = .ok s.configured
  := by
  rw [configured, h]
  rfl

/-! ### Unreadable files -/

theorem ask_of_load_eq_error (h : c.load t = .error e) (q : Query) :
  c.ask t q = .error e
  := by
  rw [ask, h]
  rfl

theorem call_of_load_eq_error (h : c.load t = .error e) (m : Method) :
  c.call t m = .error e
  := by
  rw [call_eq_ask, ask_of_load_eq_error h]

theorem check_of_load_eq_error (h : c.load t = .error e) (service : Service) :
  c.check t service = .error e
  := by
  rw [check, h]
  rfl

theorem configured_of_load_eq_error (h : c.load t = .error e) :
  c.configured t = .error e
  := by
  rw [configured, h]
  rfl

end Client

end Credentials
