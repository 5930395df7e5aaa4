import Mathlib.Data.List.Forall2
import Credentials.Proofs.Dependence

/-!
# Record forms of credentials

Each field of a record form has its name and takes its text from a slot of the tuple of the same
credentials (`FieldSource`), and the record has no other fields (`Bundle.IsProjection`).  For this
it suffices that the layouts of the two queries correspond in the same way, with the keys of
required slots in place of texts, and that the queries require the same keys
(`Query.Projects.of_layout`).

Each of the four queries for a record form fails where the query for the tuple fails, with the same
error, and answers with the record that is made of the tuple otherwise (`Query.projects_records`).
-/

namespace Credentials

/-- A field of a record: its name, the slot of a tuple where its text stands, and its form. -/
structure FieldSource where
  name : String
  slot : Nat
  form : String → Field

/-- The fields of the record are those of the list, each with the text of its slot of the tuple,
which is not empty. -/
def Bundle.IsProjection (sources : List FieldSource) (tuple record : Bundle) : Prop :=
  ∃ slots fields, tuple = .tuple slots ∧ record = .record fields ∧
    List.Forall₂ (fun source field => ∃ text, slots[source.slot]? = some (some text) ∧ text ≠ "" ∧
      field = (source.name, source.form text)) sources fields

/-- The fields of the record are those of the list, each with the key of its slot of the tuple,
which is required, and in a form in which the key gives way to its text. -/
def Layout.IsProjection (sources : List FieldSource) (tuple record : Layout) : Prop :=
  ∃ slots fields, tuple = .tuple slots ∧ record = .record fields ∧
    List.Forall₂ (fun source field => ∃ key, slots[source.slot]? = some (.required key) ∧
      field = (source.name, source.form key) ∧
      ∀ f, (source.form key).map f = source.form (f key)) sources fields

namespace Query

/-- The query `q'` fails where `q` fails, with the same error, and answers with the record that is
made of the tuple otherwise. -/
structure Projects (q q' : Query) (sources : List FieldSource) : Prop where
  error_iff : ∀ s e, q'.run s = .error e ↔ q.run s = .error e
  exists_record : ∀ s tuple, q.run s = .ok tuple →
    ∃ record, q'.run s = .ok record ∧ Bundle.IsProjection sources tuple record

end Query

variable {s : Settings} {sources : List FieldSource}

/-- Layouts are filled slot by slot and field by field. -/
theorem Layout.IsProjection.fill {tuple record : Layout}
    (h : Layout.IsProjection sources tuple record) (hs : ∀ key ∈ tuple.keys, s.Has key) :
  Bundle.IsProjection sources (tuple.fill s) (record.fill s)
  := by
  obtain ⟨slots, fields, rfl, rfl, h⟩ := h
  refine ⟨_, _, rfl, rfl, ?_⟩
  apply List.forall₂_map_right_iff.mpr
  apply h.imp
  rintro source field ⟨key, hslot, rfl, hform⟩
  have hkey : key ∈ (tuple slots).keys :=
    List.mem_filterMap.mpr ⟨_, List.mem_of_getElem? hslot, rfl⟩
  use s.textOf key
  refine ⟨?_, (hs key hkey).getElem?_eq.2, ?_⟩
  · rw [List.getElem?_map, hslot]
    rfl
  · rw [hform]

namespace Query

variable {q q' : Query}

/-- Queries about one service that require the same keys answer with a tuple and the record made of
it if their layouts correspond so. -/
theorem Projects.of_layout (hservice : q'.service = q.service)
    (hrequired : q'.required = q.required)
    (hlayout : Layout.IsProjection sources q.layout q'.layout) :
  q.Projects q' sources
  := by
  constructor
  · intro s e
    rw [q'.run_eq, q.run_eq, hservice, hrequired]
    cases s.firstMissing? q.required with
    | some key => rfl
    | none => simp
  · intro s tuple htuple
    obtain ⟨hall, rfl⟩ := (q.requires_read.eq_ok_iff s tuple).mp htuple
    use q'.layout.fill s
    constructor
    · apply (q'.requires_read.eq_ok_iff s _).mpr
      use hrequired ▸ hall
    · apply hlayout.fill
      intro key hkey
      apply hall key (q.keys_layout_perm.mem_iff.mp hkey)

/-- The record forms of the four services that have one are made of the tuples.  The key and the
endpoint of Azure OpenAI come second and third in the tuple; the deployment, which comes first, and
the version, which comes last, are fields of the record exactly if the options ask for them.  The
record of Azure AI Search has the index, and that of Azure Key Vault both parts of the client's
credentials, as the tuples have with these options. -/
theorem projects_records :
  (∀ o : AzureOpenAIOptions, (azureOpenAI o).Projects (azureOpenAIRecord o)
    ([⟨"apiKey", 1, .text⟩, ⟨"endpoint", 2, .text⟩] ++
      (if o.includeDeployment.getD true then [⟨"deploymentName", 0, .text⟩] else []) ++
      if o.includeApiVersion.getD false then [⟨"apiVersion", 3, .text⟩] else [])) ∧
  (azureAISearch ⟨some true⟩).Projects azureAISearchRecord
    [⟨"authentication", 0, .apiKey⟩, ⟨"endpoint", 1, .text⟩, ⟨"indexName", 2, .text⟩] ∧
  (azureKeyVault {}).Projects azureKeyVaultRecord
    [⟨"endpoint", 0, .text⟩, ⟨"clientId", 1, .text⟩, ⟨"clientSecret", 2, .text⟩] ∧
  bookingSample.Projects bookingSampleRecord
    [⟨"clientId", 0, .text⟩, ⟨"tenantId", 1, .text⟩, ⟨"clientSecret", 2, .text⟩]
  := by
  refine ⟨?_, ?_, ?_, ?_⟩
  · intro o
    refine Projects.of_layout rfl rfl ?_
    rcases o with ⟨_ | _ | _, _ | _ | _⟩ <;> simp [Layout.IsProjection, layout, Field.map]
  · refine Projects.of_layout rfl rfl ?_
    simp [Layout.IsProjection, layout, Field.map]
  · refine Projects.of_layout rfl rfl ?_
    simp [Layout.IsProjection, layout, Field.map]
  · refine Projects.of_layout rfl rfl ?_
    simp [Layout.IsProjection, layout, Field.map]

end Query

end Credentials
