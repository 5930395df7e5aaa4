import Credentials.Proofs.Catalog

/-!
# What answers depend on

A query looks up the keys that stand in its layout and no others.  All of them are keys that the
catalog lists for its service, and a key that the options of the query switch off is not among them
(`Query.mem_lookups`).  Hence settings that agree on the keys of a service answer its queries alike
(`Query.run_eq_of_agree`).

An error, and the list of the keys that are missing, tell less than that: they depend only on which
keys have a text, not on the texts (`Query.errors_tell_presence_only`).
-/

namespace Credentials

/-! ### Keys that are looked up -/

namespace Service

/-- The keys that the catalog lists for a service. -/
def keys (service : Service) : List String :=
  service.required ++ service.optional

/-- No member of a map of values has the name of a key of the catalog. -/
theorem ofName?_eq_none_of_mem_keys {service : Service} {key : String} (h : key ∈ service.keys) :
  Member.ofName? key = none
  := by
  revert key
  cases service <;> decide

end Service

namespace Slot

/-- The key that is looked up for a slot. -/
def lookup? : Slot → Option String
  | required key | optional key | orEmpty key => some key
  | unset => none

theorem lookup?_of_key? {slot : Slot} {key : String} (h : slot.key? = some key) :
  slot.lookup? = some key
  := by
  cases slot with
  | required _ => apply h
  | optional _ | orEmpty _ | unset => cases h

end Slot

namespace Layout

/-- The keys that are looked up to fill a layout. -/
def lookups : Layout → List String
  | text key => [key]
  | tuple slots => slots.filterMap Slot.lookup?
  | record fields => fields.map fun f => f.2.value

theorem keys_subset_lookups (l : Layout) :
  l.keys ⊆ l.lookups
  := by
  cases l with
  | text key => apply List.Subset.refl
  | tuple slots =>
    intro key hkey
    obtain ⟨slot, hslot, h⟩ := List.mem_filterMap.mp hkey
    apply List.mem_filterMap.mpr ⟨slot, hslot, Slot.lookup?_of_key? h⟩
  | record fields => apply List.Subset.refl

end Layout

namespace Query

/-- The keys that the options of a query switch off. -/
def switchedOff : Query → List String
  | azureOpenAI o => if o.includeApiVersion.getD false then [] else ["AZURE_OPENAI_API_VERSION"]
  | azureOpenAIRecord o =>
    (if o.includeDeployment.getD true then [] else ["AZURE_OPENAI_DEPLOYMENT_NAME"]) ++
      (if o.includeApiVersion.getD false then [] else ["AZURE_OPENAI_API_VERSION"])
  | azureAISearch o => if o.includeIndexName.getD false then [] else ["AZURE_AISEARCH_INDEX_NAME"]
  | azureKeyVault o =>
    (if o.includeClientId.getD true then [] else ["AZURE_KEY_VAULT_CLIENT_ID"]) ++
      (if o.includeClientSecret.getD true then [] else ["AZURE_KEY_VAULT_CLIENT_SECRET"])
  | _ => []

/-- A query looks up keys of its service that its options do not switch off. -/
theorem mem_lookups {q : Query} {key : String} (h : key ∈ q.layout.lookups) :
  key ∈ q.service.keys ∧ key ∉ q.switchedOff
  := by
  have hall : ∀ q ∈ all, ∀ key ∈ q.layout.lookups, key ∈ q.service.keys ∧ key ∉ q.switchedOff := by
    decide
  apply hall q q.mem_all key h

theorem lookups_subset_keys (q : Query) :
  q.layout.lookups ⊆ q.service.keys
  := fun _ hkey => (mem_lookups hkey).1

theorem lookups_subset_of_switchedOff {q : Query} {off : String} (hoff : off ∈ q.switchedOff) :
  q.layout.lookups ⊆ q.service.keys.filter (· ≠ off)
  := by
  intro key hkey
  obtain ⟨hservice, hon⟩ := mem_lookups hkey
  apply List.mem_filter.mpr
  use hservice
  apply decide_eq_true
  rintro rfl
  apply hon hoff

/-- The keys that a query requires are among those it looks up. -/
theorem required_subset_lookups (q : Query) :
  q.required ⊆ q.layout.lookups
  := by
  intro key hkey
  apply q.layout.keys_subset_lookups
  apply q.keys_layout_perm.mem_iff.mpr hkey

end Query

/-! ### Settings that agree -/

variable {s s' : Settings}

namespace Settings

/-- Look-ups find the same in both settings under each of the keys. -/
def AgreeOn (s s' : Settings) (keys : List String) : Prop :=
  ∀ key ∈ keys, s.optional key = s'.optional key

/-- Settings in which look-ups of a key of the catalog find the same have the same text for it. -/
theorem text?_eq_of_optional_eq {service : Service} {key : String} (hkey : key ∈ service.keys)
    (h : s.optional key = s'.optional key) :
  s.text? key = s'.text? key
  := by
  have hname := Service.ofName?_eq_none_of_mem_keys hkey
  rw [s.optional_eq_map_text? hname, s'.optional_eq_map_text? hname] at h
  apply Option.map_injective _ h
  intro value value' hvalue
  apply Found.text.inj hvalue

theorem has_iff_of_text?_eq {key : String} (h : s.text? key = s'.text? key) :
  s.Has key ↔ s'.Has key
  := by
  rw [← not_iff_not, ← isNone_text?_iff, ← isNone_text?_iff, h]

theorem firstMissing?_congr {keys : List String} (h : ∀ key ∈ keys, (s.Has key ↔ s'.Has key)) :
  s.firstMissing? keys = s'.firstMissing? keys
  := by
  have hnone : ∀ key ∈ keys, (s.text? key).isNone = (s'.text? key).isNone := by
    intro key hkey
    rw [Bool.eq_iff_iff, isNone_text?_iff, isNone_text?_iff, h key hkey]
  rw [firstMissing?, firstMissing?, ← List.head?_filter, ← List.head?_filter,
    List.filter_congr hnone]

end Settings

theorem Slot.fill_congr {slot : Slot}
    (h : ∀ key, slot.lookup? = some key → s.text? key = s'.text? key) :
  slot.fill s = slot.fill s'
  := by
  cases slot with
  | required key | orEmpty key => rw [fill, fill, Settings.textOf, Settings.textOf, h key rfl]
  | optional key => apply h key rfl
  | unset => rfl

theorem Field.map_congr {f g : String → String} {field : Field} (h : f field.value = g field.value) :
  field.map f = field.map g
  := by
  cases field with
  | text value => apply congrArg Field.text h
  | apiKey key => apply congrArg Field.apiKey h

/-- A layout is filled alike from settings that have the same texts for its keys. -/
theorem Layout.fill_congr {l : Layout} (h : ∀ key ∈ l.lookups, s.text? key = s'.text? key) :
  l.fill s = l.fill s'
  := by
  have htext : ∀ key ∈ l.lookups, s.textOf key = s'.textOf key := by
    intro key hkey
    rw [Settings.textOf, Settings.textOf, h key hkey]
  cases l with
  | text key => rw [fill, fill, htext key (List.mem_singleton_self key)]
  | tuple slots =>
    apply congrArg Bundle.tuple
    apply List.map_congr_left
    intro slot hslot
    apply Slot.fill_congr
    intro key hkey
    apply h key (List.mem_filterMap.mpr ⟨slot, hslot, hkey⟩)
  | record fields =>
    apply congrArg Bundle.record
    apply List.map_congr_left
    intro f hf
    rw [Field.map_congr (htext _ (List.mem_map_of_mem hf))]

namespace Query

/-- A query fails for the first required key that is missing, or fills its layout. -/
theorem run_eq (q : Query) (s : Settings) :
  q.run s = match s.firstMissing? q.required with
    | some key => .error (.missing key q.service.label s.path)
    | none => .ok (q.layout.fill s)
  := q.requires_read s

/-- The answer to a query depends on the texts of the keys it looks up. -/
theorem run_congr {q : Query} (hpath : s.path = s'.path)
    (h : ∀ key ∈ q.layout.lookups, s.text? key = s'.text? key) :
  q.run s = q.run s'
  := by
  have hmissing : s.firstMissing? q.required = s'.firstMissing? q.required := by
    apply Settings.firstMissing?_congr
    intro key hkey
    apply Settings.has_iff_of_text?_eq (h key (q.required_subset_lookups hkey))
  rw [run_eq, run_eq, hmissing, Layout.fill_congr h, hpath]

/-- Settings that agree on the keys that a query looks up, and maybe on more, answer it alike. -/
theorem run_congr_of_agreeOn {q : Query} {keys : List String} (hpath : s.path = s'.path)
    (hkeys : q.layout.lookups ⊆ keys) (h : s.AgreeOn s' keys) :
  q.run s = q.run s'
  := by
  apply run_congr hpath
  intro key hkey
  apply Settings.text?_eq_of_optional_eq (q.lookups_subset_keys hkey) (h key (hkeys hkey))

/-- Settings that agree on the keys of a service, except maybe one that the options of a query switch
off, answer the query alike. -/
theorem run_congr_of_switchedOff (q : Query) {off : String} (hpath : s.path = s'.path)
    (hoff : off ∈ q.switchedOff) (h : s.AgreeOn s' (q.service.keys.filter (· ≠ off))) :
  q.run s = q.run s'
  := run_congr_of_agreeOn hpath (lookups_subset_of_switchedOff hoff) h

/-- Settings of one file that agree on the keys of a service answer every query about it alike,
whatever else they hold.  They need not even agree on a key that the options switch off: a part of
the Key Vault credentials that is not asked for, the version of Azure OpenAI, its deployment in the
record form, and the index of Azure AI Search. -/
theorem run_eq_of_agree (hpath : s.path = s'.path) :
  (∀ q : Query, s.AgreeOn s' q.service.keys → q.run s = q.run s') ∧
  (∀ o : AzureKeyVaultOptions,
    (o.includeClientId.getD true = false →
      s.AgreeOn s' (Service.azureKeyVault.keys.filter (· ≠ "AZURE_KEY_VAULT_CLIENT_ID")) →
      (azureKeyVault o).run s = (azureKeyVault o).run s') ∧
    (o.includeClientSecret.getD true = false →
      s.AgreeOn s' (Service.azureKeyVault.keys.filter (· ≠ "AZURE_KEY_VAULT_CLIENT_SECRET")) →
      (azureKeyVault o).run s = (azureKeyVault o).run s')) ∧
  (∀ o : AzureOpenAIOptions,
    (o.includeApiVersion.getD false = false →
      s.AgreeOn s' (Service.azureOpenAI.keys.filter (· ≠ "AZURE_OPENAI_API_VERSION")) →
      (azureOpenAI o).run s = (azureOpenAI o).run s' ∧
        (azureOpenAIRecord o).run s = (azureOpenAIRecord o).run s') ∧
    (o.includeDeployment.getD true = false →
      s.AgreeOn s' (Service.azureOpenAI.keys.filter (· ≠ "AZURE_OPENAI_DEPLOYMENT_NAME")) →
      (azureOpenAIRecord o).run s = (azureOpenAIRecord o).run s')) ∧
  (∀ o : AzureAISearchOptions, o.includeIndexName.getD false = false →
    s.AgreeOn s' (Service.azureAISearch.keys.filter (· ≠ "AZURE_AISEARCH_INDEX_NAME")) →
    (azureAISearch o).run s = (azureAISearch o).run s')
  := by
  refine ⟨fun q => run_congr_of_agreeOn hpath q.lookups_subset_keys, fun o => ⟨fun h => ?_, fun h => ?_⟩,
    fun o => ⟨fun h hagree => ⟨?_, ?_⟩, fun h => ?_⟩, fun o h => ?_⟩
  · apply run_congr_of_switchedOff (azureKeyVault o) hpath
    simp [switchedOff, h]
  · apply run_congr_of_switchedOff (azureKeyVault o) hpath
    simp [switchedOff, h]
  · apply run_congr_of_switchedOff (azureOpenAI o) hpath _ hagree
    simp [switchedOff, h]
  · apply run_congr_of_switchedOff (azureOpenAIRecord o) hpath _ hagree
    simp [switchedOff, h]
  · apply run_congr_of_switchedOff (azureOpenAIRecord o) hpath
    simp [switchedOff, h]
  · apply run_congr_of_switchedOff (azureAISearch o) hpath
    simp [switchedOff, h]

/-- Without the credentials of the client, neither its identifier nor a key of another service
matters to Key Vault. -/
theorem run_eq_of_agree_keyVault :
  Settings.AgreeOn ⟨".env", ((∅ : Values).insert "AZURE_KEY_VAULT_ENDPOINT" "e").insert
      "AZURE_KEY_VAULT_CLIENT_ID" "id"⟩
    ⟨".env", ((∅ : Values).insert "AZURE_KEY_VAULT_ENDPOINT" "e").insert "BING_API_KEY" "k"⟩
    (Service.azureKeyVault.keys.filter (· ≠ "AZURE_KEY_VAULT_CLIENT_ID")) ∧
  (azureKeyVault ⟨some false, some false⟩).run
      ⟨".env", ((∅ : Values).insert "AZURE_KEY_VAULT_ENDPOINT" "e").insert
        "AZURE_KEY_VAULT_CLIENT_ID" "id"⟩
    = (azureKeyVault ⟨some false, some false⟩).run
      ⟨".env", ((∅ : Values).insert "AZURE_KEY_VAULT_ENDPOINT" "e").insert "BING_API_KEY" "k"⟩
  := by
  set s : Settings := ⟨".env", ((∅ : Values).insert "AZURE_KEY_VAULT_ENDPOINT" "e").insert
    "AZURE_KEY_VAULT_CLIENT_ID" "id"⟩ with hs
  set s' : Settings := ⟨".env", ((∅ : Values).insert "AZURE_KEY_VAULT_ENDPOINT" "e").insert
    "BING_API_KEY" "k"⟩ with hs'
  have hagree : s.AgreeOn s'
      (Service.azureKeyVault.keys.filter (· ≠ "AZURE_KEY_VAULT_CLIENT_ID")) := by
    simp [hs, hs', Settings.AgreeOn, Service.keys, Service.required, Service.optional,
      Service.descriptor, Settings.optional, Std.ExtTreeMap.getElem?_insert]
  use hagree
  have hpath : s.path = s'.path := rfl
  apply ((run_eq_of_agree hpath).2.1 ⟨some false, some false⟩).1 rfl hagree

end Query

/-! ### Errors and missing keys -/

namespace Settings

/-- The settings with another text under a key. -/
def set (s : Settings) (key value : String) : Settings :=
  ⟨s.path, s.values.insert key value⟩

theorem has_set_iff {key value : String} (hvalue : value ≠ "") {k : String} :
  (s.set key value).Has k ↔ key = k ∨ s.Has k
  := by
  by_cases hk : key = k <;> simp [Has, set, Std.ExtTreeMap.getElem?_insert, hk, hvalue]

/-- The same keys are missing where the same keys of a service have a text. -/
theorem missing_congr {service : Service} (h : ∀ key ∈ service.keys, (s.Has key ↔ s'.Has key)) :
  s.missing service = s'.missing service
  := by
  apply missing_eq_missing_iff.mpr
  intro key hkey
  apply h key (List.mem_append_left _ hkey)

end Settings

namespace Query

/-- Where the same keys of a service have a text, a query about it is answered from both settings, or
it fails with the same error. -/
theorem run_eq_ok_or_eq_error {q : Query} (hpath : s.path = s'.path)
    (h : ∀ key ∈ q.service.keys, (s.Has key ↔ s'.Has key)) :
  ((∃ b, q.run s = .ok b) ∧ ∃ b, q.run s' = .ok b) ∨
    ∃ key, q.run s = .error (.missing key q.service.label s.path) ∧
      q.run s' = .error (.missing key q.service.label s.path)
  := by
  have hfirst : s.firstMissing? q.required = s'.firstMissing? q.required := by
    apply Settings.firstMissing?_congr
    intro key hkey
    apply h key (q.subset_catalog hkey)
  rw [run_eq, run_eq, ← hfirst, ← hpath]
  cases s.firstMissing? q.required with
  | none =>
    left
    constructor
    · use q.layout.fill s
    · use q.layout.fill s'
  | some key =>
    right
    use key

/-- Settings of one file in which the same keys of a service have a text that is not empty either
both answer a query about it, or both fail with the same error, which names the key, the service and
the file, and the same keys are missing for the service.  If this holds of all services, the same
services are configured.  In particular, another text for a key, where neither the old nor the new
one is empty, changes no error, no list of missing keys and not the services that are configured. -/
theorem errors_tell_presence_only (hpath : s.path = s'.path) :
  (∀ q : Query, (∀ key ∈ q.service.keys, (s.Has key ↔ s'.Has key)) →
    (((∃ b, q.run s = .ok b) ∧ ∃ b, q.run s' = .ok b) ∨
      ∃ key, q.run s = .error (.missing key q.service.label s.path) ∧
        q.run s' = .error (.missing key q.service.label s.path)) ∧
    s.missing q.service = s'.missing q.service) ∧
  ((∀ service : Service, ∀ key ∈ service.keys, (s.Has key ↔ s'.Has key)) →
    s.configured = s'.configured) ∧
  (∀ key value value' : String, value ≠ "" → value' ≠ "" →
    (∀ (q : Query) (e : Error),
      q.run (s.set key value) = .error e ↔ q.run (s.set key value') = .error e) ∧
    (∀ service, (s.set key value).missing service = (s.set key value').missing service) ∧
    (s.set key value).configured = (s.set key value').configured)
  := by
  refine ⟨fun q h => ⟨run_eq_ok_or_eq_error hpath h, Settings.missing_congr h⟩, fun h => ?_, ?_⟩
  · apply Settings.configured_congr fun service => Settings.missing_congr (h service)
  · intro key value value' hvalue hvalue'
    have hhas : ∀ k, (s.set key value).Has k ↔ (s.set key value').Has k := by
      intro k
      rw [Settings.has_set_iff hvalue, Settings.has_set_iff hvalue']
    have hmissing : ∀ service,
        (s.set key value).missing service = (s.set key value').missing service :=
      fun service => Settings.missing_congr fun k _ => hhas k
    refine ⟨fun q e => ?_, hmissing, Settings.configured_congr hmissing⟩
    have hrun := @run_eq_ok_or_eq_error (s.set key value) (s.set key value') q rfl fun k _ => hhas k
    rcases hrun with ⟨⟨b, hb⟩, b', hb'⟩ | ⟨k, hk, hk'⟩
    · rw [hb, hb']
      simp
    · rw [hk, hk']

/-- The token of AstraDB is not told from another one when the identifier is missing. -/
theorem errors_tell_presence_only_astraDB :
  (∀ key ∈ Service.astraDB.keys,
    (Settings.Has ⟨".env", (∅ : Values).insert "ASTRADB_APP_TOKEN" "a"⟩ key
      ↔ Settings.Has ⟨".env", (∅ : Values).insert "ASTRADB_APP_TOKEN" "another"⟩ key)) ∧
  astraDB.run ⟨".env", (∅ : Values).insert "ASTRADB_APP_TOKEN" "a"⟩
    = .error (.missing "ASTRADB_ID" "AstraDB" ".env") ∧
  astraDB.run ⟨".env", (∅ : Values).insert "ASTRADB_APP_TOKEN" "another"⟩
    = .error (.missing "ASTRADB_ID" "AstraDB" ".env")
  := by
  set s : Settings := ⟨".env", (∅ : Values).insert "ASTRADB_APP_TOKEN" "a"⟩ with hs
  set s' : Settings := ⟨".env", (∅ : Values).insert "ASTRADB_APP_TOKEN" "another"⟩ with hs'
  have hhas : ∀ key ∈ Service.astraDB.keys, (s.Has key ↔ s'.Has key) := by
    intro key _
    rw [hs, hs', Settings.has_singleton_iff (by decide), Settings.has_singleton_iff (by decide)]
  have herror : astraDB.run s = .error (.missing "ASTRADB_ID" "AstraDB" ".env") := by
    apply (astraDB.requires_read.eq_error_iff s _).mpr
    refine ⟨["ASTRADB_APP_TOKEN"], "ASTRADB_ID", _, rfl, ?_, ?_, rfl⟩
    · simp [hs, Settings.Has]
    · simp [hs, Settings.Has]
  have hpath : s.path = s'.path := rfl
  use hhas, herror
  rcases ((errors_tell_presence_only hpath).1 astraDB hhas).1 with ⟨⟨b, hb⟩, -⟩ | ⟨key, hkey, hkey'⟩
  · rw [hb] at herror
    cases herror
  · rw [hkey', ← hkey, herror]

end Query

end Credentials
