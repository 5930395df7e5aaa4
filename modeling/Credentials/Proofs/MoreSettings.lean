import Mathlib.Data.List.Basic
import Credentials.Proofs.Dependence

/-!
# What more settings change

Settings are kept by others in which every key of the catalog that has a text has the same value,
whatever else the others have (`Settings.KeptBy`).  No key goes missing then that was not missing
before, and every service that was configured still is.

A query that was answered is still answered, and its answer keeps its form and its texts
(`Query.Grows`).  Only a few places in the answers may be open, each for the text of one key
(`Query.openPlaces`), and the text of this key is all that can come to stand there
(`Query.more_settings_keep_answers`).
-/

namespace Credentials

/-! ### The places of a bundle -/

namespace Bundle

/-- The texts of a bundle, place by place.  A slot of a tuple may have none. -/
def parts : Bundle → List (Option String)
  | text value => [some value]
  | tuple slots => slots
  | record fields => fields.map fun f => some f.2.value

/-- The form of a bundle, which is the bundle without its texts. -/
def form : Bundle → Bundle
  | text _ => text ""
  | tuple slots => tuple (slots.map fun _ => none)
  | record fields => record (fields.map fun f => (f.1, f.2.map fun _ => ""))

end Bundle

namespace Slot

/-- The key of a slot that may be open. -/
def openKey? : Slot → Option String
  | optional key | orEmpty key => some key
  | required _ | unset => none

end Slot

namespace Field

@[simp]
theorem value_map (f : String → String) (field : Field) :
  (field.map f).value = f field.value
  := by
  cases field <;> rfl

@[simp]
theorem map_map (f g : String → String) (field : Field) :
  (field.map f).map g = field.map (g ∘ f)
  := by
  cases field <;> rfl

end Field

namespace Layout

/-- The slots of a layout, place by place. -/
def slots : Layout → List Slot
  | text key => [.required key]
  | tuple slots => slots
  | record fields => fields.map fun f => .required f.2.value

theorem parts_fill (l : Layout) (s : Settings) :
  (l.fill s).parts = l.slots.map (Slot.fill s)
  := by
  cases l with
  | text key => rfl
  | tuple slots => rfl
  | record fields => simp [fill, Bundle.parts, slots, Slot.fill]

/-- The form in which a layout is filled does not depend on the settings. -/
theorem form_fill (l : Layout) (s s' : Settings) :
  (l.fill s').form = (l.fill s).form
  := by
  cases l with
  | text key => rfl
  | tuple slots => simp [fill, Bundle.form]
  | record fields => simp [fill, Bundle.form, Function.comp_def]

theorem mem_lookups_of_mem_slots {l : Layout} {slot : Slot} (h : slot ∈ l.slots) {key : String}
    (hkey : slot.lookup? = some key) :
  key ∈ l.lookups
  := by
  cases l with
  | text k =>
    obtain rfl := List.mem_singleton.mp h
    obtain rfl := Option.some.inj hkey
    apply List.mem_singleton_self
  | tuple slots => apply List.mem_filterMap.mpr ⟨slot, h, hkey⟩
  | record fields =>
    obtain ⟨f, hf, rfl⟩ := List.mem_map.mp h
    obtain rfl := Option.some.inj hkey
    apply List.mem_map.mpr ⟨f, hf, rfl⟩

theorem mem_keys_of_mem_slots {l : Layout} {key : String} (h : Slot.required key ∈ l.slots) :
  key ∈ l.keys
  := by
  cases l with
  | text k =>
    obtain rfl := Slot.required.inj (List.mem_singleton.mp h)
    apply List.mem_singleton_self
  | tuple slots =>
    have hkey : (Slot.required key).key? = some key := rfl
    apply List.mem_filterMap.mpr ⟨_, h, hkey⟩
  | record fields =>
    obtain ⟨f, hf, heq⟩ := List.mem_map.mp h
    obtain rfl := Slot.required.inj heq
    apply List.mem_map.mpr ⟨f, hf, rfl⟩

end Layout

/-! ### Settings that keep others -/

variable {s s' : Settings}

namespace Settings

/-- Every key of the catalog that has a text in `s` has the same value in `s'`. -/
def KeptBy (s s' : Settings) : Prop :=
  ∀ service : Service, ∀ key ∈ service.keys, s.Has key → s'.values[key]? = s.values[key]?

/-- Settings are kept when a text is set under a key that they do not have. -/
theorem keptBy_set {key : String} (h : ¬ s.Has key) (value : String) :
  s.KeptBy (s.set key value)
  := by
  intro service k _ hk
  have hne : key ≠ k := by
    rintro rfl
    apply h hk
  simp [set, Std.ExtTreeMap.getElem?_insert, hne]

theorem KeptBy.text?_eq (h : s.KeptBy s') {service : Service} {key : String}
    (hkey : key ∈ service.keys) (hhas : s.Has key) :
  s'.text? key = s.text? key
  := by
  rw [text?, text?, h service key hkey hhas]

theorem KeptBy.has (h : s.KeptBy s') {service : Service} {key : String} (hkey : key ∈ service.keys)
    (hhas : s.Has key) :
  s'.Has key
  := by
  rw [Has, h service key hkey hhas]
  apply hhas

/-- No key goes missing. -/
theorem KeptBy.missing_sublist (h : s.KeptBy s') (service : Service) :
  (s'.missing service).Sublist (s.missing service)
  := by
  have hfilter : s'.missing service
      = (s.missing service).filter fun key => (s'.text? key).isNone := by
    rw [missing, missing, List.filter_filter]
    apply List.filter_congr
    intro key hkey
    rw [Bool.eq_iff_iff, Bool.and_eq_true, isNone_text?_iff, isNone_text?_iff, iff_self_and]
    exact mt (h.has (List.mem_append_left _ hkey))
  rw [hfilter]
  apply List.filter_sublist

/-- Every service that was configured still is. -/
theorem KeptBy.configured_sublist (h : s.KeptBy s') :
  s.configured.Sublist s'.configured
  := by
  apply List.monotone_filter_right
  intro service hmissing
  rw [List.isEmpty_iff] at hmissing ⊢
  apply List.eq_nil_of_sublist_nil
  rw [← hmissing]
  apply h.missing_sublist

end Settings

/-- A key whose text is kept has the same text as before, or it had none. -/
theorem Settings.text?_eq_or_has {key : String} (h : s.Has key → s'.text? key = s.text? key) :
  s'.text? key = s.text? key ∨ s.text? key = none ∧ s'.Has key
  := by
  by_cases hs : s.Has key
  · left
    apply h hs
  by_cases hs' : s'.Has key
  · right
    use Option.isNone_iff_eq_none.mp (isNone_text?_iff.mpr hs)
  · left
    rw [Option.isNone_iff_eq_none.mp (isNone_text?_iff.mpr hs),
      Option.isNone_iff_eq_none.mp (isNone_text?_iff.mpr hs')]

/-- A slot is filled as before, or it may be open, and is filled with a text of its key, which had
none before. -/
theorem Slot.fill_eq_or_open {slot : Slot}
    (hkept : ∀ key, slot.lookup? = some key → s.Has key → s'.text? key = s.text? key)
    (hrequired : ∀ key, slot = .required key → s.Has key) :
  slot.fill s' = slot.fill s ∨
    ∃ key, slot.openKey? = some key ∧ (slot.fill s).getD "" = "" ∧ s'.Has key ∧
      slot.fill s' = some (s'.textOf key)
  := by
  cases slot with
  | required key =>
    left
    rw [fill, fill, Settings.textOf, Settings.textOf, hkept key rfl (hrequired key rfl)]
  | optional key =>
    apply (Settings.text?_eq_or_has (hkept key rfl)).imp_right
    rintro ⟨hnone, hhas⟩
    refine ⟨key, rfl, ?_, hhas, hhas.text?_eq⟩
    rw [fill, hnone]
    rfl
  | orEmpty key =>
    rcases Settings.text?_eq_or_has (hkept key rfl) with heq | ⟨hnone, hhas⟩
    · left
      rw [fill, fill, Settings.textOf, Settings.textOf, heq]
    · right
      refine ⟨key, rfl, ?_, hhas, rfl⟩
      rw [fill, Settings.textOf, hnone]
      rfl
  | unset =>
    left
    rfl

namespace Query

/-- The places in the answer to a query that may be open, each with the key whose text it is for. -/
def openPlaces : Query → List (Nat × String)
  | openAI => [(1, "OPENAI_ORG_ID")]
  | azureOpenAI o =>
    if o.includeDeployment.getD true then [] else [(0, "AZURE_OPENAI_DEPLOYMENT_NAME")]
  | weaviate => [(0, "WEAVIATE_API_KEY")]
  | azureCosmosDB => [(0, "AZCOSMOS_API")]
  | _ => []

/-- The answer `b'` to a query from the settings `s'` has the form of `b` and every text of `b` at
its place.  A place that has none, or an empty one, stays as it is, or it is an open place of the
query that has the text of its key. -/
structure Grows (q : Query) (s' : Settings) (b b' : Bundle) : Prop where
  form_eq : b'.form = b.form
  text_eq : ∀ (i : Nat) (value : String), b.parts[i]? = some (some value) → value ≠ "" →
    b'.parts[i]? = some (some value)
  open_eq : ∀ (i : Nat) (part : Option String), b.parts[i]? = some part → part.getD "" = "" →
    b'.parts[i]? = some part ∨ ∃ key value, (i, key) ∈ q.openPlaces ∧
      s'.values[key]? = some value ∧ value ≠ "" ∧ b'.parts[i]? = some (some value)

/-- The slots of a query that may be open are at its open places. -/
theorem mem_openPlaces {q : Query} {i : Nat} {slot : Slot} {key : String}
    (hslot : q.layout.slots[i]? = some slot) (hkey : slot.openKey? = some key) :
  (i, key) ∈ q.openPlaces
  := by
  have hall : ∀ q ∈ all, ∀ p ∈ q.layout.slots.zipIdx, ∀ key ∈ p.1.openKey?,
      (p.2, key) ∈ q.openPlaces := by
    decide
  apply hall q q.mem_all (slot, i) _ key hkey
  apply List.mk_mem_zipIdx_iff_getElem?.mpr hslot

variable {q : Query} {b : Bundle}

/-- Every place of the answer to a query is filled as before, or it is an open place and is filled
with a text of its key. -/
theorem part_eq_or_open (h : s.KeptBy s') (hs : ∀ key ∈ q.required, s.Has key) {i : Nat}
    {part : Option String} (hpart : (q.layout.fill s).parts[i]? = some part) :
  (q.layout.fill s').parts[i]? = some part ∨
    part.getD "" = "" ∧ ∃ key, (i, key) ∈ q.openPlaces ∧ s'.Has key ∧
      (q.layout.fill s').parts[i]? = some (some (s'.textOf key))
  := by
  rw [Layout.parts_fill, List.getElem?_map, Option.map_eq_some_iff] at hpart
  obtain ⟨slot, hslot, rfl⟩ := hpart
  have hmem : slot ∈ q.layout.slots := List.mem_of_getElem? hslot
  have hkept : ∀ key, slot.lookup? = some key → s.Has key → s'.text? key = s.text? key :=
    fun key hkey => h.text?_eq (q.lookups_subset_keys (Layout.mem_lookups_of_mem_slots hmem hkey))
  have hrequired : ∀ key, slot = .required key → s.Has key := by
    rintro key rfl
    apply hs key (q.keys_layout_perm.mem_iff.mp (Layout.mem_keys_of_mem_slots hmem))
  rw [Layout.parts_fill, List.getElem?_map, hslot, Option.map_some]
  apply (Slot.fill_eq_or_open hkept hrequired).imp
  · apply congrArg some
  · rintro ⟨key, hopen, hempty, hhas, heq⟩
    use hempty, key, mem_openPlaces hslot hopen, hhas, congrArg some heq

/-- A query that is answered is answered from more settings too, and its answer grows. -/
theorem exists_grows_of_keptBy (h : s.KeptBy s') (hb : q.run s = .ok b) :
  ∃ b', q.run s' = .ok b' ∧ q.Grows s' b b'
  := by
  obtain ⟨hs, rfl⟩ := (q.requires_read.eq_ok_iff s b).mp hb
  use q.layout.fill s'
  constructor
  · apply (q.requires_read.eq_ok_iff s' _).mpr
    use fun key hkey => h.has (q.subset_catalog hkey) (hs key hkey)
  · constructor
    · apply q.layout.form_fill
    · intro i value hvalue hne
      apply (part_eq_or_open h hs hvalue).resolve_right
      rintro ⟨hempty, -⟩
      apply hne hempty
    · intro i part hpart _
      apply (part_eq_or_open h hs hpart).imp_right
      rintro ⟨-, key, hplace, hhas, heq⟩
      use key, s'.textOf key, hplace, hhas.getElem?_eq.1, hhas.getElem?_eq.2

/-- Where settings are kept by others, the keys that are missing for a service from the others are
missing from the settings too, the services that the settings configure are configured by the
others, in the same order, and every query that the settings answer is answered by the others with
a bundle of the same form, in which no text has changed and only open places may have a text
more. -/
theorem more_settings_keep_answers (h : s.KeptBy s') :
  (∀ service, (s'.missing service).Sublist (s.missing service)) ∧
  s.configured.Sublist s'.configured ∧
  ∀ (q : Query) (b : Bundle), q.run s = .ok b → ∃ b', q.run s' = .ok b' ∧ q.Grows s' b b'
  := ⟨h.missing_sublist, h.configured_sublist, fun _ _ => exists_grows_of_keptBy h⟩

/-- The organization of OpenAI comes to its open place, and the key stays where it is. -/
theorem more_settings_keep_answers_organization :
  Settings.KeptBy ⟨".env", (∅ : Values).insert "OPENAI_API_KEY" "k"⟩
    ⟨".env", ((∅ : Values).insert "OPENAI_API_KEY" "k").insert "OPENAI_ORG_ID" "o"⟩ ∧
  openAI.run ⟨".env", (∅ : Values).insert "OPENAI_API_KEY" "k"⟩ = .ok (.tuple [some "k", none]) ∧
  openAI.run ⟨".env", ((∅ : Values).insert "OPENAI_API_KEY" "k").insert "OPENAI_ORG_ID" "o"⟩
    = .ok (.tuple [some "k", some "o"]) ∧
  openAI.Grows ⟨".env", ((∅ : Values).insert "OPENAI_API_KEY" "k").insert "OPENAI_ORG_ID" "o"⟩
    (.tuple [some "k", none]) (.tuple [some "k", some "o"])
  := by
  set s : Settings := ⟨".env", (∅ : Values).insert "OPENAI_API_KEY" "k"⟩ with hs
  have hkept : s.KeptBy (s.set "OPENAI_ORG_ID" "o") := by
    apply Settings.keptBy_set
    simp [hs, Settings.has_singleton_iff]
  have hrun : openAI.run s = .ok (.tuple [some "k", none]) := by
    apply (openAI.requires_read.eq_ok_iff s _).mpr
    simp [hs, required, layout, Layout.fill, Slot.fill, Settings.Has, Settings.textOf,
      Settings.text?, Option.filter, Std.ExtTreeMap.getElem?_insert]
  have hrun' : openAI.run (s.set "OPENAI_ORG_ID" "o") = .ok (.tuple [some "k", some "o"]) := by
    apply (openAI.requires_read.eq_ok_iff (s.set "OPENAI_ORG_ID" "o") _).mpr
    simp [hs, required, layout, Layout.fill, Slot.fill, Settings.Has, Settings.textOf,
      Settings.text?, Option.filter, Settings.set, Std.ExtTreeMap.getElem_insert]
  obtain ⟨b', hb', hgrows⟩ := (more_settings_keep_answers hkept).2.2 openAI _ hrun
  obtain rfl := Except.ok.inj (hrun'.symm.trans hb')
  exact ⟨hkept, hrun, hrun', hgrows⟩

end Query

end Credentials
