import Credentials.Session
import Credentials.Proofs.Client
import Credentials.Proofs.Query
import Credentials.Proofs.Service
import Credentials.Proofs.StoredFile
import Credentials.Proofs.EnvFile.LastAssignment
import Credentials.Proofs.Text.Utf8

/-!
# What a session remembers

A session remembers its files and the path of its client, and nothing else.  A step that asks
something leaves both as they are (`Session.step_of_isQuestion`), and only a step that renews the
client changes its path (`Session.client_step`).  Hence steps that ask may be left out of a run, and
the others answer as before (`Session.run_kept`).

A file that has been written stays in the tree until a step disturbs it (`Session.stores_run`), and as
long as it does a client of that file answers as its text says.
-/

namespace Credentials

namespace Step

/-- Whether a step asks something, and neither changes the tree nor renews the client. -/
def isQuestion : Step → Bool
  | path | call _ | check _ | configured | read _ => true
  | renew _ | write .. | makeDirectory _ | remove _ => false

/-- Whether a step renews the client. -/
def isRenewal : Step → Bool
  | renew _ => true
  | _ => false

/-- Whether a step, seen from `home`, writes the file at the path `p`, or removes it or a place that
contains it. -/
def disturbs (home p : Path) : Step → Bool
  | write place _ => home.follow place.toList = p
  | remove place => (home.follow place.toList).isAbove p
  | _ => false

end Step

namespace Session

/-- The items of a marked list that have the mark. -/
def kept {α : Type} (marked : List (α × Bool)) : List α :=
  (marked.filter (·.2)).map (·.1)

/-- A client answers every question from the settings. -/
structure AnswersFrom (home : Path) (s : Session) (settings : Settings) : Prop where
  call : ∀ m, (s.step home (.call m)).2 = .of .bundle (m.query.run settings)
  check : ∀ service : Service, (s.step home (.check service.id)).2 = .keys (settings.missing service)
  configured : ∃ services : List Service, services.map Service.id = Service.identifiers ∧
    (s.step home .configured).2
      = .services (services.filter fun service => settings.missing service = [])

/-- A client answers every question with the error. -/
structure FailsWith (home : Path) (s : Session) (e : Error) : Prop where
  call : ∀ m, (s.step home (.call m)).2 = .failed e
  check : ∀ id, (s.step home (.check id)).2 = .failed e
  configured : (s.step home .configured).2 = .failed e

variable {home p : Path} {s : Session} {a : Step} {as : List Step} {octets : List UInt8}

/-! ### One step -/

theorem step_of_isQuestion (s : Session) (h : a.isQuestion = true) :
  (s.step home a).1 = s
  := by
  cases a with
  | path | call _ | check _ | configured | read _ => rfl
  | renew _ | write _ _ | makeDirectory _ | remove _ => cases h

theorem client_change (s : Session) (t? : Option FileTree) :
  (s.change t?).1.client = s.client
  := by
  cases t? <;> rfl

/-- Only a step that renews the client changes it. -/
theorem client_step (s : Session) (h : a.isRenewal = false) :
  (s.step home a).1.client = s.client
  := by
  cases a with
  | renew _ => cases h
  | write _ _ | makeDirectory _ | remove _ => apply client_change
  | path | call _ | check _ | configured | read _ => rfl

/-- A file stays in the tree if it does so whenever the change is not refused. -/
theorem stores_change {t? : Option FileTree} (h : s.tree.Stores p octets)
    (hchange : ∀ t, t? = some t → t.Stores p octets) :
  (s.change t?).1.tree.Stores p octets
  := by
  cases t? with
  | none => apply h
  | some t => apply hchange t rfl

/-- A file stays in the tree if a step does not disturb it. -/
theorem stores_step (h : s.tree.Stores p octets) (ha : a.disturbs home p = false) :
  (s.step home a).1.tree.Stores p octets
  := by
  cases a with
  | write path octets' =>
    apply stores_change h
    intro t
    apply h.write? (of_decide_eq_false ha)
  | makeDirectory path =>
    apply stores_change h
    intro t
    apply h.makeDirectory?
  | remove path =>
    apply h.remove
    rw [Bool.not_eq_true]
    apply ha
  | renew _ | path | call _ | check _ | configured | read _ => apply h

/-- A write that is not refused stores its octets. -/
theorem stores_write {path : String} (h : (s.step home (.write path octets)).2 = .done) :
  (s.step home (.write path octets)).1.tree.Stores (home.follow path.toList) octets
  := by
  rw [step] at h ⊢
  cases hwrite : s.tree.write? (home.follow path.toList) octets with
  | none =>
    rw [hwrite] at h
    cases h
  | some t => apply FileTree.stores_of_write? hwrite

/-! ### Runs -/

/-- What each step of a run preserves, the run preserves. -/
theorem run_invariant {P : Session → Prop} (hstep : ∀ a ∈ as, ∀ s, P s → P (s.step home a).1)
    (h : P s) :
  P (s.run home as).1
  := by
  induction as generalizing s with
  | nil => apply h
  | cons a as ih =>
    obtain ⟨ha, has⟩ := List.forall_mem_cons.mp hstep
    apply ih has (ha s h)

theorem run_of_isQuestion (s : Session) (h : ∀ a ∈ as, a.isQuestion = true) :
  (s.run home as).1 = s
  := by
  apply run_invariant (P := fun s' => s' = s) _ rfl
  intro a ha s' hs'
  rw [s'.step_of_isQuestion (h a ha), hs']

theorem client_run (s : Session) (h : ∀ a ∈ as, a.isRenewal = false) :
  (s.run home as).1.client = s.client
  := by
  apply run_invariant (P := fun s' => s'.client = s.client) _ rfl
  intro a ha s' hs'
  rw [s'.client_step (h a ha), hs']

/-- A file stays in the tree as long as no step disturbs it. -/
theorem stores_run (h : s.tree.Stores p octets) (has : ∀ a ∈ as, a.disturbs home p = false) :
  (s.run home as).1.tree.Stores p octets
  := by
  apply run_invariant (P := fun s' => s'.tree.Stores p octets) _ h
  intro a ha s' hs'
  apply stores_step hs' (has a ha)

/-- Leaving out steps that ask changes neither the session that a run ends in nor the answers to the
steps that are kept. -/
theorem run_kept (s : Session) {marked : List (Step × Bool)}
    (h : ∀ m ∈ marked, m.2 = false → m.1.isQuestion = true) :
  s.run home (kept marked)
    = ((s.run home (marked.map (·.1))).1,
      kept ((s.run home (marked.map (·.1))).2.zip (marked.map (·.2))))
  := by
  induction marked generalizing s with
  | nil => rfl
  | cons m marked ih =>
    obtain ⟨hm, hmarked⟩ := List.forall_mem_cons.mp h
    obtain ⟨a, mark⟩ := m
    cases mark with
    | true =>
      have hkept : kept ((a, true) :: marked) = a :: kept marked := rfl
      rw [hkept, run, ih _ hmarked]
      rfl
    | false =>
      have hkept : kept ((a, false) :: marked) = kept marked := rfl
      rw [hkept, List.map_cons, run, s.step_of_isQuestion (hm rfl), ih _ hmarked]
      rfl

/-! ### Answers -/

/-- A client of a stored file loads the settings in its text. -/
theorem load_of_stores {text : String} (hplain : s.client.path.IsPlain)
    (h : s.tree.Stores s.client.path (Text.Utf8.encode text.toList)) :
  s.client.load s.tree = .ok (.ofText s.client.source text)
  := by
  have hread : s.tree.read .root s.client.source.toList = .ok (Text.Utf8.encode text.toList) := by
    rw [Client.source, String.toList_ofList, h.read_text hplain]
  rw [Client.load_of_read_eq_ok hread, Text.Utf8.decode_encode, String.ofList_toList]

/-- A client of a file that has just been written loads the settings in its text. -/
theorem load_of_write {path text : String} (hhome : home.IsPlain)
    (hpath : s.client.path = home.follow path.toList)
    (hdone : (s.step home (.write path (Text.Utf8.encode text.toList))).2 = .done) :
  s.client.load (s.step home (.write path (Text.Utf8.encode text.toList))).1.tree
    = .ok (.ofText s.client.source text)
  := by
  have hclient := @client_step home (.write path (Text.Utf8.encode text.toList)) s rfl
  have hstores := stores_write hdone
  rw [← hpath, ← hclient] at hstores
  rw [← hclient]
  apply load_of_stores _ hstores
  rw [hclient, hpath]
  apply hhome.follow

theorem check_id (s : Session) (service : Service) :
  s.check service.id = .of .keys (s.client.check s.tree service)
  := by
  rw [check, Service.ofId?_id]

theorem answersFrom_of_load {settings : Settings} (h : s.client.load s.tree = .ok settings) :
  s.AnswersFrom home settings
  where
  call m := by rw [step, Client.call_of_load_eq_ok h]
  check service := by
    rw [step, check_id, Client.check_of_load_eq_ok h]
    rfl
  configured := by
    have hconfigured : settings.configured
        = Service.all.filter fun service => settings.missing service = [] := by
      apply List.filter_congr
      intro service _
      rw [Bool.eq_iff_iff, List.isEmpty_iff, decide_eq_true_iff]
    use Service.all, Service.map_id_all
    rw [step, Client.configured_of_load_eq_ok h, hconfigured]
    rfl

theorem failsWith_of_load {e : Error} (h : s.client.load s.tree = .error e) :
  s.FailsWith home e
  where
  call m := by
    rw [step, Client.call_of_load_eq_error h]
    rfl
  check id := by
    rw [step, Session.check]
    cases Service.ofId? id with
    | none => simp only [h, Answer.of]
    | some service => simp only [Client.check_of_load_eq_error h, Answer.of]
  configured := by
    rw [step, Client.configured_of_load_eq_error h]
    rfl

/-- A run changes the client only by a step that renews it.  Steps that ask leave the session as it
is, so that any of them may be left out of a run, or put into it, and the other steps answer the same.
Once a text has been written to a file, and as long as no step writes the file again or removes it or
a place that contains it, a client of this file answers every question from the settings in the text.
A client whose file cannot be read answers every question with the error that says so. -/
theorem client_holds_nothing (home : Path) (s : Session) :
  (∀ as : List Step, (∀ a ∈ as, a.isRenewal = false) → (s.run home as).1.client = s.client) ∧
  (∀ as : List Step, (∀ a ∈ as, a.isQuestion = true) → (s.run home as).1 = s) ∧
  (∀ marked : List (Step × Bool), (∀ m ∈ marked, m.2 = false → m.1.isQuestion = true) →
    (s.run home (kept marked)).1 = (s.run home (marked.map (·.1))).1 ∧
    (s.run home (kept marked)).2
      = kept ((s.run home (marked.map (·.1))).2.zip (marked.map (·.2)))) ∧
  (∀ (path text : String) (as : List Step) (s' : Session), home.IsPlain →
    (s.step home (.write path (Text.Utf8.encode text.toList))).2 = .done →
    (∀ a ∈ as, a.disturbs home (home.follow path.toList) = false) →
    s' = ((s.step home (.write path (Text.Utf8.encode text.toList))).1.run home as).1 →
    s'.client.path = home.follow path.toList →
    s'.AnswersFrom home (.ofText s'.client.source text)) ∧
  (∀ fault, s.tree.read .root s.client.source.toList = .error fault →
    s.FailsWith home (.unreadable s.client.source (fault.detail s.client.source)))
  := by
  refine ⟨fun as => s.client_run, fun as => s.run_of_isQuestion, ?_, ?_, ?_⟩
  · intro marked h
    rw [s.run_kept h]
    use rfl
  · rintro path text as s' hhome hdone has rfl hpath
    apply answersFrom_of_load
    apply load_of_stores
    · rw [hpath]
      apply hhome.follow
    · rw [hpath]
      apply stores_run (stores_write hdone) has
  · intro fault hread
    apply failsWith_of_load (Client.load_of_read_eq_error hread)

/-- A session that writes a key of Bing Search, makes a directory, asks for the services, renews its
client and removes the directory still answers with the key. -/
theorem client_holds_nothing_bingSearch :
  ((start ⟨["work".toList]⟩).step ⟨["work".toList]⟩
    (.write ".env" (Text.Utf8.encode "BING_API_KEY=k".toList))).2 = .done ∧
  (∀ a ∈ [.makeDirectory "logs", .configured, .renew {}, .remove "logs"],
    Step.disturbs ⟨["work".toList]⟩ ⟨["work".toList, ".env".toList]⟩ a = false) ∧
  ((((start ⟨["work".toList]⟩).step ⟨["work".toList]⟩
    (.write ".env" (Text.Utf8.encode "BING_API_KEY=k".toList))).1.run ⟨["work".toList]⟩
      [.makeDirectory "logs", .configured, .renew {}, .remove "logs"]).1.step ⟨["work".toList]⟩
        (.call .bingSearch)).2 = .bundle (.text "k")
  := by
  have hplain : (⟨["work".toList]⟩ : Path).IsPlain := by
    rw [Path.IsPlain]
    decide
  have hdone : ((start ⟨["work".toList]⟩).step ⟨["work".toList]⟩
      (.write ".env" (Text.Utf8.encode "BING_API_KEY=k".toList))).2 = .done := rfl
  have hsteps : ∀ a ∈ [.makeDirectory "logs", .configured, .renew {}, .remove "logs"],
      Step.disturbs ⟨["work".toList]⟩ ⟨["work".toList, ".env".toList]⟩ a = false := by
    decide
  have hkey : EnvFile.parse "BING_API_KEY=k" = (∅ : Values).insert "BING_API_KEY" "k" :=
    @EnvFile.parse_ofList_key_append "BING_API_KEY".toList "k".toList "k".toList (by decide)
      (by decide) (by decide) (by decide)
  have hrun : ∀ path, Query.bingSearch.run (.ofText path "BING_API_KEY=k") = .ok (.text "k") := by
    intro path
    apply (Query.bingSearch.requires_read.eq_ok_iff _ _).mpr
    simp [Settings.ofText, hkey, Query.required, Query.layout, Layout.fill, Settings.Has,
      Settings.textOf, Settings.text?, Option.filter]
  use hdone, hsteps
  have hanswers := (client_holds_nothing ⟨["work".toList]⟩ (start ⟨["work".toList]⟩)).2.2.2.1 ".env"
    "BING_API_KEY=k" [.makeDirectory "logs", .configured, .renew {}, .remove "logs"] _ hplain hdone
    hsteps rfl (by decide)
  rw [hanswers.call, Method.query, hrun]
  rfl

end Session

end Credentials
