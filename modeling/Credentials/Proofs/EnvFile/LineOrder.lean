import Mathlib.Data.List.Basic
import Mathlib.Data.List.OfFn
import Mathlib.Logic.Equiv.Basic
import Credentials.Proofs.EnvFile.LastAssignment

/-!
# The order of lines

A file is made of lines by putting line feeds between them, and the lines are read back from it
(`lines_fileOf`).  What the file gives to a key is what the last of the lines that assign the key
gives to it, so the order of lines matters only where two of them assign the same key
(`lastValue?_reordered`), and a line that assigns nothing, or only what is assigned again later, does
not matter at all (`lastValue?_append_cons_of_isIdle`).
-/

namespace Credentials.EnvFile

open Text

variable {key : Text} {n : Nat}

/-- The text is a line of its own where a line feed follows it: it contains no line feed, and no
carriage return at its end goes with the line feed. -/
structure IsLine (l : Text) : Prop where
  feed_not_mem : '\n' ∉ l
  getLast?_ne : l.getLast? ≠ some '\r'

/-- The file with the lines, which has a line feed between any two of them. -/
def fileOf (ls : List Text) : String :=
  String.ofList (['\n'].intercalate ls)

/-- The lines in another order, in which the line at a place is the one that was at the place to
which the permutation sends it. -/
def reordered (ls : List Text) (σ : Equiv.Perm (Fin ls.length)) : List Text :=
  List.ofFn fun i => ls.get (σ i)

/-- Lines that assign the same key are in the same order as before. -/
def KeepsOrder (ls : List Text) (σ : Equiv.Perm (Fin ls.length)) : Prop :=
  ∀ i j key text text', i < j → Assigns (ls.get (σ i)) key text → Assigns (ls.get (σ j)) key text' →
    σ i < σ j

/-- The line does not matter where the lines `after` follow it: it is blank, a comment, or otherwise
no assignment, or one of those lines assigns its key again. -/
inductive IsIdle (l : Text) (after : List Text) : Prop where
  | blank (h : AllBlank l)
  | comment (h : (trimStart l).head? = some '#')
  | noAssignment (h : ∀ key text, ¬ Assigns l key text)
  | replaced (key text line text' : Text) (h : Assigns l key text) (hline : line ∈ after)
      (h' : Assigns line key text')

/-! ### The lines of a file -/

/-- The lines of which a file is made are read back from it. -/
theorem lines_fileOf {ls : List Text} (hne : ls ≠ []) (h : ∀ l ∈ ls, IsLine l) :
  lines (fileOf ls).toList = ls
  := by
  rw [fileOf, String.toList_ofList]
  induction ls with
  | nil => apply absurd rfl hne
  | cons l ls ih =>
    have hl := h l List.mem_cons_self
    cases ls with
    | nil =>
      rw [List.intercalate_singleton]
      apply lines_of_not_mem hl.feed_not_mem
    | cons l' ls =>
      have hls := ih (List.cons_ne_nil l' ls) fun m hm => h m (List.mem_cons_of_mem l hm)
      rw [List.intercalate_cons_cons, List.append_assoc]
      apply (lines_append_feed hl.feed_not_mem _).trans
      rw [withoutReturn, if_neg hl.getLast?_ne]
      apply congrArg (l :: ·) hls

/-- A file gives each key the last value of its lines. -/
theorem getElem?_parse_fileOf {ls : List Text} (h : ∀ l ∈ ls, IsLine l) {key : String}
    (hkey : key ≠ Member.parentName) :
  (parse (fileOf ls))[key]? = (lastValue? key.toList ls).map String.ofList
  := by
  rw [getElem?_parse _ hkey]
  cases ls with
  | nil => rfl
  | cons l ls => rw [lines_fileOf (List.cons_ne_nil l ls) h]

/-- Files give the same values if their lines give the same last values to keys. -/
theorem parse_fileOf_congr {ls ls' : List Text} (h : ∀ l ∈ ls, IsLine l) (h' : ∀ l ∈ ls', IsLine l)
    (hlast : ∀ key, lastValue? key ls = lastValue? key ls') :
  parse (fileOf ls) = parse (fileOf ls')
  := by
  apply Std.ExtTreeMap.ext_getElem?
  intro key
  by_cases hkey : key = Member.parentName
  · rw [hkey, getElem?_parse_parentName, getElem?_parse_parentName]
  · rw [getElem?_parse_fileOf h hkey, getElem?_parse_fileOf h' hkey, hlast]

/-- A line that gives a value to a key assigns the key. -/
theorem IsLine.exists_assigns {l value : Text} (hl : IsLine l) (h : valueIn? key l = some value) :
  ∃ text, Assigns l key text
  := by
  obtain ⟨text, ha, -⟩ := (assigned?_eq_some_iff hl.feed_not_mem).mp (valueIn?_eq_some_iff.mp h)
  use text

/-! ### Lines in another order -/

theorem lastValue?_ofFn_eq_none_iff {f : Fin n → Text} :
  lastValue? key (List.ofFn f) = none ↔ ∀ i, valueIn? key (f i) = none
  := by
  simp [lastValue?]

/-- The last value of a key is that of a line which gives it one, and after which no line does. -/
theorem lastValue?_ofFn_eq_some_iff {f : Fin n → Text} {value : Text} :
  lastValue? key (List.ofFn f) = some value ↔
    ∃ i, valueIn? key (f i) = some value ∧ ∀ j, i < j → valueIn? key (f j) = none
  := by
  induction n with
  | zero => simp [lastValue?]
  | succ n ih =>
    rw [List.ofFn_succ, lastValue?_cons, Option.or_eq_some_iff, ih, lastValue?_ofFn_eq_none_iff,
      Fin.exists_fin_succ]
    simp [Fin.forall_fin_succ, and_comm, or_comm]

/-- The order of lines does not matter to the last values of keys if lines that assign the same key
keep theirs. -/
theorem lastValue?_reordered {ls : List Text} {σ : Equiv.Perm (Fin ls.length)}
    (h : ∀ l ∈ ls, IsLine l) (hσ : KeepsOrder ls σ) (key : Text) :
  lastValue? key (reordered ls σ) = lastValue? key ls
  := by
  have hget : lastValue? key ls = lastValue? key (List.ofFn ls.get) := by rw [List.ofFn_get]
  rw [hget, reordered]
  cases hlast : lastValue? key (List.ofFn ls.get) with
  | none =>
    rw [lastValue?_ofFn_eq_none_iff] at hlast ⊢
    intro i
    apply hlast
  | some value =>
    rw [lastValue?_ofFn_eq_some_iff] at hlast ⊢
    obtain ⟨i, hvalue, hafter⟩ := hlast
    use σ.symm i
    rw [σ.apply_symm_apply]
    use hvalue
    intro j hj
    -- a line after the last one would have come after it before, too
    by_contra hne
    obtain ⟨value', hvalue'⟩ := Option.ne_none_iff_exists'.mp hne
    obtain ⟨text, ha⟩ := (h _ (ls.get_mem i)).exists_assigns hvalue
    obtain ⟨text', ha'⟩ := (h _ (ls.get_mem (σ j))).exists_assigns hvalue'
    have hlt : σ (σ.symm i) < σ j := by
      apply hσ _ _ key text text' hj _ ha'
      rw [σ.apply_symm_apply]
      apply ha
    rw [σ.apply_symm_apply] at hlt
    apply hne (hafter (σ j) hlt)

/-! ### Lines that do not matter -/

/-- A line that does not begin with a key, but for blanks, assigns nothing. -/
theorem IsLine.not_assigns_of_endsKey {l : Text} (hl : IsLine l) (h : EndsKey (trimStart l))
    (key text : Text) :
  ¬ Assigns l key text
  := by
  have hnone : assignment.first l = none := by
    rw [first_assignment, run_exportMark_of_forall_ne]
    · apply run_keyAndText_of_endsKey h
    · intro g r _ heq
      rw [heq] at h
      apply absurd (endsKey_cons.mp h) (by decide)
  rw [← first_assignment_eq_some_iff hl.feed_not_mem, hnone]
  simp

/-- What a line that does not matter gives to a key is given again later. -/
theorem IsIdle.lastValue?_ne_none {l value : Text} {after : List Text} (h : IsIdle l after)
    (hl : IsLine l) (hafter : ∀ m ∈ after, IsLine m) (hvalue : valueIn? key l = some value) :
  lastValue? key after ≠ none
  := by
  obtain ⟨text, ha⟩ := hl.exists_assigns hvalue
  cases h with
  | blank h =>
    apply absurd ha (hl.not_assigns_of_endsKey _ key text)
    rw [trimStart_eq_nil_iff.mpr h]
    simp [EndsKey]
  | comment h =>
    apply absurd ha (hl.not_assigns_of_endsKey _ key text)
    intro c hc
    obtain rfl := Option.some.inj (h.symm.trans hc)
    rfl
  | noAssignment h => apply absurd ha (h key text)
  | replaced k t line text' h hline h' =>
    have heq := valueIn?_eq_some_iff.mp hvalue
    rw [h.assigned? hl.feed_not_mem] at heq
    obtain rfl : k = key := congrArg Prod.fst (Option.some.inj heq)
    rw [Ne, lastValue?_eq_none_iff fun m hm => (hafter m hm).feed_not_mem]
    intro hnone
    apply hnone line hline text' h'

/-- A line that does not matter can be left out. -/
theorem lastValue?_append_cons_of_isIdle {before after : List Text} {l : Text}
    (h : ∀ m ∈ before ++ l :: after, IsLine m) (hidle : IsIdle l after) (key : Text) :
  lastValue? key (before ++ l :: after) = lastValue? key (before ++ after)
  := by
  have hl : IsLine l := h l (by simp)
  have hafter : ∀ m ∈ after, IsLine m := fun m hm => h m (by simp [hm])
  rw [lastValue?_append, lastValue?_cons, lastValue?_append]
  cases hvalue : valueIn? key l with
  | none => rw [Option.or_none]
  | some value =>
    obtain ⟨value', hvalue'⟩ :=
      Option.ne_none_iff_exists'.mp (hidle.lastValue?_ne_none hl hafter hvalue)
    rw [hvalue']
    rfl

/-- A file gives the same values after its lines have been put into another order in which lines that
assign the same key keep theirs, and after a line has been put in or left out, at any place, that is
blank, a comment, or otherwise no assignment, or whose key a later line assigns again. -/
theorem parse_fileOf_reordered :
  (∀ (ls : List Text) (σ : Equiv.Perm (Fin ls.length)), (∀ l ∈ ls, IsLine l) → KeepsOrder ls σ →
    parse (fileOf (reordered ls σ)) = parse (fileOf ls)) ∧
  ∀ (before after : List Text) (l : Text), (∀ m ∈ before ++ l :: after, IsLine m) →
    IsIdle l after → parse (fileOf (before ++ l :: after)) = parse (fileOf (before ++ after))
  := by
  constructor
  · intro ls σ h hσ
    apply parse_fileOf_congr _ h (lastValue?_reordered h hσ)
    intro l hl
    obtain ⟨i, rfl⟩ := List.mem_ofFn.mp hl
    apply h _ (ls.get_mem (σ i))
  · intro before after l h hidle
    apply parse_fileOf_congr h _ (lastValue?_append_cons_of_isIdle h hidle)
    intro m hm
    apply h m
    rw [List.mem_append] at hm ⊢
    apply hm.imp_right (List.mem_cons_of_mem l)

/-- The two lines of one key may have that of another key between them, and the first of the two does
not matter. -/
theorem parse_fileOf_reordered_swap :
  (∀ l ∈ [['A', '=', '1'], ['A', '=', '2'], ['B', '=', '3']], IsLine l) ∧
  KeepsOrder [['A', '=', '1'], ['A', '=', '2'], ['B', '=', '3']] (Equiv.swap (1 : Fin 3) 2) ∧
  parse (fileOf [['A', '=', '1'], ['B', '=', '3'], ['A', '=', '2']])
    = parse (fileOf [['A', '=', '1'], ['A', '=', '2'], ['B', '=', '3']]) ∧
  IsIdle ['A', '=', '1'] [['A', '=', '2'], ['B', '=', '3']] ∧
  parse (fileOf [['A', '=', '1'], ['A', '=', '2'], ['B', '=', '3']])
    = parse (fileOf [['A', '=', '2'], ['B', '=', '3']])
  := by
  have hlines : ∀ l ∈ [['A', '=', '1'], ['A', '=', '2'], ['B', '=', '3']], IsLine l := by
    intro l hl
    constructor
    · revert l
      decide
    · revert l
      decide
  have hassigns : ∀ x y, isKeyChar x = true → AllInline [y] → Assigns [x, '=', y] [x] [y] :=
    fun x y hx hy => @assigns_of_key [] [] [x] [y] allBlank_nil ⟨List.cons_ne_nil x [], by simpa⟩
      allBlank_nil hy
  have hkeeps : KeepsOrder [['A', '=', '1'], ['A', '=', '2'], ['B', '=', '3']]
      (Equiv.swap (1 : Fin 3) 2) := by
    intro i j key text text' hij ha ha'
    have hall : ∀ i j : Fin 3, i < j →
        (assigned? ([['A', '=', '1'], ['A', '=', '2'], ['B', '=', '3']].get
          (Equiv.swap 1 2 i))).map Prod.fst
        = (assigned? ([['A', '=', '1'], ['A', '=', '2'], ['B', '=', '3']].get
            (Equiv.swap 1 2 j))).map Prod.fst →
        Equiv.swap (1 : Fin 3) 2 i < Equiv.swap 1 2 j := by
      decide
    apply hall i j hij
    rw [ha.assigned? (hlines _ (List.get_mem _ _)).feed_not_mem,
      ha'.assigned? (hlines _ (List.get_mem _ _)).feed_not_mem]
    rfl
  have hidle : IsIdle ['A', '=', '1'] [['A', '=', '2'], ['B', '=', '3']] :=
    .replaced ['A'] ['1'] ['A', '=', '2'] ['2'] (hassigns 'A' '1' rfl (by decide))
      List.mem_cons_self (hassigns 'A' '2' rfl (by decide))
  have hreordered : reordered [['A', '=', '1'], ['A', '=', '2'], ['B', '=', '3']]
      (Equiv.swap (1 : Fin 3) 2) = [['A', '=', '1'], ['B', '=', '3'], ['A', '=', '2']] := by
    decide
  use hlines, hkeeps
  constructor
  · rw [← hreordered]
    apply parse_fileOf_reordered.1 _ _ hlines hkeeps
  · use hidle
    apply parse_fileOf_reordered.2 [] _ _ hlines hidle

end Credentials.EnvFile
