import Mathlib.Tactic.Use
import Credentials.FileTree
import Credentials.Proofs.Path

/-!
# Files that stay where they are

A tree stores octets at a path if they are in a file there and all places that contain it are
directories (`Stores`).  Then they are what is read at the text of the path (`Stores.read_text`).  A
write stores its octets (`stores_of_write?`), and a file that is stored stays until it is written
again, or removed with one of the places that contain it (`Stores.write?`, `Stores.makeDirectory?`,
`Stores.remove`).
-/

namespace Credentials

/-! ### Places that contain a path -/

namespace Path

variable {p q : Path}

theorem mem_ancestors_iff :
  q ∈ p.ancestors ↔ q.names <+: p.names ∧ q ≠ p
  := by
  rw [ancestors, List.mem_map]
  constructor
  · rintro ⟨n, hn, rfl⟩
    use List.take_prefix n p.names
    intro h
    have hlength := congrArg (fun r => r.names.length) h
    rw [List.length_take] at hlength
    rw [List.mem_range] at hn
    omega
  · rintro ⟨hnames, hne⟩
    use q.names.length
    rw [List.mem_range, ← List.prefix_iff_eq_take.mp hnames]
    refine ⟨?_, rfl⟩
    apply Nat.lt_of_le_of_ne hnames.length_le
    intro hlength
    apply hne
    exact congrArg Path.mk (hnames.eq_of_length hlength)

theorem isAbove_iff :
  q.isAbove p = true ↔ q.names <+: p.names
  := List.isPrefixOf_iff_prefix

end Path

namespace FileTree

/-- The names of a path, and its text, are such as a tree can have. -/
structure IsUsable (p : Path) : Prop where
  size_name_le : ∀ name ∈ p.names, Text.Utf8.size name ≤ maxName
  size_text_le : Text.Utf8.size p.text ≤ maxText
  null_not_mem : '\x00' ∉ p.text

/-- The octets are in a file at the path, and every place that contains it is a directory. -/
structure Stores (t : FileTree) (p : Path) (octets : List UInt8) : Prop where
  isUsable : IsUsable p
  ne_root : p ≠ .root
  file : t.item? p = some (.file octets)
  directory : ∀ q ∈ p.ancestors, t.item? q = some .directory

variable {t t' : FileTree} {p p' : Path} {octets octets' : List UInt8}

theorem canHold_iff :
  t.canHold p = true ↔ IsUsable p ∧ ∀ q ∈ p.ancestors, Item.isFile (t.item? q) = false
  := by
  simp only [canHold, Bool.and_eq_true, List.all_eq_true, decide_eq_true_eq, Bool.not_eq_true',
    List.contains_eq_mem, decide_eq_false_iff_not]
  constructor
  · rintro ⟨⟨⟨hname, htext⟩, hnull⟩, hfile⟩
    use ⟨hname, htext, hnull⟩
  · rintro ⟨⟨hname, htext, hnull⟩, hfile⟩
    use ⟨⟨hname, htext⟩, hnull⟩

/-- What a write that is not refused does. -/
theorem write?_eq_some_iff :
  t.write? p octets = some t' ↔
    (t.canHold p = true ∧ p ≠ .root ∧ t.item? p ≠ some .directory) ∧
      (t.addDirectories p.ancestors).addFile p octets = t'
  := by
  rw [write?, Option.ite_none_right_eq_some, Option.some.injEq]

/-- What making a directory does, unless it is refused. -/
theorem makeDirectory?_eq_some_iff :
  t.makeDirectory? p = some t' ↔
    (t.canHold p = true ∧ (! Item.isFile (t.item? p)) = true) ∧
      t.addDirectories (p :: p.ancestors) = t'
  := by
  rw [makeDirectory?, Option.ite_none_right_eq_some, Option.some.injEq]

/-! ### Changes elsewhere -/

theorem Stores.not_mem_ancestors (h : t.Stores p octets) (hp' : t.canHold p' = true) :
  p ∉ p'.ancestors
  := by
  intro hmem
  have hfile := (canHold_iff.mp hp').2 p hmem
  rw [h.file] at hfile
  cases hfile

theorem Stores.addDirectories {ps : List Path} (h : t.Stores p octets) (hp : p ∉ ps) :
  (t.addDirectories ps).Stores p octets
  where
  isUsable := h.isUsable
  ne_root := h.ne_root
  file := (if_neg hp).trans h.file
  directory q hq := by
    by_cases hps : q ∈ ps
    · apply if_pos hps
    · apply (if_neg hps).trans (h.directory q hq)

theorem Stores.addFile (h : t.Stores p octets) (hp : p' ≠ p) (hancestor : p' ∉ p.ancestors) :
  (t.addFile p' octets').Stores p octets
  where
  isUsable := h.isUsable
  ne_root := h.ne_root
  file := (if_neg hp.symm).trans h.file
  directory q hq := by
    have hne : q ≠ p' := by
      rintro rfl
      apply hancestor hq
    apply (if_neg hne).trans (h.directory q hq)

/-- A file stays when another one is written. -/
theorem Stores.write? (h : t.Stores p octets) (hp : p' ≠ p) (hwrite : t.write? p' octets' = some t') :
  t'.Stores p octets
  := by
  obtain ⟨⟨hhold, -, hdirectory⟩, rfl⟩ := write?_eq_some_iff.mp hwrite
  apply (h.addDirectories (h.not_mem_ancestors hhold)).addFile hp
  intro hancestor
  apply hdirectory (h.directory p' hancestor)

/-- A file stays when a directory is made. -/
theorem Stores.makeDirectory? (h : t.Stores p octets) (hmake : t.makeDirectory? p' = some t') :
  t'.Stores p octets
  := by
  obtain ⟨⟨hhold, hfile⟩, rfl⟩ := makeDirectory?_eq_some_iff.mp hmake
  apply h.addDirectories
  rw [List.mem_cons, not_or]
  use ?_, h.not_mem_ancestors hhold
  rintro rfl
  rw [h.file] at hfile
  cases hfile

/-- A file stays when something is removed that does not contain it. -/
theorem Stores.remove (h : t.Stores p octets) (hp : ¬ p'.isAbove p) :
  (t.remove p').Stores p octets
  where
  isUsable := h.isUsable
  ne_root := h.ne_root
  file := (if_neg hp).trans h.file
  directory q hq := by
    have hq' : ¬ p'.isAbove q := by
      rw [Path.isAbove_iff] at hp ⊢
      intro hnames
      apply hp (hnames.trans (Path.mem_ancestors_iff.mp hq).1)
    apply (if_neg hq').trans (h.directory q hq)

/-! ### Writing and reading -/

/-- What is written is stored. -/
theorem stores_of_write? (hwrite : t.write? p octets = some t') :
  t'.Stores p octets
  := by
  obtain ⟨⟨hhold, hroot, -⟩, rfl⟩ := write?_eq_some_iff.mp hwrite
  refine ⟨(canHold_iff.mp hhold).1, hroot, if_pos rfl, ?_⟩
  intro q hq
  have hne : q ≠ p := (Path.mem_ancestors_iff.mp hq).2
  apply (if_neg hne).trans (if_pos hq)

/-- A walk along the names that are left of the path of a stored file reads it. -/
theorem Stores.walk (h : t.Stores p octets) (hplain : p.IsPlain) {before names : List Text}
    (hnames : before ++ names = p.names) (hne : names ≠ []) :
  t.walk ⟨before⟩ names = .ok octets
  := by
  induction names generalizing before with
  | nil => apply absurd rfl hne
  | cons name names ih =>
    have hmem : name ∈ p.names := by simp [← hnames]
    have hsize := h.isUsable.size_name_le name hmem
    rw [FileTree.walk, (hplain name hmem).1, if_neg (by simp), if_neg (by omega)]
    by_cases hlast : names = []
    · obtain rfl := hlast
      have hp : Path.child ⟨before⟩ name = p := congrArg Path.mk hnames
      rw [hp, h.file]
      rfl
    · have hchild : Path.child ⟨before⟩ name ∈ p.ancestors := by
        apply Path.mem_ancestors_iff.mpr
        have hsplit : (before ++ [name]) ++ names = p.names := by
          rw [List.append_assoc, List.singleton_append, hnames]
        use ⟨names, hsplit⟩
        rintro rfl
        apply hlast (List.append_right_eq_self.mp hsplit)
      rw [h.directory _ hchild]
      apply ih _ hlast
      rw [List.append_assoc, List.singleton_append, hnames]

/-- What is stored is read at the text of its path. -/
theorem Stores.read_text (h : t.Stores p octets) (hplain : p.IsPlain) :
  t.read .root p.text = .ok octets
  := by
  have hnull : p.text.contains '\x00' = false := by
    simp [h.isUsable.null_not_mem]
  have hsize := h.isUsable.size_text_le
  have hnames : p.names ≠ [] := by
    intro hnil
    apply h.ne_root
    rw [Path.root, ← hnil]
  rw [read, hnull, if_neg (by simp), if_neg (by simp [Path.text]), if_neg (by omega),
    hplain.segments_text h.ne_root, FileTree.walk]
  apply h.walk hplain rfl hnames

end FileTree

end Credentials
