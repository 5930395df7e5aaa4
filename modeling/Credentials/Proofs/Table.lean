import Mathlib.Data.List.Forall2
import Credentials.Table

/-!
# Columns that hold their cells

The widths of the columns of a table begin as those of the header, and every row makes them as large
as it needs and no smaller than they were.  Hence every cell of a table whose rows have as many cells
as the header fits into its column (`Table.fits_of_mem`), and is followed by as many spaces as its
column has left.
-/

namespace Credentials.Table

/-- The cells of a row are not wider than the columns. -/
def Fits (row : List Text) (ws : List Nat) : Prop :=
  List.Forall₂ (fun cell w => Text.units cell ≤ w) row ws

variable {row other : List Text} {ws : List Nat} {rows : List (List Text)}

theorem length_widen (h : row.length = ws.length) :
  (widen ws row).length = ws.length
  := by
  rw [widen, List.length_zipWith, h, Nat.min_self]

/-- A row fits into the widths that it has enlarged. -/
theorem fits_widen_self (h : row.length = ws.length) :
  Fits row (widen ws row)
  := by
  induction row generalizing ws with
  | nil =>
    obtain rfl := List.length_eq_zero_iff.mp h.symm
    apply List.Forall₂.nil
  | cons cell row ih =>
    obtain ⟨w, ws, rfl⟩ := List.exists_cons_of_length_eq_add_one h.symm
    apply List.Forall₂.cons
    · apply Nat.le_max_right
    · apply ih (Nat.succ.inj h)

/-- A row that fits still does after another one has enlarged the widths. -/
theorem Fits.widen (h : Fits row ws) (hother : other.length = ws.length) :
  Fits row (widen ws other)
  := by
  induction h generalizing other with
  | nil =>
    obtain rfl := List.length_eq_zero_iff.mp hother
    apply List.Forall₂.nil
  | @cons cell w row ws hcell _ ih =>
    obtain ⟨cell', other, rfl⟩ := List.exists_cons_of_length_eq_add_one hother
    apply List.Forall₂.cons
    · apply Nat.le_trans hcell (Nat.le_max_left _ _)
    · apply ih (Nat.succ.inj hother)

theorem fits_foldl_widen (hlength : ∀ r ∈ rows, r.length = ws.length) (h : Fits row ws ∨ row ∈ rows) :
  Fits row (rows.foldl Table.widen ws)
  := by
  induction rows generalizing ws with
  | nil => apply h.resolve_right List.not_mem_nil
  | cons r rows ih =>
    obtain ⟨hr, hrows⟩ := List.forall_mem_cons.mp hlength
    apply ih
    · intro r' hr'
      rw [length_widen hr]
      apply hrows r' hr'
    · rcases h with hfits | hmem
      · left
        apply hfits.widen hr
      rcases List.mem_cons.mp hmem with rfl | hmem
      · left
        apply fits_widen_self hr
      · right
        apply hmem

/-- The header and the rows of a table fit into its columns. -/
theorem fits_of_mem {t : Table} (hlength : ∀ r ∈ t.rows, r.length = t.header.length)
    (h : row ∈ t.header :: t.rows) :
  Fits row t.widths
  := by
  apply fits_foldl_widen
  · simpa using hlength
  · apply (List.mem_cons.mp h).imp_left
    rintro rfl
    apply List.forall₂_map_right_iff.mpr
    apply List.forall₂_same.mpr
    intro cell _
    apply Nat.le_refl

end Credentials.Table
