import Mathlib.Data.List.Basic
import Mathlib.Tactic.SplitIfs
import Credentials.Proofs.Text.Lines
import Credentials.Proofs.Text.Utf8

/-!
# Low octets in any octets

Octets that are no text are read, too.  A sequence that has begun goes on with high octets only and
gives a high character (`Pending.IsHigh`).  Hence a low octet ends whatever sequence it follows and
stands for its own character (`decode_append_low`), and a low character stands for its own octet
(`mem_of_mem_decode`).  In particular the line feeds of a text are the octets of line feeds, and
what lies between them is read from the octets that lie between those (`splitOn_decode`).
-/

namespace Credentials.Text.Utf8

variable {b : Nat} {bs : List UInt8}

/-! ### Sequences of high octets -/

/-- A sequence goes on with octets above those that stand for characters by themselves, and its
character is above theirs. -/
structure Pending.IsHigh (p : Pending) : Prop where
  low_le : 0x80 ≤ p.low
  bits_le : 2 ≤ if p.owed = 0 then p.bits else p.bits * 64 + (p.low - 0x80)

/-- The sequence, if one has begun, goes on with high octets. -/
def IsHigh (pending : Option Pending) : Prop :=
  ∀ p ∈ pending, p.IsHigh

variable {pending : Option Pending}

theorem isHigh_none :
  IsHigh none
  := by
  simp [IsHigh]

theorem isHigh_some {p : Pending} :
  IsHigh (some p) ↔ p.IsHigh
  := by
  simp [IsHigh]

theorem isHigh_start (b : Nat) :
  IsHigh (start b).2
  := by
  rw [start]
  split
  · apply isHigh_none
  split
  · apply isHigh_none
  split
  · apply isHigh_some.mpr
    constructor
    · simp
    · dsimp only
      rw [if_pos rfl]
      omega
  split
  · apply isHigh_some.mpr
    constructor
    · dsimp only
      split <;> omega
    · simp only [Nat.one_ne_zero, if_false]
      split <;> omega
  split
  · apply isHigh_some.mpr
    constructor
    · dsimp only
      split <;> omega
    · simp only [Nat.reduceEqDiff, if_false]
      split <;> omega
  · apply isHigh_none

/-- An octet leaves a sequence that goes on with high octets. -/
theorem IsHigh.step (h : IsHigh pending) (b : Nat) :
  IsHigh (step pending b).2
  := by
  cases pending with
  | none => apply isHigh_start
  | some p =>
    rw [Utf8.step, next]
    split
    case isTrue hrange =>
      obtain ⟨owed, low, high, bits⟩ := p
      have hbits := (isHigh_some.mp h).bits_le
      cases owed with
      | zero => apply isHigh_none
      | succ owed =>
        simp only [Nat.add_one_ne_zero, if_false] at hbits hrange
        apply isHigh_some.mpr
        constructor
        · simp
        · dsimp only
          split <;> omega
    case isFalse => apply isHigh_start

/-- A low octet ends the sequence before it, which is ill-formed then, and stands for its own
character. -/
theorem IsHigh.step_of_lt (h : IsHigh pending) (hb : b < 0x80) :
  Utf8.step pending b = (decodeFrom pending [] ++ [Char.ofNat b], none)
  := by
  have hstart : start b = ([Char.ofNat b], none) := if_pos hb
  cases pending with
  | none => apply hstart
  | some p =>
    have hlow := (isHigh_some.mp h).low_le
    rw [Utf8.step, next, if_neg (by omega), hstart]
    rfl

theorem start_ne (b : Nat) :
  start b ≠ ([], none)
  := by
  rw [start]
  split_ifs <;> simp

/-- An octet gives a character or leaves a sequence. -/
theorem step_ne (pending : Option Pending) (b : Nat) :
  step pending b ≠ ([], none)
  := by
  cases pending with
  | none => apply start_ne
  | some p =>
    rw [step, next]
    split
    · split <;> simp
    · simp

theorem decodeFrom_singleton_ne_nil (pending : Option Pending) (b : UInt8) :
  decodeFrom pending [b] ≠ []
  := by
  intro h
  rw [decodeFrom_cons, List.append_eq_nil_iff] at h
  apply step_ne pending b.toNat
  apply Prod.ext
  · apply h.1
  · have hend := h.2
    rw [decodeFrom] at hend
    simpa using hend

/-- Octets are read up to where others follow them, and these after the sequence that has begun
then. -/
theorem IsHigh.exists_decodeFrom_append (h : IsHigh pending) (bs : List UInt8) :
  ∃ s pending', IsHigh pending' ∧ ∀ cs, decodeFrom pending (bs ++ cs) = s ++ decodeFrom pending' cs
  := by
  induction bs generalizing pending with
  | nil => use [], pending, h, fun _ => rfl
  | cons b bs ih =>
    obtain ⟨s, pending', h', hs⟩ := ih (h.step b.toNat)
    use (Utf8.step pending b.toNat).1 ++ s, pending', h'
    intro cs
    rw [List.cons_append, decodeFrom_cons, hs, List.append_assoc]

/-! ### Low characters -/

/-- The character has a low octet of its own.  The null character is left out, since `Char.ofNat`
gives it for numbers that are no characters, too. -/
def IsLow (c : Char) : Prop :=
  0 < c.toNat ∧ c.toNat < 0x80

instance (c : Char) : Decidable (IsLow c) :=
  inferInstanceAs (Decidable (0 < c.toNat ∧ c.toNat < 0x80))

variable {c : Char}

theorem toNat_ofNat_of_isLow {n : Nat} (hc : IsLow (Char.ofNat n)) :
  (Char.ofNat n).toNat = n
  := by
  by_cases hvalid : n.isValidChar
  · rw [Char.ofNat, dif_pos hvalid]
    rfl
  · have hpos := hc.1
    rw [Char.ofNat, dif_neg hvalid] at hpos
    apply absurd hpos
    decide

theorem ne_replacement (hc : IsLow c) :
  c ≠ replacement
  := by
  rintro rfl
  apply absurd hc.2
  decide

theorem eq_of_mem_start (hc : IsLow c) (hmem : c ∈ (start b).1) :
  b = c.toNat
  := by
  have hne := ne_replacement hc
  rw [start] at hmem
  split at hmem
  · obtain rfl := List.mem_singleton.mp hmem
    rw [toNat_ofNat_of_isLow hc]
  split at hmem
  · apply absurd (List.mem_singleton.mp hmem) hne
  split at hmem
  · cases hmem
  split at hmem
  · cases hmem
  split at hmem
  · cases hmem
  · apply absurd (List.mem_singleton.mp hmem) hne

/-- A low character stands for its own octet. -/
theorem IsHigh.eq_of_mem_step (h : IsHigh pending) (hc : IsLow c)
    (hmem : c ∈ (Utf8.step pending b).1) :
  b = c.toNat
  := by
  cases pending with
  | none => apply eq_of_mem_start hc hmem
  | some p =>
    rw [Utf8.step, next] at hmem
    split at hmem
    case isTrue hrange =>
      obtain ⟨owed, low, high, bits⟩ := p
      have hp := isHigh_some.mp h
      have hbits := hp.bits_le
      cases owed with
      | zero =>
        -- two bits at least stand above the six of the octet
        dsimp only at hbits hmem
        rw [if_pos rfl] at hbits
        rw [List.mem_singleton] at hmem
        rw [hmem] at hc
        have hlow := hc.2
        rw [toNat_ofNat_of_isLow hc] at hlow
        omega
      | succ owed => cases hmem
    case isFalse =>
      rw [List.mem_cons] at hmem
      rcases hmem with heq | hmem
      · apply absurd heq (ne_replacement hc)
      · apply eq_of_mem_start hc hmem

/-- The octet of a low character stands for it, whatever stands around it. -/
theorem decode_append_low (hc : IsLow c) (bs cs : List UInt8) :
  decode (bs ++ UInt8.ofNat c.toNat :: cs) = decode bs ++ c :: decode cs
  := by
  obtain ⟨s, pending, h, hs⟩ := isHigh_none.exists_decodeFrom_append bs
  have hbs := hs []
  rw [List.append_nil] at hbs
  have hoctet : c.toNat < 256 := Nat.lt_trans hc.2 (by decide)
  have hlow : decodeFrom pending (UInt8.ofNat c.toNat :: cs)
      = decodeFrom pending [] ++ c :: decodeFrom none cs := by
    rw [decodeFrom_cons_ofNat pending hoctet, h.step_of_lt hc.2, Char.ofNat_toNat,
      List.append_assoc]
    rfl
  rw [decode, decode, decode, hs, hbs, hlow, List.append_assoc]

theorem IsHigh.mem_of_mem_decodeFrom (h : IsHigh pending) (hc : IsLow c)
    (hmem : c ∈ decodeFrom pending bs) :
  UInt8.ofNat c.toNat ∈ bs
  := by
  induction bs generalizing pending with
  | nil =>
    rw [decodeFrom] at hmem
    split at hmem
    · apply absurd (List.mem_singleton.mp hmem) (ne_replacement hc)
    · cases hmem
  | cons b bs ih =>
    rw [decodeFrom_cons, List.mem_append] at hmem
    rcases hmem with hmem | hmem
    · rw [← h.eq_of_mem_step hc hmem, UInt8.ofNat_toNat]
      apply List.mem_cons_self
    · apply List.mem_cons_of_mem b (ih (h.step b.toNat) hmem)

/-- A low character of a text stands for an octet of its own. -/
theorem mem_of_mem_decode (hc : IsLow c) (hmem : c ∈ decode bs) :
  UInt8.ofNat c.toNat ∈ bs
  := isHigh_none.mem_of_mem_decodeFrom hc hmem

/-- The text of octets ends in a low character only if they end in its octet. -/
theorem getLast?_of_getLast?_decode (hc : IsLow c) (hlast : (decode bs).getLast? = some c) :
  bs.getLast? = some (UInt8.ofNat c.toNat)
  := by
  rcases bs.eq_nil_or_concat' with rfl | ⟨bs, b, rfl⟩
  · cases hlast
  · obtain ⟨s, pending, h, hs⟩ := isHigh_none.exists_decodeFrom_append bs
    rw [decode, hs, List.getLast?_append_of_ne_nil _ (decodeFrom_singleton_ne_nil pending b)]
      at hlast
    have hmem := h.mem_of_mem_decodeFrom hc (List.mem_of_getLast? hlast)
    rw [List.getLast?_concat, List.mem_singleton.mp hmem]

/-- Where a low character cuts a text, its octet cuts the octets, and what lies in between is read
from the octets that lie in between. -/
theorem splitOn_decode (hc : IsLow c) (bs : List UInt8) :
  (decode bs).splitOn c = (bs.splitOn (UInt8.ofNat c.toNat)).map decode
  := by
  induction bs using induction_on_pieces (UInt8.ofNat c.toNat) with
  | last l hl =>
    rw [List.splitOn_eq_singleton (mt (mem_of_mem_decode hc) hl), List.splitOn_eq_singleton hl]
    rfl
  | piece l bs hl ih =>
    rw [decode_append_low hc,
      List.splitOn_append_cons_self_of_not_mem (mt (mem_of_mem_decode hc) hl), ih,
      List.splitOn_append_cons_self_of_not_mem hl]
    rfl

end Credentials.Text.Utf8
