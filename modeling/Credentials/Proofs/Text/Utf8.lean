import Credentials.Text.Utf8

/-!
# Texts and their octets

The octets of a character are read as that character, whatever follows them
(`decodeFrom_utf8EncodeChar`): the first octet tells how many are owed and what range the second one
has to be in, and each of the others adds six bits.  Hence a text is read back from its octets
(`decode_encode`).
-/

namespace Credentials.Text.Utf8

variable {b d owed low high bits : Nat} {bs : List UInt8}

/-! ### One octet -/

theorem decodeFrom_cons (pending : Option Pending) (b : UInt8) (bs : List UInt8) :
  decodeFrom pending (b :: bs)
    = (step pending b.toNat).1 ++ decodeFrom (step pending b.toNat).2 bs
  := rfl

theorem decodeFrom_cons_ofNat (pending : Option Pending) (h : b < 256) (bs : List UInt8) :
  decodeFrom pending (UInt8.ofNat b :: bs)
    = (step pending b).1 ++ decodeFrom (step pending b).2 bs
  := by
  rw [decodeFrom_cons, UInt8.toNat_ofNat_of_lt' h]

/-- An octet that stands for a character by itself. -/
theorem decodeFrom_single (h : b < 0x80) (bs : List UInt8) :
  decodeFrom none (UInt8.ofNat b :: bs) = Char.ofNat b :: decodeFrom none bs
  := by
  rw [decodeFrom_cons_ofNat none (by omega), step, start, if_pos h]
  rfl

/-- An octet that begins a sequence. -/
theorem decodeFrom_lead {p : Pending} (h : b < 256) (hstart : start b = ([], some p))
    (bs : List UInt8) :
  decodeFrom none (UInt8.ofNat b :: bs) = decodeFrom (some p) bs
  := by
  rw [decodeFrom_cons_ofNat none h, step, hstart]
  rfl

/-- An octet inside a sequence, which adds six bits. -/
theorem decodeFrom_tail (hd : d < 64) (hlow : low ≤ d + 128) (hhigh : d + 128 ≤ high)
    (bs : List UInt8) :
  decodeFrom (some ⟨owed + 1, low, high, bits⟩) (UInt8.ofNat (d + 128) :: bs)
    = decodeFrom (some ⟨owed, 0x80, 0xBF, bits * 64 + d⟩) bs
  := by
  rw [decodeFrom_cons_ofNat _ (by omega), step, next, if_pos ⟨hlow, hhigh⟩, Nat.add_sub_cancel]
  rfl

/-- The octet at the end of a sequence, which gives the character. -/
theorem decodeFrom_last (hd : d < 64) (hlow : low ≤ d + 128) (hhigh : d + 128 ≤ high)
    (bs : List UInt8) :
  decodeFrom (some ⟨0, low, high, bits⟩) (UInt8.ofNat (d + 128) :: bs)
    = Char.ofNat (bits * 64 + d) :: decodeFrom none bs
  := by
  rw [decodeFrom_cons_ofNat _ (by omega), step, next, if_pos ⟨hlow, hhigh⟩, Nat.add_sub_cancel]
  rfl

/-! ### One character -/

theorem start_two (h : 2 ≤ b) (h' : b < 32) :
  start (b + 192) = ([], some ⟨0, 0x80, 0xBF, b⟩)
  := by
  rw [start, if_neg (by omega), if_neg (by omega), if_pos (by omega), Nat.add_sub_cancel]

theorem start_three (h : b < 16) :
  start (b + 224)
    = ([], some ⟨1, if b = 0 then 0xA0 else 0x80, if b = 13 then 0x9F else 0xBF, b⟩)
  := by
  rw [start, if_neg (by omega), if_neg (by omega), if_neg (by omega), if_pos (by omega),
    Nat.add_sub_cancel]
  simp only [Nat.reduceEqDiff]

theorem start_four (h : b < 5) :
  start (b + 240)
    = ([], some ⟨2, if b = 0 then 0x90 else 0x80, if b = 4 then 0x8F else 0xBF, b⟩)
  := by
  rw [start, if_neg (by omega), if_neg (by omega), if_neg (by omega), if_neg (by omega),
    if_pos (by omega), Nat.add_sub_cancel]
  simp only [Nat.reduceEqDiff]

/-- The octets of a character are read as the character. -/
theorem decodeFrom_utf8EncodeChar (c : Char) (bs : List UInt8) :
  decodeFrom none (String.utf8EncodeChar c ++ bs) = c :: decodeFrom none bs
  := by
  have hvalid : c.toNat < 0xD800 ∨ 0xDFFF < c.toNat ∧ c.toNat < 0x110000 := c.valid
  have hc := Char.ofNat_toNat c
  rw [String.utf8EncodeChar, show c.val.toNat = c.toNat from rfl]
  generalize c.toNat = n at hvalid hc
  by_cases hone : n ≤ 0x7F
  · rw [if_pos hone]
    apply (decodeFrom_single (by omega) bs).trans
    rw [hc]
  by_cases htwo : n ≤ 0x7FF
  · rw [if_neg hone, if_pos htwo]
    apply (decodeFrom_lead (by omega) (start_two (by omega) (by omega)) _).trans
    apply (decodeFrom_last (by omega) (by omega) (by omega) bs).trans
    rw [← hc]
    congr
    omega
  by_cases hthree : n ≤ 0xFFFF
  · rw [if_neg hone, if_neg htwo, if_pos hthree]
    apply (decodeFrom_lead (by omega) (start_three (by omega)) _).trans
    apply (decodeFrom_tail (by omega) (by split <;> omega) (by split <;> omega) _).trans
    apply (decodeFrom_last (by omega) (by omega) (by omega) bs).trans
    rw [← hc]
    congr
    omega
  · rw [if_neg hone, if_neg htwo, if_neg hthree]
    apply (decodeFrom_lead (by omega) (start_four (by omega)) _).trans
    apply (decodeFrom_tail (by omega) (by split <;> omega) (by split <;> omega) _).trans
    apply (decodeFrom_tail (by omega) (by omega) (by omega) _).trans
    apply (decodeFrom_last (by omega) (by omega) (by omega) bs).trans
    rw [← hc]
    congr
    omega

/-- A text is read back from its octets. -/
theorem decode_encode (s : Text) :
  decode (encode s) = s
  := by
  rw [decode, encode]
  induction s with
  | nil => rfl
  | cons c s ih => rw [List.flatMap_cons, decodeFrom_utf8EncodeChar, ih]

end Credentials.Text.Utf8
