import Credentials.Text.Blank

/-!
# Texts as octets

`encode` writes a text in UTF-8.  `decode` reads any list of octets: a well-formed sequence gives
its character, and each maximal part of an ill-formed one, that is, each longest start of some
well-formed sequence and each octet that starts none, gives one replacement character.  A byte
order mark is a character like any other.

The reader keeps the sequence it is in the middle of as a `Pending` value: the number of octets
still owed, the range in which the next one must lie, and the bits collected so far.
-/

namespace Credentials.Text.Utf8

/-- A sequence that has begun: `owed + 1` more octets are due, the next one between `low` and
`high`, and `bits` holds the bits read so far. -/
structure Pending where
  owed : Nat
  low : Nat
  high : Nat
  bits : Nat
  deriving DecidableEq

/-- The character that stands for an ill-formed part. -/
def replacement : Char := '\ufffd'

/-- What an octet means at the start of a sequence: the characters it gives at once, and the
sequence it begins. -/
def start (b : Nat) : Text × Option Pending :=
  if b < 0x80 then ([Char.ofNat b], none)
  else if b < 0xC2 then ([replacement], none)
  else if b < 0xE0 then ([], some ⟨0, 0x80, 0xBF, b - 0xC0⟩)
  else if b < 0xF0 then
    ([], some ⟨1, if b = 0xE0 then 0xA0 else 0x80, if b = 0xED then 0x9F else 0xBF, b - 0xE0⟩)
  else if b < 0xF5 then
    ([], some ⟨2, if b = 0xF0 then 0x90 else 0x80, if b = 0xF4 then 0x8F else 0xBF, b - 0xF0⟩)
  else ([replacement], none)

/-- What an octet means inside a sequence.  One outside the range ends the sequence as an
ill-formed part and is read again as a start. -/
def next (p : Pending) (b : Nat) : Text × Option Pending :=
  if p.low ≤ b ∧ b ≤ p.high then
    match p.owed with
    | 0 => ([Char.ofNat (p.bits * 64 + (b - 0x80))], none)
    | owed + 1 => ([], some ⟨owed, 0x80, 0xBF, p.bits * 64 + (b - 0x80)⟩)
  else
    (replacement :: (start b).1, (start b).2)

/-- What an octet means after the sequence `pending`, if one has begun. -/
def step (pending : Option Pending) (b : Nat) : Text × Option Pending :=
  match pending with
  | none => start b
  | some p => next p b

/-- The text read from octets, where `pending` is the sequence that has begun before them. -/
def decodeFrom (pending : Option Pending) : List UInt8 → Text
  | [] => if pending.isSome then [replacement] else []
  | b :: bs => (step pending b.toNat).1 ++ decodeFrom (step pending b.toNat).2 bs

/-- The text read from octets. -/
def decode (bs : List UInt8) : Text :=
  decodeFrom none bs

/-- The octets of a text. -/
def encode (s : Text) : List UInt8 :=
  s.flatMap String.utf8EncodeChar

/-- The number of octets of a text. -/
def size (s : Text) : Nat :=
  (encode s).length

end Credentials.Text.Utf8
