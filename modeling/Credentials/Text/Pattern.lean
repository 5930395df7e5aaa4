import Credentials.Text.Blank

/-!
# Patterns

A pattern describes starts of a text, in order of preference: where the rest of a match cannot be
completed after one start, the match backs up and the next start is tried.  A pattern is given by
its action `run` on continuations: `p.run k s` is the first success of `k` on a start of `s` that
`p` describes, `k` being handed what the pattern returns and the text that remains.

Patterns form a monad, whose composition is to match one after the other.  `many c` prefers the
longest run of characters of the class `c`, `fewest c` the shortest, and `p.taken` returns the
part of the text that `p` takes.  `p.first s` is what the preferred match at the start of `s`
returns, and `p.pieces s` cuts `s` at the matches that begin at starts of lines.
-/

namespace Credentials

/-- A part of a text, given by the text from its start on and by what remains after it. -/
structure Span where
  start : Text
  rest : Text

/-- The characters of a part of a text. -/
def Span.text (part : Span) : Text :=
  part.start.take (part.start.length - part.rest.length)

@[simp]
theorem Span.text_append (m r : Text) :
  Span.text ⟨m ++ r, r⟩ = m
  := by
  simp [Span.text]

/-- A description of starts of a text, in order of preference. -/
structure Pattern (α : Type) : Type 1 where
  /-- The first success of a continuation on a start that is described. -/
  run {β : Type} : (α → Text → Option β) → Text → Option β

namespace Pattern

variable {α β γ : Type}

instance : Monad Pattern where
  pure a := ⟨fun k => k a⟩
  bind p f := ⟨fun k => p.run fun a => (f a).run k⟩

/-- The starts that `p` describes, and after them those that `q` describes. -/
def or (p q : Pattern α) : Pattern α :=
  ⟨fun k s => p.run k s <|> q.run k s⟩

instance : OrElse (Pattern α) where
  orElse p q := p.or (q ())

/-- What `p` describes, preferably, or nothing. -/
def optional (p : Pattern Unit) : Pattern Unit :=
  p <|> pure ()

/-- The start that `p` describes, as a part of the text. -/
def taken (p : Pattern Unit) : Pattern Span :=
  ⟨fun k s => p.run (fun _ r => k ⟨s, r⟩ r) s⟩

/-- One character of the class `c`. -/
def one (c : Char → Bool) : Pattern Char :=
  ⟨fun k s => match s with
    | [] => none
    | x :: s => if c x then k x s else none⟩

/-- The character `x`. -/
def char (x : Char) : Pattern Unit := do
  let _ ← one (· == x)

/-- The characters of `w`, one after the other. -/
def word : Text → Pattern Unit
  | [] => pure ()
  | x :: w => do
    char x
    word w

/-- The first success of `k` after a run of characters of the class `c`, longest first. -/
def runMany (c : Char → Bool) (k : Text → Option β) : Text → Option β
  | [] => k []
  | x :: s => if c x then runMany c k s <|> k (x :: s) else k (x :: s)

/-- The first success of `k` after a run of characters of the class `c`, shortest first. -/
def runFewest (c : Char → Bool) (k : Text → Option β) : Text → Option β
  | [] => k []
  | x :: s => k (x :: s) <|> if c x then runFewest c k s else none

/-- A run of characters of the class `c`, preferably long. -/
def many (c : Char → Bool) : Pattern Unit :=
  ⟨fun k => runMany c (k ())⟩

/-- A run of characters of the class `c` that is not empty, preferably long. -/
def many1 (c : Char → Bool) : Pattern Unit := do
  let _ ← one c
  many c

/-- A run of characters of the class `c`, preferably short. -/
def fewest (c : Char → Bool) : Pattern Unit :=
  ⟨fun k => runFewest c (k ())⟩

/-- A run of characters of the class `c` that is not empty, preferably short. -/
def fewest1 (c : Char → Bool) : Pattern Unit := do
  let _ ← one c
  fewest c

/-- Blanks, preferably many. -/
def blanks : Pattern Unit :=
  many Text.isBlank

/-- At least one blank, preferably many. -/
def blanks1 : Pattern Unit :=
  many1 Text.isBlank

/-- Nothing, at the end of the text only. -/
def endOfText : Pattern Unit :=
  ⟨fun k s => match s with
    | [] => k () []
    | _ :: _ => none⟩

/-- Nothing, at the end of a line only. -/
def endOfLine : Pattern Unit :=
  ⟨fun k s => match s with
    | [] => k () []
    | x :: s => if Text.isLineEnd x then k () (x :: s) else none⟩

/-- What the preferred match at the start of a text returns, with the text that remains. -/
def match? (p : Pattern α) (s : Text) : Option (α × Text) :=
  p.run (fun a r => some (a, r)) s

/-- What the preferred match at the start of a text returns. -/
def first (p : Pattern α) (s : Text) : Option α :=
  p.run (fun a _ => some a) s

/-- The pieces of a text: matches of `p`, and the characters outside them.  A match begins where
a line begins, which `atStart` says of the first character, and after the `left` characters that
the match before it has yet to take. -/
def piecesFrom (p : Pattern α) : Bool → Nat → Text → List (Char ⊕ α)
  | _, _, [] => []
  | _, left + 1, x :: s => piecesFrom p (Text.isLineEnd x) left s
  | false, 0, x :: s => .inl x :: piecesFrom p (Text.isLineEnd x) 0 s
  | true, 0, x :: s =>
    match p.match? (x :: s) with
    | some (a, r) => .inr a :: piecesFrom p (Text.isLineEnd x) (s.length - r.length) s
    | none => .inl x :: piecesFrom p (Text.isLineEnd x) 0 s

/-- The matches of `p` that begin at starts of lines, each after the end of the one before, and
the characters outside them, in order.  The pattern takes at least one character. -/
def pieces (p : Pattern α) (s : Text) : List (Char ⊕ α) :=
  piecesFrom p true 0 s

/-- What the matches of `p` at starts of lines return. -/
def all (p : Pattern α) (s : Text) : List α :=
  (p.pieces s).filterMap Sum.getRight?

/-- The text with each match of `p` at a start of a line replaced by what it returns. -/
def replace (p : Pattern Text) (s : Text) : Text :=
  (p.pieces s).flatMap (Sum.elim (fun x => [x]) id)

/-! ### The action of each pattern -/

@[simp]
theorem run_pure (a : α) (k : α → Text → Option β) (s : Text) :
  (pure a : Pattern α).run k s = k a s
  := rfl

@[simp]
theorem run_bind (p : Pattern α) (f : α → Pattern γ) (k : γ → Text → Option β) (s : Text) :
  (p >>= f).run k s = p.run (fun a r => (f a).run k r) s
  := rfl

@[simp]
theorem run_orElse (p q : Pattern α) (k : α → Text → Option β) (s : Text) :
  (p <|> q).run k s = (p.run k s <|> q.run k s)
  := rfl

@[simp]
theorem run_optional (p : Pattern Unit) (k : Unit → Text → Option β) (s : Text) :
  p.optional.run k s = (p.run k s <|> k () s)
  := rfl

@[simp]
theorem run_taken (p : Pattern Unit) (k : Span → Text → Option β) (s : Text) :
  p.taken.run k s = p.run (fun _ r => k ⟨s, r⟩ r) s
  := rfl

@[simp]
theorem run_one_nil (c : Char → Bool) (k : Char → Text → Option β) :
  (one c).run k [] = none
  := rfl

@[simp]
theorem run_one_cons (c : Char → Bool) (k : Char → Text → Option β) (x : Char) (s : Text) :
  (one c).run k (x :: s) = if c x then k x s else none
  := rfl

@[simp]
theorem run_char_nil (x : Char) (k : Unit → Text → Option β) :
  (char x).run k [] = none
  := rfl

@[simp]
theorem run_char_cons (x y : Char) (k : Unit → Text → Option β) (s : Text) :
  (char x).run k (y :: s) = if y == x then k () s else none
  := rfl

@[simp]
theorem run_many (c : Char → Bool) (k : Unit → Text → Option β) (s : Text) :
  (many c).run k s = runMany c (k ()) s
  := rfl

@[simp]
theorem run_endOfText_nil (k : Unit → Text → Option β) :
  endOfText.run k [] = k () []
  := rfl

@[simp]
theorem run_endOfText_cons (k : Unit → Text → Option β) (x : Char) (s : Text) :
  endOfText.run k (x :: s) = none
  := rfl

/-- A run is as long as it can be if nothing succeeds after a shorter one. -/
theorem runMany_eq_of_forall_none (c : Char → Bool) (k : Text → Option β) (s : Text)
    (h : ∀ x t, x :: t <:+ s → c x = true → k (x :: t) = none) :
  runMany c k s = k (s.dropWhile c)
  := by
  induction s with
  | nil => rfl
  | cons x s ih =>
    have hs := ih fun y t ht => h y t (ht.trans (List.suffix_cons x s))
    by_cases hx : c x = true
    · simp [runMany, hx, hs, h x s (List.suffix_refl _) hx]
    · simp [runMany, hx]

/-- A run is as long as it can be if something succeeds after it. -/
theorem runMany_eq_of_isSome (c : Char → Bool) (k : Text → Option β) (s : Text)
    (h : (k (s.dropWhile c)).isSome = true) :
  runMany c k s = k (s.dropWhile c)
  := by
  induction s with
  | nil => rfl
  | cons x s ih =>
    by_cases hx : c x = true
    · rw [List.dropWhile_cons_of_pos hx] at h ⊢
      obtain ⟨b, hb⟩ := Option.isSome_iff_exists.mp h
      simp [runMany, hx, ih h, hb]
    · simp [runMany, hx]

end Pattern

end Credentials
