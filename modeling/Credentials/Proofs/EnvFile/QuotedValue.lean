import Credentials.Proofs.EnvFile.LastAssignment
import Credentials.Proofs.EnvFile.ClosingQuote
import Credentials.Proofs.EnvFile.Escapes

/-!
# Quoted values

The value of a text that begins with a quote is told without backing up (`contentOf`): if a quote
closes the text, it is what stands before the last such quote, and otherwise it is what stands
before the first number sign, without the quotes at its two ends if both are there.  A value that
began with a double quote has its escapes written out (`decoded`).

An entry whose value begins with a quote is read to its end by the pattern of entries
(`match?_entry`), so that it is the only entry of its line, and cleaning the part that was matched
leaves the value (`valueOf_quoted`).  Hence a file with one line gives a key its content
(`getElem?_parse_quoted`).
-/

namespace Credentials.EnvFile

open Pattern Text

variable {q : Char}

/-- The text without the quotes `q` at its two ends, if both are there. -/
def stripped (q : Char) (s : Text) : Text :=
  if 2 ≤ s.length ∧ s.getLast? = some q then s.tail.dropLast else s

/-- What stands between the quotes of a text that begins with the quote `q`. -/
def contentOf (q : Char) (v : Text) : Text :=
  match closing? q v with
  | some p => (v.take p).drop 1
  | none => stripped q (trim (v.takeWhile (· != '#')))

/-- The content of a value between quotes `q` as it is read. -/
def decoded (q : Char) (s : Text) : Text :=
  if q = doubleQuote then unescaped s else s

/-- The part of a text beginning with the quote `q` that is matched as a value. -/
def matchedValue (q : Char) (v : Text) : Text :=
  match closing? q v with
  | some p => v.take (p + 1)
  | none => v.takeWhile (· != '#')

/-- What is left of a text after the part that is matched as a value. -/
def afterValue (q : Char) (v : Text) : Text :=
  match closing? q v with
  | some p => v.drop (p + 1)
  | none => v.dropWhile (· != '#')

/-! ### Quotes -/

theorem isQuote_iff {c : Char} :
  isQuote c = true ↔ c = singleQuote ∨ c = doubleQuote ∨ c = backQuote
  := by
  simp [isQuote, or_assoc]

theorem not_isBlank_of_isQuote (h : isQuote q = true) :
  isBlank q = false
  := by
  rcases isQuote_iff.mp h with rfl | rfl | rfl <;> rfl

theorem not_isLineEnd_of_isQuote (h : isQuote q = true) :
  isLineEnd q = false
  := by
  rcases isQuote_iff.mp h with rfl | rfl | rfl <;> rfl

theorem isBareChar_of_isQuote (h : isQuote q = true) :
  isBareChar q = true
  := by
  rcases isQuote_iff.mp h with rfl | rfl | rfl <;> rfl

theorem ne_hash_of_isQuote (h : isQuote q = true) :
  q ≠ '#'
  := by
  rintro rfl
  cases h

/-- A quote stands before the first number sign. -/
theorem takeWhile_cons_of_isQuote (hq : isQuote q = true) (w : Text) :
  (q :: w).takeWhile (· != '#') = q :: w.takeWhile (· != '#')
  := List.takeWhile_cons_of_pos (by simpa using ne_hash_of_isQuote hq)

theorem ne_backslash_of_isQuote (h : isQuote q = true) :
  q ≠ '\\'
  := by
  rintro rfl
  cases h

/-! ### The parts of an entry -/

/-- What may follow the value of an entry. -/
def endOfEntry : Pattern Unit := do
  blanks
  Pattern.optional comment
  endOfLine

/-- An entry from its value on. -/
def valueToEnd : Pattern Text := do
  let value ← (Pattern.optional entryValue).taken
  endOfEntry
  return value.text

/-- An entry from its key on. -/
def keyToEnd : Pattern (Text × Text) := do
  let key ← (many1 isKeyChar).taken
  separator
  let value ← valueToEnd
  return (key.text, value)

theorem entry_eq :
  entry = (do blanks; exportMark; keyToEnd)
  := rfl

section Run

variable {β : Type} {k : Unit → Text → Option β}

theorem run_comment {r : Text} (hr : AllInline r) :
  comment.run (fun _ t => endOfLine.run k t) ('#' :: r) = k () []
  := by
  have hdrop : r.dropWhile isInline = [] := by
    rw [List.dropWhile_eq_nil_iff]
    intro c hc
    simp [isInline, hr c hc]
  rw [comment, run_bind, run_char_cons, if_pos (beq_self_eq_true _), run_many_eq, hdrop]
  · rfl
  · rintro x t ht -
    apply run_endOfLine_of_inline (hr x (ht.subset List.mem_cons_self))

theorem run_commentToEnd_of_ne {x : Char} (hx : x ≠ '#') (hinline : isLineEnd x = false)
    (s : Text) :
  (do Pattern.optional comment; endOfLine).run k (x :: s) = none
  := by
  rw [run_bind, run_optional, comment, run_char_bind_of_ne hx, run_endOfLine_of_inline hinline]
  rfl

/-- On a line, an entry may end where only blanks and a comment are left. -/
theorem run_endOfEntry {r : Text} (hr : AllInline r) :
  endOfEntry.run k r = if EndsEntry r then k () [] else none
  := by
  have htrim : AllInline (trimStart r) := hr.of_subset (List.dropWhile_suffix _).subset
  rw [endOfEntry, run_blanks_bind]
  · cases ht : trimStart r with
    | nil =>
      rw [if_pos (by simp [EndsEntry, ht])]
      rfl
    | cons x t =>
      rw [ht, allInline_cons] at htrim
      by_cases hx : x = '#'
      · subst hx
        rw [run_bind, run_optional, run_comment htrim.2, run_endOfLine_of_inline htrim.1,
          if_pos (by simp [EndsEntry, ht])]
        simp
      · rw [run_commentToEnd_of_ne hx htrim.1, if_neg (by simp [EndsEntry, ht, hx])]
  · intro x t ht hx
    apply run_commentToEnd_of_ne
    · rintro rfl
      cases hx
    · apply hr x (ht.subset List.mem_cons_self)

/-- A character that is not blank is reached through no blanks. -/
theorem run_blanks_cons {α : Type} {p : Pattern α} {l : α → Text → Option β} {x : Char}
    (h : isBlank x = false) (s : Text) :
  (do blanks; p).run l (x :: s) = p.run l (x :: s)
  := by
  simp [blanks, runMany, h]

theorem run_quotedValue_self (hq : isQuote q = true) (w : Text) :
  (quotedValue q).run k (q :: w) = (do body q; char q).run k w
  := by
  rw [quotedValue, run_blanks_cons (not_isBlank_of_isQuote hq), run_bind, run_char_cons,
    if_pos (beq_self_eq_true q)]

theorem run_quotedValue_of_ne {q' : Char} (h : q ≠ q') (hq : isQuote q = true) (w : Text) :
  (quotedValue q').run k (q :: w) = none
  := by
  rw [quotedValue, run_blanks_cons (not_isBlank_of_isQuote hq), run_char_bind_of_ne h]

/-- A value that begins with a quote is what stands up to a closing quote, or a text without
regard to quotes. -/
theorem run_entryValue (hq : isQuote q = true) (w : Text) :
  entryValue.run k (q :: w)
    = ((do body q; char q).run k w <|> (many isBareChar).run k w)
  := by
  have hbare : (many1 isBareChar).run k (q :: w) = (many isBareChar).run k w :=
    if_pos (isBareChar_of_isQuote hq)
  have hself := run_quotedValue_self (k := k) hq w
  have hne := fun q' (h : q ≠ q') => run_quotedValue_of_ne (k := k) h hq w
  rw [entryValue, run_orElse, run_orElse, run_orElse, hbare]
  rcases isQuote_iff.mp hq with rfl | rfl | rfl
  · rw [hself, hne doubleQuote (by decide), hne backQuote (by decide)]
    simp
  · rw [hself, hne singleQuote (by decide), hne backQuote (by decide)]
    simp
  · rw [hself, hne singleQuote (by decide), hne doubleQuote (by decide)]
    simp

theorem isBareChar_of_inline {c : Char} (h : isLineEnd c = false) :
  isBareChar c = (c != '#')
  := by
  simp only [isLineEnd, Bool.or_eq_false_iff] at h
  simp [isBareChar, bne, h]

theorem dropWhile_isBareChar {s : Text} (h : AllInline s) :
  s.dropWhile isBareChar = s.dropWhile (· != '#')
  := by
  induction s with
  | nil => rfl
  | cons c s ih =>
    rw [allInline_cons] at h
    rw [List.dropWhile_cons, List.dropWhile_cons, isBareChar_of_inline h.1, ih h.2]

/-- A text without regard to quotes goes up to a comment or to the end. -/
theorem endsEntry_dropWhile (s : Text) :
  EndsEntry (s.dropWhile (· != '#'))
  := by
  cases hs : s.dropWhile (· != '#') with
  | nil => simp [EndsEntry, trimStart]
  | cons c t =>
    obtain rfl : c = '#' := by
      have := List.head?_dropWhile_not (· != '#') s
      rw [hs] at this
      simpa using this
    simp [EndsEntry, trimStart_cons_of_not_blank (show isBlank '#' = false from rfl)]

theorem matchedValue_append_afterValue (v : Text) :
  matchedValue q v ++ afterValue q v = v
  := by
  rw [matchedValue, afterValue]
  cases closing? q v with
  | some p => apply List.take_append_drop
  | none => apply List.takeWhile_append_dropWhile

/-- Only a comment may stand after the part that is matched as a value. -/
theorem endsEntry_afterValue (v : Text) :
  EndsEntry (afterValue q v)
  := by
  rw [afterValue]
  split
  case h_1 p hclosing => apply (closing?_eq_some_iff.mp hclosing).1.2
  case h_2 => apply endsEntry_dropWhile

/-- What is left after a value that begins with a quote is left to what follows, which succeeds
exactly where an entry may end. -/
theorem run_optional_entryValue (hq : isQuote q = true) {w : Text} (hw : AllInline w)
    {g : Text → β} (hk : ∀ r, r <:+ w → k () r = if EndsEntry r then some (g r) else none) :
  (Pattern.optional entryValue).run k (q :: w) = some (g (afterValue q (q :: w)))
  := by
  have hsome : ∀ r, r <:+ w → ((k () r).isSome ↔ EndsEntry r) := by
    intro r hr
    rw [hk r hr]
    by_cases hend : EndsEntry r <;> simp [hend]
  rw [run_optional, run_entryValue hq, run_body_quote (ne_backslash_of_isQuote hq) hsome,
    afterValue]
  cases hclosing : closing? q (q :: w) with
  | some p =>
    obtain ⟨⟨-, hend⟩, -⟩ := closing?_eq_some_iff.mp hclosing
    simp only [Option.bind_some, List.drop_succ_cons] at hend ⊢
    rw [hk _ (List.drop_suffix _ _), if_pos hend]
    rfl
  | none =>
    have hbare := hk _ (List.dropWhile_suffix isBareChar)
    rw [dropWhile_isBareChar hw, if_pos (endsEntry_dropWhile w)] at hbare
    rw [run_many_of_isSome, dropWhile_isBareChar hw, hbare]
    · simp [ne_hash_of_isQuote hq]
    · rw [dropWhile_isBareChar hw, hbare]
      rfl

/-- A value that begins with a quote is matched together with the rest of its line. -/
theorem run_valueToEnd (hq : isQuote q = true) {w : Text} (hw : AllInline w) (f : Text → Text → β) :
  valueToEnd.run (fun value r => some (f value r)) (q :: w)
    = some (f (matchedValue q (q :: w)) [])
  := by
  have hspan := Span.text_append (matchedValue q (q :: w)) (afterValue q (q :: w))
  rw [matchedValue_append_afterValue] at hspan
  rw [valueToEnd, run_bind, run_taken, run_optional_entryValue hq hw
    (g := fun r => f (Span.text ⟨q :: w, r⟩) []), hspan]
  intro r hr
  apply run_endOfEntry (hw.of_subset hr.subset)

theorem run_separator_sign {x : Char} (h : isBlank x = false) (s : Text) :
  separator.run k ('=' :: x :: s) = k () (x :: s)
  := by
  rw [separator, run_orElse, run_blanks_cons rfl, run_bind, run_char_cons,
    run_char_bind_of_ne (by decide)]
  simp [fewest, runFewest, h]

theorem run_separator_of_isKeyChar {x : Char} (h : isKeyChar x = true) (s : Text) :
  separator.run k (x :: s) = none
  := by
  rw [separator, run_orElse, run_blanks_cons (not_isBlank_of_isKeyChar h), run_char_bind_of_ne,
    run_char_bind_of_ne]
  · rfl
  · rintro rfl
    cases h
  · rintro rfl
    cases h

end Run

theorem run_keyToEnd_of_endsKey {β : Type} {k : Text × Text → Text → Option β} {s : Text}
    (h : EndsKey s) :
  keyToEnd.run k s = none
  := by
  rw [keyToEnd, run_bind, run_key_taken_of_endsKey h]

/-- A key with a value that begins with a quote is an entry up to the end of its line. -/
theorem match?_entry {key w : Text} (hkey : IsKey key) (hq : isQuote q = true)
    (hw : AllInline w) :
  entry.match? (key ++ '=' :: q :: w) = some ((key, matchedValue q (q :: w)), [])
  := by
  have hend : EndsKey ('=' :: q :: w) := endsKey_cons.mpr rfl
  rw [match?, entry_eq, run_blanks_exportMark (fun _ => run_keyToEnd_of_endsKey),
    hkey.trimStart_append,
    run_exportMark_of_forall_ne, keyToEnd, run_bind, run_key_taken _ hkey hend, run_bind,
    run_separator_sign (not_isBlank_of_isQuote hq), run_bind, Span.text_append]
  · apply run_valueToEnd hq hw fun value r => ((key, value), r)
  · rintro part x s hx
    apply run_separator_of_isKeyChar hx
  · intro g r hg heq
    obtain ⟨-, hr⟩ := hkey.append_inj isKey_exportWord hend
      (endsKey_cons.mpr (not_isKeyChar_of_isBlank hg)) heq
    rw [← (List.cons.inj hr).1] at hg
    cases hg

/-! ### Entries -/

theorem unifyLineEnds_of_not_mem {s : Text} (h : '\r' ∉ s) :
  unifyLineEnds s = s
  := by
  induction s with
  | nil => rfl
  | cons c s ih =>
    rw [List.mem_cons, not_or] at h
    rw [unifyLineEnds, ih h.2]
    · rintro t rfl
      apply absurd rfl h.1
    · rintro rfl
      apply absurd rfl h.1

/-- The pattern of entries takes the whole of a line whose value begins with a quote, at once. -/
theorem pieces_of_quoted {key w : Text} (hkey : IsKey key) (hq : isQuote q = true)
    (hw : AllInline w) :
  entry.pieces (unifyLineEnds (key ++ '=' :: q :: w)) = [.inr (key, matchedValue q (q :: w))]
  := by
  have hreturn : '\r' ∉ key ++ '=' :: q :: w := by
    have hkeyReturn : '\r' ∉ key := hkey.not_mem rfl
    have hquote : '\r' ≠ q := by
      rintro rfl
      cases hq
    simp [hkeyReturn, hquote, (allInline_iff_not_mem.mp hw).2.1]
  have hmatch := match?_entry hkey hq hw
  rw [unifyLineEnds_of_not_mem hreturn]
  obtain ⟨x, s, rfl, hx⟩ := hkey.exists_cons
  rw [List.cons_append] at hmatch ⊢
  apply pieces_of_match? hmatch

/-- A key with a value that begins with a quote is the only entry of its line. -/
theorem entries_of_quoted {key w : Text} (hkey : IsKey key) (hq : isQuote q = true)
    (hw : AllInline w) :
  entries (key ++ '=' :: q :: w) = [(key, cleaned (matchedValue q (q :: w)))]
  := by
  rw [entries, all, pieces_of_quoted hkey hq hw]
  rfl

/-! ### Cleaning -/

/-- On a line, a text that begins with a quote is enclosed if it ends with that quote as well. -/
theorem match?_enclosed {s : Text} (hq : isQuote q = true) (hs : AllInline s) :
  enclosed.match? (q :: s) = if s.getLast? = some q then some (s.dropLast, []) else none
  := by
  rw [match?, enclosed, run_bind, run_one_cons, if_pos hq, run_bind, run_taken, run_many_any_eq]
  · cases hlast : s.getLast? with
    | none => rfl
    | some x =>
      obtain ⟨t, rfl⟩ := List.getLast?_eq_some_iff.mp hlast
      by_cases hx : x = q
      · subst hx
        simp [endOfLine]
      · simp [hx]
  · rfl
  · intro x t ht hne
    obtain ⟨y, u, rfl⟩ := List.exists_cons_of_ne_nil hne
    have hy : isLineEnd y = false := hs y (ht.subset (by simp))
    simp [run_endOfLine_of_inline hy]

theorem stripped_cons (s : Text) :
  stripped q (q :: s) = if s.getLast? = some q then s.dropLast else q :: s
  := by
  cases s with
  | nil => simp [stripped]
  | cons x s => simp [stripped, List.getLast?_cons_cons]

/-- Replacing enclosed texts takes the quotes off a text that both begins and ends with one. -/
theorem replace_enclosed {s : Text} (hq : isQuote q = true) (hs : AllInline s) :
  enclosed.replace (q :: s) = stripped q (q :: s)
  := by
  have hmatch := match?_enclosed hq hs
  rw [stripped_cons]
  by_cases hlast : s.getLast? = some q
  · rw [if_pos hlast] at hmatch ⊢
    rw [replace, pieces_of_match? hmatch]
    simp
  · rw [if_neg hlast] at hmatch ⊢
    rw [replace, pieces, piecesFrom, hmatch, not_isLineEnd_of_isQuote hq]
    simp only [List.flatMap_cons]
    rw [piecesFrom_of_allInline _ hs]
    simp [List.flatMap_map]

/-- Cleaning takes the quotes off a trimmed text and writes out escapes between double quotes. -/
theorem cleaned_of_trim_eq {f t : Text} (hq : isQuote q = true) (h : trim f = q :: t)
    (ht : AllInline t) :
  cleaned f = decoded q (stripped q (q :: t))
  := by
  rw [cleaned, h, replace_enclosed hq ht, decoded, expandEscapes_eq_unescaped]
  simp

/-- Cleaning what was matched as a value leaves the content of the text, decoded. -/
theorem cleaned_matchedValue (hq : isQuote q = true) {w : Text} (hw : AllInline w) :
  cleaned (matchedValue q (q :: w)) = decoded q (contentOf q (q :: w))
  := by
  have hblank := not_isBlank_of_isQuote hq
  rw [matchedValue, contentOf]
  cases hclosing : closing? q (q :: w) with
  | some p =>
    obtain ⟨i, rfl, hquote, -⟩ := isCandidate_cons_iff.mp (closing?_eq_some_iff.mp hclosing).1.1
    have htake : (q :: w).take (i + 1 + 1) = q :: (w.take i ++ [q]) := by
      rw [List.take_succ_cons, List.take_add_one, hquote]
      rfl
    have htrim : trim (q :: (w.take i ++ [q])) = q :: (w.take i ++ [q]) := by
      rw [trim_cons_of_not_blank hblank, trimEnd_append_of_not_blank hblank]
    have hinline : AllInline (w.take i ++ [q]) := by
      apply allInline_append.mpr
      use hw.of_subset (List.take_subset i w)
      simp [not_isLineEnd_of_isQuote hq]
    simp only [htake]
    rw [cleaned_of_trim_eq hq htrim hinline, stripped_cons]
    simp
  | none =>
    simp only [takeWhile_cons_of_isQuote hq]
    rw [trim_cons_of_not_blank hblank]
    apply cleaned_of_trim_eq hq (trim_cons_of_not_blank hblank _)
    apply hw.of_subset
    apply List.Subset.trans (trimEnd_subset _) (List.takeWhile_subset _)

/-- The value of a text that begins with a quote is its decoded content. -/
theorem valueOf_quoted {key w : Text} (hkey : IsKey key) (hq : isQuote q = true)
    (hw : AllInline w) :
  valueOf key (q :: w) = decoded q (contentOf q (q :: w))
  := by
  have hstart : startsQuoted (q :: w) = true := hq
  rw [valueOf, if_pos hstart, findValue?, entries_of_quoted hkey hq hw, cleaned_matchedValue hq hw]
  simp

/-- The value of a text that begins with no quote is what stands before its comment. -/
theorem valueOf_of_not_startsQuoted {key s : Text} (hs : startsQuoted s = false) :
  valueOf key s = withoutComment s
  := if_neg (by simp [hs])

/-! ### A file of one quoted value -/

/-- The file of one line with a value that begins with a quote gives the key the content of the
value: what stands before the last quote that may close it, or else what stands before the first
number sign, with escapes written out between double quotes. -/
theorem getElem?_parse_quoted {key v : Text} (hkey : IsKey key)
    (hname : String.ofList key ≠ Member.parentName) (htrim : trim v = v) (hinline : AllInline v)
    (hhead : v.head? = some q) (hq : isQuote q = true) :
  (parse (String.ofList (key ++ '=' :: v)))[String.ofList key]?
    = some (String.ofList (decoded q (contentOf q v)))
  := by
  obtain ⟨w, rfl⟩ := List.head?_eq_some_iff.mp hhead
  rw [parse_ofList_key_append hkey hinline hname rfl, Std.ExtTreeMap.getElem?_insert_self, htrim,
    valueOf_quoted hkey hq (allInline_cons.mp hinline).2]

/-- The last quote before the comment closes the value, past a quote with a backslash before it. -/
theorem getElem?_parse_escaped_quote :
  IsKey "KEY".toList ∧ trim "\"a\\\"b\\n\" # \"c".toList = "\"a\\\"b\\n\" # \"c".toList ∧
    closing? doubleQuote "\"a\\\"b\\n\" # \"c".toList = some 7 ∧
    (parse "KEY=\"a\\\"b\\n\" # \"c")["KEY"]? = some "a\\\"b\n"
  := by
  have hkey : IsKey "KEY".toList := by decide
  have htrim : trim "\"a\\\"b\\n\" # \"c".toList = "\"a\\\"b\\n\" # \"c".toList := by decide
  use hkey, htrim, by decide
  have hvalue : decoded doubleQuote (contentOf doubleQuote "\"a\\\"b\\n\" # \"c".toList)
      = "a\\\"b\n".toList := by
    decide
  have h := getElem?_parse_quoted (q := doubleQuote) hkey (by decide) htrim (by decide) rfl
    (by decide)
  rw [hvalue] at h
  apply h

end Credentials.EnvFile
