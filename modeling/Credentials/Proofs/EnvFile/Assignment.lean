import Credentials.Proofs.Text.Patterns
import Credentials.EnvFile.Assignment

/-!
# The grammar of assignments

A line assigns a text to a key exactly when the text is what follows the first equality sign of
the line and stays on the line, and the words before that sign are the key alone, or `export` and
the key (`Assigns`).  The pattern of assignments, which backs up over blanks, over the characters of
the key and over `export`, accepts the lines of this grammar and no others
(`first_assignment_eq_some_iff`).
-/

namespace Credentials.EnvFile

open Pattern Text

/-- A word of characters of keys. -/
structure IsKey (key : Text) : Prop where
  ne_nil : key ≠ []
  keyChar : ∀ c ∈ key, isKeyChar c = true

/-- The line assigns the text to the key. -/
def Assigns (line key text : Text) : Prop :=
  ∃ head, line = head ++ '=' :: text ∧ '=' ∉ head ∧
    (words head = [key] ∨ words head = [exportWord, key]) ∧ IsKey key ∧
    '\r' ∉ text ∧ '\u2028' ∉ text ∧ '\u2029' ∉ text

instance (key : Text) : Decidable (IsKey key) :=
  decidable_of_iff (key ≠ [] ∧ key.all isKeyChar = true)
    ⟨fun h => ⟨h.1, List.all_eq_true.mp h.2⟩, fun h => ⟨h.1, List.all_eq_true.mpr h.2⟩⟩

/-! ### Keys -/

theorem not_isBlank_of_isKeyChar {c : Char} (h : isKeyChar c = true) :
  isBlank c = false
  := by
  have halphanum : c.isAlphanum
      = (decide (65 ≤ c.val ∧ c.val ≤ 90) || (decide (97 ≤ c.val) && decide (c.val ≤ 122)) ||
        (decide (48 ≤ c.val) && decide (c.val ≤ 57))) :=
    rfl
  simp only [isKeyChar, halphanum, isBlank, Bool.or_eq_true, Bool.and_eq_true, decide_eq_true_eq,
    beq_iff_eq, Char.le_def, Bool.or_eq_false_iff, Bool.and_eq_false_iff, decide_eq_false_iff_not,
    beq_eq_false_iff_ne, UInt32.le_iff_toNat_le, ne_eq, Char.ext_iff, ← UInt32.toNat_inj,
    Char.reduceVal, UInt32.reduceToNat] at h ⊢
  omega

theorem not_isKeyChar_of_isBlank {c : Char} (h : isBlank c = true) :
  isKeyChar c = false
  := by
  by_contra hc
  rw [not_isBlank_of_isKeyChar (by simpa using hc)] at h
  cases h

theorem IsKey.isWord {key : Text} (h : IsKey key) :
  IsWord key
  := ⟨h.ne_nil, fun c hc => not_isBlank_of_isKeyChar (h.keyChar c hc)⟩

theorem IsKey.exists_cons {key : Text} (h : IsKey key) :
  ∃ x s, key = x :: s ∧ isKeyChar x = true
  := by
  cases key with
  | nil => apply absurd rfl h.ne_nil
  | cons x s => use x, s, rfl, h.keyChar x List.mem_cons_self

theorem IsKey.trimStart_append {key : Text} (h : IsKey key) (r : Text) :
  trimStart (key ++ r) = key ++ r
  := by
  obtain ⟨x, s, rfl, hx⟩ := h.exists_cons
  apply trimStart_cons_of_not_blank (not_isBlank_of_isKeyChar hx)

theorem IsKey.not_mem {key : Text} (h : IsKey key) {c : Char} (hc : isKeyChar c = false) :
  c ∉ key
  := by
  intro hmem
  rw [h.keyChar c hmem] at hc
  cases hc

theorem isKey_exportWord :
  IsKey exportWord
  := by
  decide

/-- No character of a key stands at the start of the text. -/
def EndsKey (s : Text) : Prop :=
  ∀ c ∈ s.head?, isKeyChar c = false

theorem endsKey_cons {c : Char} {s : Text} :
  EndsKey (c :: s) ↔ isKeyChar c = false
  := by
  simp [EndsKey]

/-- Blanks and an equality sign end a key. -/
theorem endsKey_blanks_append_sign {trail : Text} (h : AllBlank trail) (s : Text) :
  EndsKey (trail ++ '=' :: s)
  := by
  cases trail with
  | nil => apply endsKey_cons.mpr rfl
  | cons c trail => apply endsKey_cons.mpr (not_isKeyChar_of_isBlank (allBlank_cons.mp h).1)

theorem IsKey.dropWhile_append {key r : Text} (h : IsKey key) (hr : EndsKey r) :
  (key ++ r).dropWhile isKeyChar = r
  := by
  rw [List.dropWhile_append_of_pos h.keyChar]
  cases r with
  | nil => rfl
  | cons c r => simp [endsKey_cons.mp hr]

/-- A text begins with at most one key that does not go on. -/
theorem IsKey.append_inj {key key' r r' : Text} (h : IsKey key) (h' : IsKey key') (hr : EndsKey r)
    (hr' : EndsKey r') (heq : key ++ r = key' ++ r') :
  key = key' ∧ r = r'
  := by
  have hrr : r = r' := by
    rw [← h.dropWhile_append hr, heq, h'.dropWhile_append hr']
  use List.append_cancel_right (hrr ▸ heq), hrr

/-- A text that does not end a key begins with one that does not go on. -/
theorem exists_isKey_of_not_endsKey {s : Text} (h : ¬ EndsKey s) :
  ∃ key r, s = key ++ r ∧ IsKey key ∧ EndsKey r
  := by
  use s.takeWhile isKeyChar, s.dropWhile isKeyChar
  constructor
  · symm
    apply List.takeWhile_append_dropWhile
  · constructor
    · constructor
      · cases s with
        | nil => simp [EndsKey] at h
        | cons x s =>
          rw [endsKey_cons, Bool.not_eq_false] at h
          simp [h]
      · intro c hc
        apply List.mem_takeWhile_imp hc
    · intro c hc
      have := List.head?_dropWhile_not isKeyChar s
      rw [Option.mem_def.mp hc] at this
      simpa using this

section Run

variable {β : Type} {k : Span → Text → Option β}

/-- A key is taken whole if what follows fails on the characters of keys. -/
theorem run_key_taken (h : ∀ part x s, isKeyChar x = true → k part (x :: s) = none)
    {key r : Text} (hkey : IsKey key) (hr : EndsKey r) :
  (many1 isKeyChar).taken.run k (key ++ r) = k ⟨key ++ r, r⟩ r
  := by
  obtain ⟨x, s, rfl, hx⟩ := hkey.exists_cons
  rw [run_taken, List.cons_append, run_many1_eq (fun y t _ hy => h _ y t hy) hx, ← List.cons_append,
    hkey.dropWhile_append hr]

theorem run_key_taken_of_endsKey {s : Text} (h : EndsKey s) :
  (many1 isKeyChar).taken.run k s = none
  := by
  cases s with
  | nil => rfl
  | cons x s => apply if_neg (by simp [endsKey_cons.mp h])

end Run

/-! ### From the key on -/

/-- A text that stays on its line, up to the end. -/
def restOfLine : Pattern Text := do
  let text ← (many Text.isInline).taken
  endOfText
  return text.text

/-- The part of an assignment after its key. -/
def signAndText : Pattern Text := do
  blanks
  char '='
  restOfLine

/-- The part of an assignment from its key on. -/
def keyAndText : Pattern (Text × Text) := do
  let key ← (many1 isKeyChar).taken
  let text ← signAndText
  return (key.text, text)

theorem assignment_eq :
  assignment = (do blanks; exportMark; keyAndText)
  := rfl

section Run

variable {β : Type}

theorem run_restOfLine {k : Text → Text → Option β} (t : Text) :
  restOfLine.run k t = if AllInline t then k t [] else none
  := by
  have hdrop : t.dropWhile isInline = [] ↔ AllInline t := by
    simp [AllInline, isInline, List.dropWhile_eq_nil_iff]
  rw [restOfLine, run_bind, run_taken, run_many_eq (fun x s _ _ => rfl), run_bind, run_endOfText]
  by_cases ht : AllInline t
  · rw [if_pos (hdrop.mpr ht), if_pos ht, hdrop.mpr ht]
    simp [Span.text]
  · rw [if_neg (mt hdrop.mp ht), if_neg ht]

/-- The text after an equality sign with blanks before it. -/
def textAfterSign? (r : Text) : Option Text :=
  match trimStart r with
  | '=' :: t => if AllInline t then some t else none
  | _ => none

theorem textAfterSign?_eq_some_iff {r text : Text} :
  textAfterSign? r = some text ↔
    ∃ trail, r = trail ++ '=' :: text ∧ AllBlank trail ∧ AllInline text
  := by
  rw [textAfterSign?]
  constructor
  · intro h
    obtain ⟨trail, htrail, hr⟩ := exists_allBlank_append_trimStart r
    split at h
    case h_1 t ht =>
      obtain ⟨htext, heq⟩ := Option.ite_none_right_eq_some.mp h
      obtain rfl := Option.some.inj heq
      rw [ht] at hr
      use trail
    case h_2 => cases h
  · rintro ⟨trail, rfl, htrail, htext⟩
    rw [htrail.trimStart_append, trimStart_cons_of_not_blank rfl]
    apply if_pos htext

theorem textAfterSign?_of_isKeyChar {x : Char} (h : isKeyChar x = true) (s : Text) :
  textAfterSign? (x :: s) = none
  := by
  rw [textAfterSign?, trimStart_cons_of_not_blank (not_isBlank_of_isKeyChar h)]
  split
  case h_1 heq =>
    obtain rfl := (List.cons.inj heq).1
    cases h
  case h_2 => rfl

theorem run_signAndText {k : Text → Text → Option β} (r : Text) :
  signAndText.run k r = (textAfterSign? r).bind (k · [])
  := by
  have hsign : ∀ x s, x :: s <:+ r → isBlank x = true →
      (do char '='; restOfLine).run k (x :: s) = none := by
    rintro x s - hx
    apply run_char_bind_of_ne
    rintro rfl
    cases hx
  rw [signAndText, run_blanks_bind hsign, textAfterSign?]
  cases trimStart r with
  | nil => rfl
  | cons x t =>
    by_cases hx : x = '='
    · subst hx
      apply (run_restOfLine t).trans
      by_cases ht : AllInline t <;> simp [ht]
    · rw [run_char_bind_of_ne hx]
      simp [hx]

theorem run_keyAndText_append {k : Text × Text → Text → Option β} {key r : Text} (hkey : IsKey key)
    (hr : EndsKey r) :
  keyAndText.run k (key ++ r) = (textAfterSign? r).bind fun text => k (key, text) []
  := by
  rw [keyAndText, run_bind, run_key_taken _ hkey hr, run_bind, run_signAndText]
  · simp
  · intro part x s hx
    rw [run_bind, run_signAndText, textAfterSign?_of_isKeyChar hx]
    rfl

theorem run_keyAndText_of_endsKey {k : Text × Text → Text → Option β} {s : Text} (h : EndsKey s) :
  keyAndText.run k s = none
  := by
  rw [keyAndText, run_bind, run_key_taken_of_endsKey h]

end Run

/-- From its key on, an assignment is the key, blanks, an equality sign, and the text. -/
theorem first_keyAndText_eq_some_iff {s key text : Text} :
  keyAndText.first s = some (key, text) ↔
    ∃ trail, s = key ++ (trail ++ '=' :: text) ∧ IsKey key ∧ AllBlank trail ∧ AllInline text
  := by
  by_cases hs : EndsKey s
  · rw [first, run_keyAndText_of_endsKey hs]
    simp only [reduceCtorEq, false_iff, not_exists]
    rintro trail ⟨rfl, hkey, -⟩
    obtain ⟨x, r, rfl, hx⟩ := hkey.exists_cons
    rw [List.cons_append, endsKey_cons, hx] at hs
    cases hs
  · obtain ⟨key', r, rfl, hkey, hr⟩ := exists_isKey_of_not_endsKey hs
    rw [first, run_keyAndText_append hkey hr]
    constructor
    · intro h
      obtain ⟨text', htext, heq⟩ := Option.bind_eq_some_iff.mp h
      obtain ⟨rfl, rfl⟩ := Prod.mk.inj (Option.some.inj heq)
      obtain ⟨trail, rfl, htrail, hinline⟩ := textAfterSign?_eq_some_iff.mp htext
      use trail
    · rintro ⟨trail, heq, hkey', htrail, hinline⟩
      obtain ⟨rfl, rfl⟩ :=
        hkey.append_inj hkey' hr (endsKey_blanks_append_sign htrail text) heq
      rw [textAfterSign?_eq_some_iff.mpr ⟨trail, rfl, htrail, hinline⟩]
      rfl

/-! ### The optional `export` -/

section Run

variable {β : Type} {k : Unit → Text → Option β}

/-- Before a key, `export` with a blank after it is tried first. -/
theorem run_exportMark_append (h : ∀ s, EndsKey s → k () s = none) {g : Char}
    (hg : isBlank g = true) (r : Text) :
  exportMark.run k (exportWord ++ g :: r)
    = (k () (trimStart r) <|> k () (exportWord ++ g :: r))
  := by
  have hblank : ∀ x s, x :: s <:+ r → isBlank x = true → k () (x :: s) = none := by
    rintro x s - hx
    apply h
    apply endsKey_cons.mpr (not_isKeyChar_of_isBlank hx)
  rw [exportMark, run_optional, run_bind, run_word_append, blanks1, run_many1_eq hblank hg,
    List.dropWhile_cons_of_pos hg]
  rfl

theorem run_exportMark_of_forall_ne {s : Text}
    (h : ∀ g r, isBlank g = true → s ≠ exportWord ++ g :: r) :
  exportMark.run k s = k () s
  := by
  have hnone : (do word exportWord; blanks1).run k s = none := by
    by_cases hs : exportWord <+: s
    · obtain ⟨t, rfl⟩ := hs
      rw [run_bind, run_word_append]
      cases t with
      | nil => rfl
      | cons g r =>
        apply if_neg
        intro hg
        apply h g r hg rfl
    · apply run_word_eq_none hs
  rw [exportMark, run_optional, hnone]
  rfl

end Run

/-! ### Whole lines -/

/-- Blanks at the start of a line are taken before the optional `export`. -/
theorem run_blanks_exportMark {α β : Type} {p : Pattern α} {l : α → Text → Option β}
    (h : ∀ s, EndsKey s → p.run l s = none) (s : Text) :
  (do blanks; exportMark; p).run l s = exportMark.run (fun _ r => p.run l r) (trimStart s)
  := by
  apply run_blanks_bind
  rintro x t - hx
  apply (run_exportMark_of_forall_ne _).trans
  · apply h
    apply endsKey_cons.mpr (not_isKeyChar_of_isBlank hx)
  · rintro g r - heq
    rw [(List.cons.inj heq).1] at hx
    cases hx

theorem first_assignment (line : Text) :
  assignment.first line = exportMark.run (fun _ r => keyAndText.first r) (trimStart line)
  := by
  rw [first, assignment_eq]
  apply run_blanks_exportMark (fun _ => run_keyAndText_of_endsKey)

/-- A key alone may stand before the equality sign, also where it is the word `export`. -/
theorem first_assignment_of_key {lead trail key text : Text} (hlead : AllBlank lead)
    (hkey : IsKey key) (htrail : AllBlank trail) (htext : AllInline text) :
  assignment.first (lead ++ (key ++ (trail ++ '=' :: text))) = some (key, text)
  := by
  have hfirst : keyAndText.first (key ++ (trail ++ '=' :: text)) = some (key, text) :=
    first_keyAndText_eq_some_iff.mpr ⟨trail, rfl, hkey, htrail, htext⟩
  rw [first_assignment, hlead.trimStart_append, hkey.trimStart_append]
  by_cases hmark : ∃ g r, isBlank g = true ∧ key ++ (trail ++ '=' :: text) = exportWord ++ g :: r
  · -- the key is `export` itself, and after the blanks the equality sign is no key
    obtain ⟨g, r, hg, heq⟩ := hmark
    obtain ⟨-, hr⟩ := hkey.append_inj isKey_exportWord (endsKey_blanks_append_sign htrail text)
      (endsKey_cons.mpr (not_isKeyChar_of_isBlank hg)) heq
    have hsign : trimStart r = '=' :: text := by
      rw [← trimStart_cons_of_blank hg, ← hr, htrail.trimStart_append,
        trimStart_cons_of_not_blank rfl]
    have hnone : keyAndText.first ('=' :: text) = none :=
      run_keyAndText_of_endsKey (endsKey_cons.mpr rfl)
    rw [heq, run_exportMark_append _ hg, hsign, hnone, ← heq, hfirst]
    · rfl
    · intro s hs
      apply run_keyAndText_of_endsKey hs
  · rw [run_exportMark_of_forall_ne, hfirst]
    intro g r hg heq
    apply hmark ⟨g, r, hg, heq⟩

/-- The word `export` may stand before the key. -/
theorem first_assignment_of_export {lead gap trail key text : Text} (hlead : AllBlank lead)
    (hgap : AllBlank gap) (hne : gap ≠ []) (hkey : IsKey key) (htrail : AllBlank trail)
    (htext : AllInline text) :
  assignment.first (lead ++ (exportWord ++ (gap ++ (key ++ (trail ++ '=' :: text)))))
    = some (key, text)
  := by
  have hfirst : keyAndText.first (key ++ (trail ++ '=' :: text)) = some (key, text) :=
    first_keyAndText_eq_some_iff.mpr ⟨trail, rfl, hkey, htrail, htext⟩
  cases gap with
  | nil => apply absurd rfl hne
  | cons g gap =>
    rw [allBlank_cons] at hgap
    rw [first_assignment, hlead.trimStart_append, List.cons_append]
    apply (run_exportMark_append _ hgap.1 _).trans
    · rw [hgap.2.trimStart_append, hkey.trimStart_append, hfirst]
      rfl
    · intro s hs
      apply run_keyAndText_of_endsKey hs

/-- A line that the pattern accepts is a key between blanks, or `export` and a key, and after an
equality sign the text. -/
theorem exists_of_first_assignment {line key text : Text}
    (h : assignment.first line = some (key, text)) :
  ∃ lead trail, AllBlank lead ∧ AllBlank trail ∧ IsKey key ∧ AllInline text ∧
    (line = lead ++ (key ++ (trail ++ '=' :: text)) ∨
      ∃ gap, gap ≠ [] ∧ AllBlank gap ∧
        line = lead ++ (exportWord ++ (gap ++ (key ++ (trail ++ '=' :: text)))))
  := by
  obtain ⟨lead, hlead, hline⟩ := exists_allBlank_append_trimStart line
  rw [first_assignment] at h
  by_cases hmark : ∃ g r, isBlank g = true ∧ trimStart line = exportWord ++ g :: r
  · obtain ⟨g, r, hg, heq⟩ := hmark
    rw [heq, run_exportMark_append (fun s hs => run_keyAndText_of_endsKey hs) hg,
      Option.orElse_eq_orElse, Option.orElse_eq_or, Option.or_eq_some_iff] at h
    rcases h with h | ⟨-, h⟩
    · obtain ⟨gap, hgap, hr⟩ := exists_allBlank_append_trimStart r
      obtain ⟨trail, hs, hkey, htrail, htext⟩ := first_keyAndText_eq_some_iff.mp h
      use lead, trail, hlead, htrail, hkey, htext
      right
      use g :: gap, List.cons_ne_nil _ _, allBlank_cons.mpr ⟨hg, hgap⟩
      rw [hline, heq, List.cons_append, ← hs, ← hr]
    · obtain ⟨trail, hs, hkey, htrail, htext⟩ := first_keyAndText_eq_some_iff.mp h
      use lead, trail, hlead, htrail, hkey, htext
      left
      rw [← hs, ← heq]
      apply hline
  · rw [run_exportMark_of_forall_ne] at h
    · obtain ⟨trail, hs, hkey, htrail, htext⟩ := first_keyAndText_eq_some_iff.mp h
      use lead, trail, hlead, htrail, hkey, htext
      left
      rw [← hs]
      apply hline
    · intro g r hg heq
      apply hmark ⟨g, r, hg, heq⟩

/-- A key alone between blanks stands before the equality sign. -/
theorem assigns_of_key {lead trail key text : Text} (hlead : AllBlank lead) (hkey : IsKey key)
    (htrail : AllBlank trail) (htext : AllInline text) :
  Assigns (lead ++ (key ++ (trail ++ '=' :: text))) key text
  := by
  have hsign : isBlank '=' = false := rfl
  have hends := allInline_iff_not_mem.mp htext
  use lead ++ (key ++ trail)
  refine ⟨by simp, ?_, Or.inl ?_, hkey, hends.2⟩
  · simp [hlead.not_mem hsign, hkey.not_mem (c := '=') rfl, htrail.not_mem hsign]
  · rw [hlead.words_append, hkey.isWord.words_append htrail.startsBlank,
      words_eq_nil_iff.mpr htrail]

/-- The word `export` and a key stand before the equality sign. -/
theorem assigns_of_export {lead gap trail key text : Text} (hlead : AllBlank lead)
    (hgap : AllBlank gap) (hne : gap ≠ []) (hkey : IsKey key) (htrail : AllBlank trail)
    (htext : AllInline text) :
  Assigns (lead ++ (exportWord ++ (gap ++ (key ++ (trail ++ '=' :: text))))) key text
  := by
  have hsign : isBlank '=' = false := rfl
  have hends := allInline_iff_not_mem.mp htext
  use lead ++ (exportWord ++ (gap ++ (key ++ trail)))
  refine ⟨by simp, ?_, Or.inr ?_, hkey, hends.2⟩
  · simp [hlead.not_mem hsign, isKey_exportWord.not_mem (c := '=') rfl, hgap.not_mem hsign,
      hkey.not_mem (c := '=') rfl, htrail.not_mem hsign]
  · rw [hlead.words_append, isKey_exportWord.isWord.words_append (hgap.startsBlank_append hne _),
      hgap.words_append, hkey.isWord.words_append htrail.startsBlank, words_eq_nil_iff.mpr htrail]

theorem Assigns.isKey {line key text : Text} (h : Assigns line key text) :
  IsKey key
  := by
  obtain ⟨head, -, -, -, hkey, -⟩ := h
  apply hkey

theorem Assigns.allInline {line key text : Text} (h : Assigns line key text) (hl : '\n' ∉ line) :
  AllInline text
  := by
  obtain ⟨head, rfl, -, -, -, hends⟩ := h
  rw [List.mem_append, List.mem_cons, not_or, not_or] at hl
  apply allInline_iff_not_mem.mpr ⟨hl.2.2, hends⟩

theorem assigns_of_first_assignment {line key text : Text}
    (h : assignment.first line = some (key, text)) :
  Assigns line key text
  := by
  obtain ⟨lead, trail, hlead, htrail, hkey, htext, hline⟩ := exists_of_first_assignment h
  rcases hline with rfl | ⟨gap, hne, hgap, rfl⟩
  · apply assigns_of_key hlead hkey htrail htext
  · apply assigns_of_export hlead hgap hne hkey htrail htext

theorem first_assignment_of_assigns {line key text : Text} (h : Assigns line key text)
    (hfeed : '\n' ∉ text) :
  assignment.first line = some (key, text)
  := by
  obtain ⟨head, rfl, -, hwords, hkey, hends⟩ := h
  have htext : AllInline text := allInline_iff_not_mem.mpr ⟨hfeed, hends⟩
  rcases hwords with hwords | hwords
  · obtain ⟨lead, trail, rfl, hlead, htrail⟩ := exists_of_words_eq_singleton hwords
    have := first_assignment_of_key hlead hkey htrail htext
    simpa using this
  · obtain ⟨lead, rest, rfl, hlead, -, hrest, hlast⟩ := words_eq_cons_iff.mp hwords
    obtain ⟨gap, trail, rfl, hgap, htrail⟩ := exists_of_words_eq_singleton hlast
    have hne : gap ≠ [] := by
      rintro rfl
      obtain ⟨x, s, rfl, hx⟩ := hkey.exists_cons
      have hblank : isBlank x = true := hrest x rfl
      rw [not_isBlank_of_isKeyChar hx] at hblank
      cases hblank
    have := first_assignment_of_export hlead hgap hne hkey htrail htext
    simpa using this

/-- The pattern of assignments accepts the lines of the grammar, and no others. -/
theorem first_assignment_eq_some_iff {line key text : Text} (h : '\n' ∉ line) :
  assignment.first line = some (key, text) ↔ Assigns line key text
  := by
  constructor
  · apply assigns_of_first_assignment
  · intro ha
    apply first_assignment_of_assigns ha
    obtain ⟨head, rfl, -⟩ := ha
    intro hfeed
    apply h
    simp [hfeed]

end Credentials.EnvFile
