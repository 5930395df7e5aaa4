import Credentials.Proofs.EnvFile.QuotedValue

/-!
# Files of quoted values

A file is written by putting every value between quotes on a line of its own.  A content `s` may
stand between quotes `q` if it is a text on one line which either has no number sign, or in which
every `q` has a backslash in front of it (`IsEnclosable`).  Reading the file then gives every key
the content of its last line, with escapes written out between double quotes
(`getElem?_parse_quotedFile`).  Hence a value without backslashes and double quotes is read back
from its line even if it has line feeds and carriage returns, which are written as escapes.
-/

namespace Credentials.EnvFile

open Pattern Text

variable {q : Char} {s : Text}

/-- The content `s` may be written between quotes `q`. -/
structure IsEnclosable (q : Char) (s : Text) : Prop where
  isQuote : isQuote q = true
  inline : AllInline s
  closed : '#' ∉ s ∨ ∀ i, s[i]? = some q → 1 ≤ i ∧ s[i - 1]? = some '\\'

/-- The content `s` between quotes `q`. -/
def enclose (q : Char) (s : Text) : Text :=
  q :: (s ++ [q])

/-- What makes up a line of a file besides the value. -/
structure Heading where
  key : Text
  exported : Bool
  lineEnd : LineEnd
  isKey : IsKey key
  ne_parentName : String.ofList key ≠ Member.parentName

/-- A line with a content between quotes. -/
structure QuotedLine extends Heading where
  quote : Char
  content : Text
  isEnclosable : IsEnclosable quote content

/-- The text of a line that assigns the text to its key. -/
def Heading.line (h : Heading) (text : Text) : Text :=
  (if h.exported then exportWord ++ [' '] else []) ++ (h.key ++ '=' :: text)

/-- The text of a quoted line, without the end of the line. -/
def QuotedLine.text (l : QuotedLine) : Text :=
  l.line (enclose l.quote l.content)

/-- The value as which the content of a line is read. -/
def QuotedLine.value (l : QuotedLine) : String :=
  String.ofList (decoded l.quote l.content)

/-- The file with the lines. -/
def quotedFile (ls : List QuotedLine) : String :=
  String.ofList (joined (ls.map fun l => (l.text, l.lineEnd)))

/-! ### Reading what was enclosed -/

theorem trim_enclose (hq : isQuote q = true) :
  trim (enclose q s) = enclose q s
  := by
  have hblank := not_isBlank_of_isQuote hq
  rw [enclose, trim_cons_of_not_blank hblank, trimEnd_append_of_not_blank hblank]

theorem allInline_enclose (hq : isQuote q = true) (hs : AllInline s) :
  AllInline (enclose q s)
  := by
  simp [enclose, not_isLineEnd_of_isQuote hq, hs]

/-- The text after a position before the closing quote does not end an entry. -/
theorem not_endsEntry_append_quote (hq : isQuote q = true) (h : '#' ∉ s) :
  ¬ EndsEntry (s ++ [q])
  := by
  intro hend
  obtain ⟨lead, hlead, hs⟩ := exists_allBlank_append_trimStart (s ++ [q])
  cases ht : trimStart (s ++ [q]) with
  | nil =>
    have hblank := trimStart_eq_nil_iff.mp ht q (by simp)
    rw [not_isBlank_of_isQuote hq] at hblank
    cases hblank
  | cons c t =>
    obtain rfl : c = '#' := hend c (by simp [ht])
    have hmem : '#' ∈ s ++ [q] := by
      rw [hs, ht]
      simp
    rcases List.mem_append.mp hmem with hmem | hmem
    · apply h hmem
    · apply ne_hash_of_isQuote hq (List.mem_singleton.mp hmem).symm

/-- If no number sign stands between the quotes, only the last quote may close. -/
theorem eq_of_closesAt_enclose (hq : isQuote q = true) (h : '#' ∉ s) {p : Nat}
    (hp : ClosesAt q (enclose q s) p) :
  p = s.length + 1
  := by
  obtain ⟨i, rfl, -, -⟩ := isCandidate_cons_iff.mp hp.1
  have hlt := hp.lt_length
  rw [enclose, List.length_cons, List.length_append, List.length_singleton] at hlt
  by_contra hne
  have hend : EndsEntry ((s ++ [q]).drop (i + 1)) := hp.2
  rw [List.drop_append_of_le_length (by omega)] at hend
  apply not_endsEntry_append_quote hq _ hend
  intro hmem
  apply h (List.mem_of_mem_drop hmem)

/-- If every quote inside has a backslash in front of it, the last quote may close. -/
theorem closesAt_enclose (h : ∀ i, s[i]? = some q → 1 ≤ i ∧ s[i - 1]? = some '\\') :
  ClosesAt q (enclose q s) (s.length + 1)
  := by
  constructor
  · use by omega, by simp [enclose]
    intro i hi hpos hquote
    obtain ⟨i, rfl⟩ := Nat.exists_eq_add_of_le' hpos
    have hlt : i < s.length := by omega
    rw [enclose, List.getElem?_cons_succ, List.getElem?_append_left hlt] at hquote
    obtain ⟨hpos', hback⟩ := h i hquote
    obtain ⟨i, rfl⟩ := Nat.exists_eq_add_of_le' hpos'
    rw [Nat.add_sub_cancel] at hback
    rw [enclose, Nat.add_sub_cancel, List.getElem?_cons_succ, List.getElem?_append_left (by omega),
      hback]
  · simp [enclose, EndsEntry, trimStart]

theorem contentOf_enclose_of_closing? (h : closing? q (enclose q s) = some (s.length + 1)) :
  contentOf q (enclose q s) = s
  := by
  rw [contentOf, h]
  simp [enclose]

/-- What was enclosed is the content of the value, whether its last quote closes it or the value is
read without regard to quotes. -/
theorem contentOf_enclose (h : IsEnclosable q s) :
  contentOf q (enclose q s) = s
  := by
  cases hclosing : closing? q (enclose q s) with
  | some p =>
    obtain ⟨hp, hlast⟩ := closing?_eq_some_iff.mp hclosing
    apply contentOf_enclose_of_closing?
    rcases h.closed with hhash | hback
    · rw [hclosing, eq_of_closesAt_enclose h.isQuote hhash hp]
    · have hle := hlast _ (closesAt_enclose hback)
      have hlt := hp.lt_length
      rw [enclose, List.length_cons, List.length_append, List.length_singleton] at hlt
      rw [hclosing, Nat.le_antisymm (Nat.le_of_lt_succ hlt) hle]
  | none =>
    rcases h.closed with hhash | hback
    · have hne := ne_hash_of_isQuote h.isQuote
      have htake : (enclose q s).takeWhile (· != '#') = enclose q s := by
        rw [List.takeWhile_eq_self_iff]
        intro c hc
        rw [bne_iff_ne]
        rintro rfl
        simp [enclose, hhash, hne.symm] at hc
      rw [contentOf, hclosing]
      simp only [htake, trim_enclose h.isQuote]
      rw [enclose, stripped_cons]
      simp
    · apply absurd (closesAt_enclose hback) (closing?_eq_none_iff.mp hclosing _)

/-! ### Files -/

theorem Heading.assigns_line (h : Heading) {text : Text} (ht : AllInline text) :
  Assigns (h.line text) h.key text
  := by
  rw [Heading.line]
  split
  · have hgap : AllBlank [' '] := by decide
    have hassigns := assigns_of_export allBlank_nil hgap (by simp) h.isKey allBlank_nil ht
    simpa using hassigns
  · apply assigns_of_key allBlank_nil h.isKey allBlank_nil ht

theorem Heading.not_mem_line (h : Heading) {text : Text} {c : Char} (hc : isKeyChar c = false)
    (hblank : c ≠ ' ') (hsign : c ≠ '=') (ht : c ∉ text) :
  c ∉ h.line text
  := by
  rw [Heading.line]
  split <;> simp [isKey_exportWord.not_mem hc, h.isKey.not_mem hc, hblank, hsign, ht]

namespace QuotedLine

variable (l : QuotedLine)

theorem not_mem_text :
  '\n' ∉ l.text ∧ '\r' ∉ l.text
  := by
  obtain ⟨hfeed, hreturn, -⟩ := allInline_iff_not_mem.mp
    (allInline_enclose l.isEnclosable.isQuote l.isEnclosable.inline)
  constructor
  · apply l.not_mem_line rfl (by decide) (by decide) hfeed
  · apply l.not_mem_line rfl (by decide) (by decide) hreturn

theorem assigned?_text :
  assigned? l.text = some (l.key, decoded l.quote l.content)
  := by
  have hq := l.isEnclosable.isQuote
  have hinline := allInline_enclose hq l.isEnclosable.inline
  have hassigns : Assigns l.text l.key (enclose l.quote l.content) := l.assigns_line hinline
  rw [hassigns.assigned? l.not_mem_text.1, trim_enclose hq, enclose,
    valueOf_quoted l.isKey hq (allInline_cons.mp hinline).2, ← enclose,
    contentOf_enclose l.isEnclosable]

theorem valueIn?_text (key : String) :
  valueIn? key.toList l.text
    = if String.ofList l.key = key then some (decoded l.quote l.content) else none
  := by
  simp only [valueIn?, l.assigned?_text, Option.bind_some, ← String.toList_inj,
    String.toList_ofList]

end QuotedLine

/-- Among quoted lines, the last value of a key is the one of the last line with the key. -/
theorem lastValue?_map_text (ls : List QuotedLine) (key : String) :
  (lastValue? key.toList (ls.map QuotedLine.text)).map String.ofList
    = (ls.reverse.find? (String.ofList ·.key = key)).map QuotedLine.value
  := by
  induction ls with
  | nil => rfl
  | cons l ls ih =>
    rw [List.reverse_cons, List.find?_append, Option.map_or, ← ih, List.map_cons,
      lastValue?_cons, l.valueIn?_text, Option.map_or]
    by_cases hkey : String.ofList l.key = key <;> simp [hkey, QuotedLine.value]

/-- The file with the lines is cut into these lines, or is empty. -/
theorem lastValue?_lines_quotedFile (ls : List QuotedLine) (key : Text) :
  lastValue? key (lines (quotedFile ls).toList) = lastValue? key (ls.map QuotedLine.text)
  := by
  cases ls with
  | nil =>
    -- a text without lines is cut into one empty line, which assigns nothing
    have hnone : assigned? [] = none := by decide
    simp [quotedFile, joined, lines, lastValue?, valueIn?, hnone]
  | cons l ls =>
    rw [quotedFile, String.toList_ofList, lines_joined, List.map_map]
    · rfl
    · simp
    · intro m hm
      obtain ⟨l', -, rfl⟩ := List.mem_map.mp hm
      apply l'.not_mem_text

/-! ### Plain values -/

/-- A value may be written between double quotes with its line ends as escapes. -/
structure IsPlain (value : Text) : Prop where
  backslash_not_mem : '\\' ∉ value
  quote_not_mem : doubleQuote ∉ value
  lineSeparator_not_mem : '\u2028' ∉ value
  paragraphSeparator_not_mem : '\u2029' ∉ value

/-- A line that is meant to give its key the value. -/
structure PlainLine extends Heading where
  value : Text
  isPlain : IsPlain value

theorem IsPlain.isEnclosable {value : Text} (h : IsPlain value) :
  IsEnclosable doubleQuote (escapedLine value)
  := by
  constructor
  · rfl
  · apply allInline_iff_not_mem.mpr
    refine ⟨?_, ?_, ?_, ?_⟩
    · intro hmem
      apply (mem_escapedLine hmem).1 rfl
    · intro hmem
      apply (mem_escapedLine hmem).2.1 rfl
    · apply not_mem_escapedLine h.lineSeparator_not_mem (by decide)
    · apply not_mem_escapedLine h.paragraphSeparator_not_mem (by decide)
  · right
    intro i hi
    apply absurd (List.mem_of_getElem? hi)
    apply not_mem_escapedLine h.quote_not_mem (by decide)

/-- The line with the value between double quotes and its line ends as escapes. -/
def PlainLine.quoted (l : PlainLine) : QuotedLine :=
  { l.toHeading with
    quote := doubleQuote
    content := escapedLine l.value
    isEnclosable := l.isPlain.isEnclosable }

theorem PlainLine.value_quoted (l : PlainLine) :
  l.quoted.value = String.ofList l.value
  := congrArg String.ofList (unescaped_escapedLine l.isPlain.backslash_not_mem)

/-- The file with the plain values, between double quotes. -/
def plainFile (ls : List PlainLine) : String :=
  quotedFile (ls.map PlainLine.quoted)

/-- Reading a file of quoted values gives every key the value of its last line, and nothing else;
so does reading the file of plain values. -/
theorem getElem?_parse_quotedFile :
  (∀ (ls : List QuotedLine) (key : String), (parse (quotedFile ls))[key]?
    = (ls.reverse.find? (String.ofList ·.key = key)).map QuotedLine.value) ∧
  ∀ (ls : List PlainLine) (key : String), (parse (plainFile ls))[key]?
    = (ls.reverse.find? (String.ofList ·.key = key)).map (String.ofList ·.value)
  := by
  have hquoted : ∀ (ls : List QuotedLine) (key : String), (parse (quotedFile ls))[key]?
      = (ls.reverse.find? (String.ofList ·.key = key)).map QuotedLine.value := by
    intro ls key
    by_cases hkey : key = Member.parentName
    · have hnone : ls.reverse.find? (String.ofList ·.key = key) = none := by
        rw [List.find?_eq_none]
        intro l _ hl
        apply l.ne_parentName (hkey ▸ of_decide_eq_true hl)
      rw [hnone, hkey, getElem?_parse_parentName]
      rfl
    · rw [getElem?_parse _ hkey, lastValue?_lines_quotedFile, lastValue?_map_text]
  constructor
  · apply hquoted
  · intro ls key
    rw [plainFile, hquoted, ← List.map_reverse, List.find?_map, Option.map_map]
    congr 1
    funext l
    apply l.value_quoted

/-- The second line overrides the first, and the backslash before its closing quote is kept. -/
theorem getElem?_parse_trailing_backslash :
  (parse "KEY=\"a\"\r\nexport KEY='b # \\'")["KEY"]? = some "b # \\"
  := by
  have hkey : IsKey "KEY".toList := by decide
  have hname : String.ofList "KEY".toList ≠ Member.parentName := by decide
  have hfirst : IsEnclosable doubleQuote "a".toList := ⟨rfl, by decide, Or.inl (by decide)⟩
  have hlast : IsEnclosable singleQuote "b # \\".toList := by
    refine ⟨rfl, by decide, Or.inr ?_⟩
    intro i hi
    apply absurd (List.mem_of_getElem? hi) (by decide)
  have h := getElem?_parse_quotedFile.1 [⟨⟨_, false, .returnFeed, hkey, hname⟩, _, _, hfirst⟩,
    ⟨⟨_, true, .feed, hkey, hname⟩, _, _, hlast⟩] "KEY"
  apply h

end Credentials.EnvFile
