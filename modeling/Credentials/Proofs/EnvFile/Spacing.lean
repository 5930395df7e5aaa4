import Credentials.File
import Credentials.Proofs.EnvFile.Concatenation
import Credentials.Proofs.Text.Utf8

/-!
# Blanks that do not matter

The blanks around the key of an assignment and around its text may be any, so long as no line feed
is among them and the text stays on its line, and the word `export` may stand before the key or not
(`parse_line`).  A byte order mark, too, is a blank, and changes nothing at the start of a file,
whatever its first line is (`parse_cons_of_isBlank`).
-/

namespace Credentials.EnvFile

open Text

/-- The blanks on a line that assigns a text to a key: at the start of the line, after the word
`export`, between the key and the equality sign, and on both sides of the text.  No line feed is
among them, and no line end is around the text. -/
structure Spacing where
  lead : Text
  gap : Text
  trail : Text
  left : Text
  right : Text
  lead_blank : AllBlank lead
  gap_blank : AllBlank gap
  trail_blank : AllBlank trail
  left_blank : AllBlank left
  right_blank : AllBlank right
  gap_ne_nil : gap ≠ []
  feed_not_mem : '\n' ∉ lead ++ (gap ++ trail)
  inline : AllInline (left ++ right)

variable {key v : Text}

/-- The line that assigns a text to a key, with the word `export` before the key if it is
`exported`. -/
def Spacing.line (w : Spacing) (exported : Bool) (key v : Text) : Text :=
  w.lead ++ ((if exported then exportWord ++ w.gap else []) ++
    (key ++ (w.trail ++ '=' :: (w.left ++ (v ++ w.right)))))

/-! ### Lines -/

theorem Spacing.assigns_line (w : Spacing) (exported : Bool) (hkey : IsKey key) (hv : AllInline v) :
  Assigns (w.line exported key v) key (w.left ++ (v ++ w.right))
  := by
  have hinline := allInline_append.mp w.inline
  have htext : AllInline (w.left ++ (v ++ w.right)) :=
    allInline_append.mpr ⟨hinline.1, allInline_append.mpr ⟨hv, hinline.2⟩⟩
  cases exported with
  | false => apply assigns_of_key w.lead_blank hkey w.trail_blank htext
  | true =>
    have h := assigns_of_export w.lead_blank w.gap_blank w.gap_ne_nil hkey w.trail_blank htext
    rw [line, if_pos rfl, List.append_assoc]
    apply h

theorem Spacing.feed_not_mem_line (w : Spacing) (exported : Bool) (hkey : IsKey key)
    (hv : AllInline v) :
  '\n' ∉ w.line exported key v
  := by
  have hfeed := w.feed_not_mem
  have hinline := (allInline_iff_not_mem.mp w.inline).1
  have hexport := isKey_exportWord.not_mem (c := '\n') rfl
  have hname := hkey.not_mem (c := '\n') rfl
  have htext := (allInline_iff_not_mem.mp hv).1
  simp only [List.mem_append, not_or] at hfeed hinline
  cases exported with
  | false => simp [line, hfeed, hinline, hname, htext]
  | true => simp [line, hfeed, hinline, hexport, hname, htext]

/-- Lines that assign the same text to the same key, but for blanks around it, give the same. -/
theorem parse_ofList_congr {line line' text text' : Text} (h : Assigns line key text)
    (h' : Assigns line' key text') (hl : '\n' ∉ line) (hl' : '\n' ∉ line')
    (htrim : trim text = trim text') :
  parse (String.ofList line) = parse (String.ofList line')
  := by
  rw [parse_ofList_of_feed_not_mem hl, parse_ofList_of_feed_not_mem hl', readLine, readLine,
    h.assigned? hl, h'.assigned? hl', htrim]

/-- A line gives what its key and its text give without the blanks and without `export`. -/
theorem parse_line (w : Spacing) (exported : Bool) (hkey : IsKey key) (hv : AllInline v) :
  parse (String.ofList (w.line exported key v)) = parse (String.ofList (key ++ '=' :: v))
  := by
  apply parse_ofList_congr (w.assigns_line exported hkey hv)
    (assigns_of_key allBlank_nil hkey allBlank_nil hv) (w.feed_not_mem_line exported hkey hv)
  · simp [hkey.not_mem (c := '\n') rfl, (allInline_iff_not_mem.mp hv).1]
  · rw [trim, w.left_blank.trimStart_append, ← trim, w.right_blank.trim_append]

/-! ### Files -/

theorem assigned?_cons_of_isBlank {c : Char} (hc : isBlank c = true) (line : Text) :
  assigned? (c :: line) = assigned? line
  := by
  rw [assigned?, assigned?, first_assignment, first_assignment, trimStart_cons_of_blank hc]

/-- A blank at the start of a file that ends no line changes nothing. -/
theorem parse_cons_of_isBlank {c : Char} (hc : isBlank c = true) (hfeed : c ≠ '\n')
    (hreturn : c ≠ '\r') (s : Text) :
  parse (String.ofList (c :: s)) = parse (String.ofList s)
  := by
  rw [parse, parse, String.toList_ofList, String.toList_ofList, lines_cons hfeed (Or.inl hreturn)]
  cases hs : lines s with
  | nil => apply absurd hs (lines_ne_nil s)
  | cons l ls =>
    rw [consHead_eq, List.foldl_cons, List.foldl_cons, readLine, readLine,
      assigned?_cons_of_isBlank hc]

theorem parse_byteOrderMark_append (text : String) :
  parse ("\ufeff" ++ text) = parse text
  := by
  have heq : "\ufeff" ++ text = String.ofList ('\ufeff' :: text.toList) := by
    rw [← String.toList_inj]
    simp
  rw [heq, parse_cons_of_isBlank (by decide) (by decide) (by decide), String.ofList_toList]

/-- The octets of a byte order mark are read as the mark. -/
theorem decode_byteOrderMark_append (octets : List UInt8) :
  Utf8.decode ([0xEF, 0xBB, 0xBF] ++ octets) = '\ufeff' :: Utf8.decode octets
  := Utf8.decodeFrom_utf8EncodeChar '\ufeff' octets

/-- An assignment gives the same whatever the blanks around its key and its text are, and with the
word `export` or without it.  A file with a byte order mark gives the same as without it, and so does
the text that begins with the mark, as which such a file is read. -/
theorem parse_line_and_byteOrderMark :
  (∀ (w : Spacing) (exported : Bool) (key v : Text), IsKey key → AllInline v →
    parse (String.ofList (w.line exported key v)) = parse (String.ofList (key ++ '=' :: v))) ∧
  (∀ text : String, parse ("\ufeff" ++ text) = parse text) ∧
  ∀ (path : String) (octets : List UInt8),
    Settings.ofFile path (.ok ([0xEF, 0xBB, 0xBF] ++ octets)) = Settings.ofFile path (.ok octets)
  := by
  refine ⟨fun w exported key v => parse_line w exported, parse_byteOrderMark_append, ?_⟩
  intro path octets
  have hparse : parse (String.ofList (Utf8.decode ([0xEF, 0xBB, 0xBF] ++ octets)))
      = parse (String.ofList (Utf8.decode octets)) := by
    rw [decode_byteOrderMark_append]
    apply parse_cons_of_isBlank
    · decide
    · decide
    · decide
  rw [Settings.ofFile, Settings.ofFile, Settings.ofText, Settings.ofText, hparse]

/-- A byte order mark after the word `export`, and ends of lines other than a line feed before the
equality sign, are blanks like any other. -/
theorem parse_line_of_separators :
  IsKey "K".toList ∧ AllInline "\"a # b\"".toList ∧
    parse "\r\u2028export\ufeffK\u2029= \"a # b\"\t" = (∅ : Values).insert "K" "a # b"
  := by
  have hkey : IsKey "K".toList := by decide
  have hv : AllInline "\"a # b\"".toList := by decide
  have hparse : parse "K=\"a # b\"" = (∅ : Values).insert "K" "a # b" :=
    @parse_ofList_key_append "K".toList "\"a # b\"".toList "a # b".toList hkey hv (by decide)
      (by decide)
  have hline : parse "\r\u2028export\ufeffK\u2029= \"a # b\"\t" = parse "K=\"a # b\"" :=
    parse_line_and_byteOrderMark.1
      ⟨['\r', '\u2028'], ['\ufeff'], ['\u2029'], [' '], ['\t'], by decide, by decide, by decide,
        by decide, by decide, by decide, by decide, by decide⟩
      true "K".toList "\"a # b\"".toList hkey hv
  exact ⟨hkey, hv, hline.trans hparse⟩

end Credentials.EnvFile
