import Credentials.Proofs.EnvFile.LastAssignment

/-!
# Files put one after the other

Reading a file whose text is that of one file, a line end and that of another file is the same as
reading the two files and overriding the values of the first by those of the second
(`parse_append`).  Hence every line is read as if it were alone, and the values of a file are those
of its lines, each overridden by the lines after it (`parse_eq_foldl_lines`): no value goes beyond
its line, even if a quote is left open.
-/

namespace Credentials

namespace Values

/-- The map with the value of `later` for each key that `later` has, and the value of `values` for
every other key. -/
def overriddenBy (values later : Values) : Values :=
  values ∪ later

theorem getElem?_overriddenBy (values later : Values) (key : String) :
  (values.overriddenBy later)[key]? = if key ∈ later then later[key]? else values[key]?
  := by
  rw [overriddenBy, Std.ExtTreeMap.getElem?_union]
  simp only [Std.ExtTreeMap.mem_iff_isSome_getElem?]
  cases later[key]? with
  | none => rfl
  | some value => rfl

theorem overriddenBy_self (values : Values) :
  values.overriddenBy values = values
  := by
  apply Std.ExtTreeMap.ext_getElem?
  intro key
  rw [getElem?_overriddenBy, ite_self]

end Values

namespace EnvFile

open Text

/-- The text with a pair of a carriage return and a line feed for every line feed. -/
def withReturns (s : Text) : Text :=
  s.flatMap fun c => if c = '\n' then ['\r', '\n'] else [c]

/-- Lines that follow a map of values override it by the values that they give by themselves. -/
theorem foldl_readLine_eq_overriddenBy (values : Values) (ls : List Text) :
  ls.foldl readLine values = values.overriddenBy (ls.foldl readLine ∅)
  := by
  apply Std.ExtTreeMap.ext_getElem?
  intro key
  rw [Values.overriddenBy, Std.ExtTreeMap.getElem?_union]
  by_cases hkey : key = Member.parentName
  · rw [hkey, getElem?_foldl_readLine_parentName, getElem?_foldl_readLine_parentName]
    rfl
  · rw [getElem?_foldl_readLine ls values hkey, getElem?_foldl_readLine ls ∅ hkey]
    simp

/-! ### Two files -/

/-- A file with a line feed in it gives the values of the text before, without the carriage return
that goes with the line feed, overridden by those of the text after. -/
theorem parse_append (a b : Text) :
  parse (String.ofList (a ++ '\n' :: b))
    = (parse (String.ofList (withoutReturn a))).overriddenBy (parse (String.ofList b))
  := by
  simp only [parse, String.toList_ofList]
  rw [lines_append, List.foldl_append, foldl_readLine_eq_overriddenBy]

/-- A line end of either kind separates two files, if it is not prolonged by the first one. -/
theorem parse_append_lineEnd (e : LineEnd) (a b : String)
    (h : e = .feed → a.toList.getLast? ≠ some '\r') :
  parse (a ++ String.ofList e.text ++ b) = (parse a).overriddenBy (parse b)
  := by
  have heq : a ++ String.ofList e.text ++ b = String.ofList (a.toList ++ (e.text ++ b.toList)) := by
    rw [← String.toList_inj]
    simp
  rw [heq]
  cases e with
  | feed =>
    have hfeed := parse_append a.toList b.toList
    rw [withoutReturn, if_neg (h rfl), String.ofList_toList, String.ofList_toList] at hfeed
    apply hfeed
  | returnFeed =>
    have hreturn := parse_append (a.toList ++ ['\r']) b.toList
    rw [withoutReturn_append_return, List.append_assoc, String.ofList_toList,
      String.ofList_toList] at hreturn
    apply hreturn

/-! ### Many lines -/

/-- A line by itself gives what it gives after other lines. -/
theorem parse_ofList_of_feed_not_mem {line : Text} (h : '\n' ∉ line) :
  parse (String.ofList line) = readLine ∅ line
  := by
  rw [parse, String.toList_ofList, lines_of_not_mem h]
  rfl

theorem foldl_readLine_eq_foldl_overriddenBy {ls : List Text} (h : ∀ l ∈ ls, '\n' ∉ l)
    (values : Values) :
  ls.foldl readLine values
    = (ls.map fun l => parse (String.ofList l)).foldl Values.overriddenBy values
  := by
  induction ls generalizing values with
  | nil => rfl
  | cons l ls ih =>
    rw [List.foldl_cons, ih fun m hm => h m (List.mem_cons_of_mem l hm), List.map_cons,
      List.foldl_cons, parse_ofList_of_feed_not_mem (h l List.mem_cons_self)]
    congr 1
    apply foldl_readLine_eq_overriddenBy values [l]

/-- The values of a file are those of its lines, each read by itself and overridden by the lines
after it. -/
theorem parse_eq_foldl_lines (text : String) :
  parse text
    = ((cutLines text.toList).map fun l => parse (String.ofList l)).foldl Values.overriddenBy ∅
  := by
  rw [← lines_eq_cutLines, parse]
  apply foldl_readLine_eq_foldl_overriddenBy fun _ => feed_not_mem_of_mem_lines

/-! ### Line feeds with carriage returns -/

theorem withReturns_of_not_mem {s : Text} (h : '\n' ∉ s) :
  withReturns s = s
  := by
  induction s with
  | nil => rfl
  | cons c s ih =>
    rw [List.mem_cons, not_or] at h
    rw [withReturns, List.flatMap_cons, ← withReturns, ih h.2, if_neg (Ne.symm h.1),
      List.singleton_append]

theorem withReturns_append_feed {l : Text} (h : '\n' ∉ l) (s : Text) :
  withReturns (l ++ '\n' :: s) = l ++ (LineEnd.returnFeed.text ++ withReturns s)
  := by
  rw [withReturns, List.flatMap_append, ← withReturns, withReturns_of_not_mem h]
  rfl

/-- A text without carriage returns has the same lines if each line feed gets one. -/
theorem lines_withReturns {s : Text} (h : '\r' ∉ s) :
  lines (withReturns s) = lines s
  := by
  induction s using induction_on_lines with
  | last l hl => rw [withReturns_of_not_mem hl]
  | line l s hl ih =>
    rw [List.mem_append, List.mem_cons, not_or, not_or] at h
    rw [withReturns_append_feed hl, lines_append_lineEnd hl h.1, ih h.2.2, lines_append_feed hl,
      withoutReturn_of_not_mem h.1]

/-- Two texts with a line end between them give the values of the first overridden by those of the
second, where a line feed alone is an end of its own only after a text that does not end in a
carriage return.  Hence every line is read as if it were alone, reading a text twice changes
nothing, and neither does putting carriage returns before all line feeds. -/
theorem parse_append_eq_overriddenBy :
  (∀ a b : String, parse (a ++ "\r\n" ++ b) = (parse a).overriddenBy (parse b)) ∧
  (∀ a b : String, a.toList.getLast? ≠ some '\r' →
    parse (a ++ "\n" ++ b) = (parse a).overriddenBy (parse b)) ∧
  (∀ text : String, parse text
    = ((cutLines text.toList).map fun l => parse (String.ofList l)).foldl Values.overriddenBy ∅) ∧
  (∀ text : String, parse (text ++ "\r\n" ++ text) = parse text) ∧
  ∀ text : String, '\r' ∉ text.toList →
    parse (String.ofList (withReturns text.toList)) = parse text
  := by
  have hreturn : ∀ a b : String, parse (a ++ "\r\n" ++ b) = (parse a).overriddenBy (parse b) :=
    fun a b => parse_append_lineEnd .returnFeed a b (by simp)
  refine ⟨hreturn, fun a b h => parse_append_lineEnd .feed a b fun _ => h, parse_eq_foldl_lines,
    ?_, ?_⟩
  · intro text
    rw [hreturn, Values.overriddenBy_self]
  · intro text h
    rw [parse, String.toList_ofList, lines_withReturns h, parse]

/-- A quote left open on one line leaves the next line alone. -/
theorem parse_append_open_quote :
  "K=\"a".toList.getLast? ≠ some '\r' ∧ '\r' ∉ "K=\"a\nL=b\"".toList ∧
    parse ("K=\"a" ++ "\n" ++ "L=b\"")
      = Values.overriddenBy ((∅ : Values).insert "K" "\"a") ((∅ : Values).insert "L" "b\"") ∧
    parse (String.ofList (withReturns "K=\"a\nL=b\"".toList)) = parse "K=\"a\nL=b\""
  := by
  have hlast : "K=\"a".toList.getLast? ≠ some '\r' := by decide
  have hreturn : '\r' ∉ "K=\"a\nL=b\"".toList := by decide
  have hopen : parse "K=\"a" = (∅ : Values).insert "K" "\"a" :=
    @parse_ofList_key_append "K".toList "\"a".toList "\"a".toList (by decide) (by decide)
      (by decide) (by decide)
  have hnext : parse "L=b\"" = (∅ : Values).insert "L" "b\"" :=
    @parse_ofList_key_append "L".toList "b\"".toList "b\"".toList (by decide) (by decide)
      (by decide) (by decide)
  use hlast, hreturn
  constructor
  · rw [parse_append_eq_overriddenBy.2.1 _ _ hlast, hopen, hnext]
  · apply parse_append_eq_overriddenBy.2.2.2.2 _ hreturn

end EnvFile

end Credentials
