import Credentials.Proofs.EnvFile.EmptyValue

/-!
# Unquoted values

A number sign that directly follows a blank begins a comment, and `beforeComment u` is what stands
before the first comment of the text `u`.  A text that begins with no quote gives its key what
stands before its first comment, trimmed, where the blanks at the start of the text are left out
before the comment is looked for (`valueOf_trim_of_unquoted`).  Hence these blanks begin no comment:
a text with nothing but a comment after them is read as it stands (`getElem?_parse_unquoted`).
-/

namespace Credentials.EnvFile

open Pattern Text

variable {c : Char} {s u lead trail : Text}

/-- The text up to the first number sign that directly follows a blank. -/
def beforeComment : Text → Text
  | [] => []
  | c :: s => if isBlank c = true ∧ s.head? = some '#' then [c] else c :: beforeComment s

/-- The text is a comment with blanks before it. -/
def IsComment (u : Text) : Prop :=
  ∃ gap comment, gap ≠ [] ∧ AllBlank gap ∧ u = gap ++ '#' :: comment

/-! ### What stands before a comment -/

/-- Blanks begin a comment only if a number sign follows them. -/
theorem beforeComment_append (hlead : AllBlank lead) (hne : lead ≠ []) (s : Text) :
  beforeComment (lead ++ s) = lead ++ if s.head? = some '#' then [] else beforeComment s
  := by
  induction lead with
  | nil => apply absurd rfl hne
  | cons x lead ih =>
    rw [allBlank_cons] at hlead
    rw [List.cons_append, beforeComment, hlead.1]
    cases lead with
    | nil => split <;> simp_all
    | cons y lead =>
      have hy : y ≠ '#' := by
        rintro rfl
        cases (allBlank_cons.mp hlead.2).1
      rw [ih hlead.2 (List.cons_ne_nil y lead), List.cons_append, if_neg (by simpa using hy)]
      rfl

theorem beforeComment_append_of_head_ne (hlead : AllBlank lead) (h : s.head? ≠ some '#') :
  beforeComment (lead ++ s) = lead ++ beforeComment s
  := by
  cases lead with
  | nil => rfl
  | cons x lead => rw [beforeComment_append hlead (List.cons_ne_nil x lead), if_neg h]

theorem mem_beforeComment_cons (c : Char) (s : Text) :
  c ∈ beforeComment (c :: s)
  := by
  rw [beforeComment]
  split <;> simp

/-- Only blanks stand before a comment if nothing else is in the text. -/
theorem allBlank_of_beforeComment (h : AllBlank (beforeComment s))
    (hsign : (trimStart s).head? ≠ some '#') :
  AllBlank s
  := by
  obtain ⟨lead, hlead, hs⟩ := exists_allBlank_append_trimStart s
  rw [hs, beforeComment_append_of_head_ne hlead hsign] at h
  cases ht : trimStart s with
  | nil => apply trimStart_eq_nil_iff.mp ht
  | cons x t =>
    have hx : isBlank x = true := by
      apply h x
      rw [ht]
      apply List.mem_append_right lead (mem_beforeComment_cons x t)
    rw [isBlank_head_trimStart ht] at hx
    cases hx

/-- Blanks at the end of a text do not matter to what stands before its comment. -/
theorem trimEnd_beforeComment_append (htrail : AllBlank trail) (s : Text) :
  trimEnd (beforeComment (s ++ trail)) = trimEnd (beforeComment s)
  := by
  induction s with
  | nil =>
    have htrailing := beforeComment_append_of_head_ne (s := []) htrail (by simp)
    rw [List.append_nil, beforeComment, List.append_nil] at htrailing
    rw [List.nil_append, htrailing, beforeComment]
    apply htrail.trimEnd_append []
  | cons c s ih =>
    have hhead : (s ++ trail).head? = some '#' ↔ s.head? = some '#' := by
      cases s with
      | nil =>
        have hsign : isBlank '#' = false := rfl
        have hne : trail.head? ≠ some '#' :=
          fun h => htrail.not_mem hsign (List.mem_of_mem_head? h)
        simpa using hne
      | cons x s => rfl
    simp only [List.cons_append, beforeComment, hhead]
    split
    · rfl
    · apply trimEnd_cons_congr ih

/-! ### Trimmed texts -/

/-- On a line, a comment goes from a number sign to the end of the text. -/
theorem run_comment_endOfText {β : Type} {k : Unit → Text → Option β} (hs : AllInline s) :
  (do comment; endOfText).run k s = if s.head? = some '#' then k () [] else none
  := by
  cases s with
  | nil => rfl
  | cons x t =>
    rw [allInline_cons] at hs
    by_cases hx : x = '#'
    · subst hx
      have hdrop : t.dropWhile isInline = [] := by
        rw [List.dropWhile_eq_nil_iff]
        intro c hc
        simp [isInline, hs.2 c hc]
      rw [run_bind, comment, run_bind, run_char_cons, if_pos (beq_self_eq_true _),
        run_many_eq (fun _ _ _ _ => rfl), hdrop]
      rfl
    · rw [run_bind, comment, run_char_bind_of_ne hx, if_neg (by simpa using hx)]

/-- A comment begins at a blank if nothing but blanks separates it from a number sign. -/
theorem isSome_first_trailingComment_iff (hs : AllInline s) :
  (trailingComment.first (c :: s)).isSome = true ↔
    isBlank c = true ∧ (trimStart s).head? = some '#'
  := by
  by_cases hc : isBlank c = true
  · have hinline : AllInline (trimStart s) := hs.of_subset (List.dropWhile_suffix _).subset
    have hblank : ∀ x t, x :: t <:+ s → isBlank x = true →
        (do comment; endOfText).run (fun a _ => some a) (x :: t) = none := by
      rintro x t - hx
      apply run_char_bind_of_ne
      rintro rfl
      cases hx
    rw [first, trailingComment, blanks1, run_bind, run_many1_eq hblank hc,
      List.dropWhile_cons_of_pos hc, ← trimStart, run_comment_endOfText hinline]
    split
    case isTrue hsign => simp [hc, hsign]
    case isFalse hsign => simp [hsign]
  · have hfirst : trailingComment.first (c :: s) = none := if_neg hc
    simp [hfirst, hc]

theorem withoutComment_cons (hs : AllInline s) :
  withoutComment (c :: s) = if isBlank c = true ∧ (trimStart s).head? = some '#' then []
    else c :: withoutComment s
  := by
  rw [withoutComment]
  simp only [isSome_first_trailingComment_iff hs]

/-- A text is what is left without its comment, followed by the comment if there is one. -/
theorem exists_withoutComment_append (hs : AllInline s) :
  ∃ rest, s = withoutComment s ++ rest ∧ (rest = [] ∨ IsComment rest)
  := by
  induction s with
  | nil => use [], rfl, Or.inl rfl
  | cons c s ih =>
    rw [allInline_cons] at hs
    rw [withoutComment_cons hs.2]
    split
    case isTrue h =>
      obtain ⟨lead, hlead, hlead'⟩ := exists_allBlank_append_trimStart s
      obtain ⟨comment, hcomment⟩ := List.head?_eq_some_iff.mp h.2
      rw [hcomment] at hlead'
      use c :: s, rfl
      right
      use c :: lead, comment, List.cons_ne_nil c lead, allBlank_cons.mpr ⟨h.1, hlead⟩
      rw [List.cons_append, ← hlead']
    case isFalse =>
      obtain ⟨rest, hrest, hcomment⟩ := ih hs.2
      use rest
      rw [List.cons_append, ← hrest]
      exact ⟨rfl, hcomment⟩

theorem withoutComment_isPrefix (hs : AllInline s) :
  withoutComment s <+: s
  := by
  obtain ⟨rest, hrest, -⟩ := exists_withoutComment_append hs
  use rest, hrest.symm

/-- A text that does not end in a blank loses its comment and the blanks before it. -/
theorem withoutComment_eq_trimEnd (hs : AllInline s) (hlast : ∀ c ∈ s.getLast?, isBlank c = false) :
  withoutComment s = trimEnd (beforeComment s)
  := by
  induction s with
  | nil => rfl
  | cons c s ih =>
    rw [allInline_cons] at hs
    rw [withoutComment_cons hs.2]
    split
    case isTrue h =>
      -- all that stands before the number sign is blank
      obtain ⟨lead, hlead, hlead'⟩ := exists_allBlank_append_trimStart s
      have hblank : AllBlank (c :: lead) := allBlank_cons.mpr ⟨h.1, hlead⟩
      rw [hlead', ← List.cons_append, beforeComment_append hblank (List.cons_ne_nil c lead),
        if_pos h.2, List.append_nil, trimEnd_eq_nil_iff.mpr hblank]
    case isFalse h =>
      have hbefore : beforeComment (c :: s) = c :: beforeComment s := by
        apply if_neg
        rintro ⟨hc, hsign⟩
        obtain ⟨t, rfl⟩ := List.head?_eq_some_iff.mp hsign
        apply h ⟨hc, rfl⟩
      have hlast' : ∀ x ∈ s.getLast?, isBlank x = false := by
        cases s with
        | nil => simp
        | cons y s =>
          rw [List.getLast?_cons_cons] at hlast
          apply hlast
      rw [hbefore, ih hs.2 hlast']
      by_cases hc : isBlank c = true
      · -- the text goes on with something else than blanks and a comment
        have hrest : ¬ AllBlank (beforeComment s) := by
          intro hblank
          have hall := allBlank_of_beforeComment hblank fun hsign => h ⟨hc, hsign⟩
          have hend := hlast _ (List.getLast?_eq_some_getLast (List.cons_ne_nil c s))
          rw [allBlank_cons.mpr ⟨hc, hall⟩ _ (List.getLast_mem _)] at hend
          cases hend
        rw [trimEnd_cons_of_not_allBlank hrest]
      · rw [trimEnd_cons_of_not_blank (by simpa using hc)]

/-! ### Values -/

theorem trim_beforeComment_trimStart (u : Text) :
  trim (beforeComment (trimStart u)) = trimEnd (beforeComment (trimStart u))
  := by
  cases ht : trimStart u with
  | nil => rfl
  | cons c t =>
    have hc := isBlank_head_trimStart ht
    rw [beforeComment, if_neg (by simp [hc]), trim, trimStart_cons_of_not_blank hc]

/-- A text that begins with no quote is read up to its comment, but for the blanks at its start. -/
theorem valueOf_trim_of_unquoted {key : Text} (hu : AllInline u)
    (hquote : ∀ c ∈ (trimStart u).head?, isQuote c = false) :
  valueOf key (trim u) = trim (beforeComment (trimStart u))
  := by
  obtain ⟨trail, htrail, hstart⟩ := exists_trimEnd_append_allBlank (trimStart u)
  have hstarts : startsQuoted (trim u) = false := by
    rw [startsQuoted, head?_trim, Option.any_eq_false]
    intro c hc
    simp [hquote c hc]
  have hlast : ∀ c ∈ (trim u).getLast?, isBlank c = false := by
    intro c hc
    obtain ⟨t, ht⟩ := List.getLast?_eq_some_iff.mp hc
    apply isBlank_getLast_trim ht
  rw [valueOf_of_not_startsQuoted hstarts,
    withoutComment_eq_trimEnd (hu.of_subset (trim_subset u)) hlast, trim_beforeComment_trimStart,
    hstart, trimEnd_beforeComment_append htrail, trim]

/-- The blanks at the start of a text matter to its value only if a comment follows them. -/
theorem trim_beforeComment_of_not_isComment (h : ¬ IsComment u) :
  trim (beforeComment u) = trim (beforeComment (trimStart u))
  := by
  obtain ⟨lead, hlead, hu⟩ := exists_allBlank_append_trimStart u
  by_cases hsign : (trimStart u).head? = some '#'
  · obtain ⟨comment, hcomment⟩ := List.head?_eq_some_iff.mp hsign
    have hnil : lead = [] := by
      by_contra hne
      rw [hcomment] at hu
      apply h ⟨lead, comment, hne, hlead, hu⟩
    rw [hnil, List.nil_append] at hu
    rw [← hu]
  · rw [hu, beforeComment_append_of_head_ne hlead hsign, trim, hlead.trimStart_append, ← trim, ← hu]

/-- Nothing stands before a comment after blanks, and without the blanks it is no comment. -/
theorem IsComment.trim_beforeComment (h : IsComment u) :
  trim (beforeComment u) = [] ∧ ∃ v, trim (beforeComment (trimStart u)) = '#' :: v
  := by
  obtain ⟨gap, comment, hne, hgap, rfl⟩ := h
  have hsign : isBlank '#' = false := rfl
  constructor
  · rw [beforeComment_append hgap hne, List.head?_cons, if_pos rfl, List.append_nil]
    apply trim_eq_nil_iff.mpr hgap
  · use trimEnd (beforeComment comment)
    rw [hgap.trimStart_append, trimStart_cons_of_not_blank hsign, beforeComment,
      if_neg (by simp [hsign]), trim_cons_of_not_blank hsign]

/-- The last text that a file assigns to a key, if it begins with no quote, gives the key what
stands before its comment, where the blanks at the start of the text do not count.  This is what
stands before the comment of the whole text, trimmed, unless the text is a comment with blanks
before it; such a text is read as it stands, from its number sign on.  Hence a required key is
missing only if the text is blank. -/
theorem getElem?_parse_unquoted {raw key : String} (hkey : key ≠ Member.parentName)
    (hlast : IsLastText (cutLines raw.toList) key.toList u)
    (hquote : ∀ c ∈ (trimStart u).head?, isQuote c = false) :
  (parse raw)[key]? = some (String.ofList (trim (beforeComment (trimStart u)))) ∧
  ((parse raw)[key]? = some (String.ofList (trim (beforeComment u))) ↔ ¬ IsComment u) ∧
  (IsComment u → trim (beforeComment u) = [] ∧
    ∃ v, (parse raw)[key]? = some (String.ofList ('#' :: v))) ∧
  ∀ (path : String) (service : Service), key ∈ service.required →
    (key ∈ (Settings.ofText path raw).missing service ↔ AllBlank u)
  := by
  rw [← lines_eq_cutLines] at hlast
  have hvalue : (parse raw)[key]? = some (String.ofList (trim (beforeComment (trimStart u)))) := by
    rw [getElem?_parse_of_isLastText hkey hlast, valueOf_trim_of_unquoted hlast.allInline hquote]
  refine ⟨hvalue, ⟨?_, ?_⟩, ?_, ?_⟩
  · intro heq hcomment
    obtain ⟨hnil, v, hv⟩ := hcomment.trim_beforeComment
    rw [hvalue, hnil, hv] at heq
    simp at heq
  · intro hcomment
    rw [hvalue, trim_beforeComment_of_not_isComment hcomment]
  · intro hcomment
    obtain ⟨hnil, v, hv⟩ := hcomment.trim_beforeComment
    use hnil, v
    rw [hvalue, hv]
  · intro path service hmem
    have hpair : ¬ IsEmptyPair (trim u) := by
      rintro ⟨q, rest, hq, heq, -⟩
      have hhead : q ∈ (trimStart u).head? := by
        rw [← head?_trim, heq]
        rfl
      rw [hquote q hhead] at hq
      cases hq
    rw [Settings.mem_missing_iff, Settings.not_has_iff, Settings.ofText,
      getElem?_parse_eq_some_empty_iff hkey hlast, hvalue]
    simp [hmem, hpair]

/-- A number sign inside a word stays, and one after a blank begins a comment. -/
theorem getElem?_parse_unquoted_password :
  "PASSWORD" ≠ Member.parentName ∧
    IsLastText (cutLines "PASSWORD=p#ss # note".toList) "PASSWORD".toList "p#ss # note".toList ∧
    (parse "PASSWORD=p#ss # note")["PASSWORD"]? = some "p#ss"
  := by
  have hname : "PASSWORD" ≠ Member.parentName := by decide
  have hassigns := @assigns_of_key [] [] "PASSWORD".toList "p#ss # note".toList allBlank_nil
    (by decide) allBlank_nil (by decide)
  have hlast : IsLastText (cutLines "PASSWORD=p#ss # note".toList) "PASSWORD".toList
      "p#ss # note".toList := by
    rw [← lines_eq_cutLines]
    exact ⟨[], _, [], by decide, hassigns, by simp⟩
  have hunquoted : ∀ c ∈ (trimStart "p#ss # note".toList).head?, isQuote c = false := by
    intro c hc
    obtain rfl : 'p' = c := Option.some.inj hc
    rfl
  have hvalue : trim (beforeComment (trimStart "p#ss # note".toList)) = "p#ss".toList := by decide
  have h := (getElem?_parse_unquoted hname hlast hunquoted).1
  rw [hvalue] at h
  use hname, hlast
  apply h

/-- A comment with a blank before it, and nothing else, is read as the value of its key, so that the
key is not missing. -/
theorem getElem?_parse_comment_alone :
  IsLastText (cutLines "PINECONE_API_KEY= # todo".toList) "PINECONE_API_KEY".toList
      " # todo".toList ∧
    trim (beforeComment " # todo".toList) = [] ∧
    (parse "PINECONE_API_KEY= # todo")["PINECONE_API_KEY"]? = some "# todo" ∧
    "PINECONE_API_KEY" ∈ Service.pinecone.required ∧
    "PINECONE_API_KEY" ∉ (Settings.ofText ".env" "PINECONE_API_KEY= # todo").missing .pinecone
  := by
  have hassigns := @assigns_of_key [] [] "PINECONE_API_KEY".toList " # todo".toList allBlank_nil
    (by decide) allBlank_nil (by decide)
  have hparse : parse "PINECONE_API_KEY= # todo"
      = (∅ : Values).insert "PINECONE_API_KEY" "# todo" :=
    @parse_ofList_key_append "PINECONE_API_KEY".toList " # todo".toList "# todo".toList (by decide)
      (by decide) (by decide) (by decide)
  refine ⟨?_, by decide, ?_, by decide, ?_⟩
  · rw [← lines_eq_cutLines]
    exact ⟨[], _, [], by decide, hassigns, by simp⟩
  · rw [hparse, Std.ExtTreeMap.getElem?_insert_self]
  · rw [Settings.mem_missing_iff, Settings.ofText, hparse, Settings.has_singleton_iff (by decide)]
    simp

end Credentials.EnvFile
