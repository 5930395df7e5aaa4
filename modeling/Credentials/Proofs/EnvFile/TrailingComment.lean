import Credentials.Proofs.EnvFile.EmptyValue
import Credentials.Proofs.EnvFile.RoundTrip

/-!
# Comments after quoted values

A content without quotes `q`, written between two of them, is closed by the second one.  A comment
after it can only be taken for a part of the value if the content ends in a backslash, so that the
second quote may stand inside the value, and if a quote of the comment may close it instead
(`closesAt_enclose_append_comment_iff`).  Hence a comment changes the value in this case alone, and
then the value goes on up to the last quote of the comment that may close it
(`getElem?_parse_append_comment`).
-/

namespace Credentials.EnvFile

open Text

variable {q : Char} {s r v trail gap comment : Text} {p : Nat}

/-- At the index `i` of a comment stands a quote that may close a value which was begun before it:
every quote before it in the comment has a backslash in front of it, and only blanks, or blanks and
a further comment, are left. -/
def ClosesComment (q : Char) (comment : Text) (i : Nat) : Prop :=
  IsCandidateAfter q '#' comment i ∧ EndsEntry (comment.drop (i + 1))

/-- The content ends in a backslash, and a quote of the comment after it may close the value. -/
def IsClosedByComment (q : Char) (s comment : Text) : Prop :=
  s.getLast? = some '\\' ∧ ∃ i, ClosesComment q comment i

theorem ClosesComment.lt_length {i : Nat} (h : ClosesComment q comment i) :
  i < comment.length
  := (List.getElem?_eq_some_iff.mp h.1.1).1

instance (prev : Char) (i : Nat) : Decidable (IsCandidateAfter q prev v i) :=
  inferInstanceAs (Decidable (_ ∧ _))

instance (i : Nat) : Decidable (ClosesComment q comment i) :=
  inferInstanceAs (Decidable (_ ∧ _))

instance : Decidable (IsClosedByComment q s comment) :=
  decidable_of_iff (s.getLast? = some '\\' ∧ ∃ i < comment.length, ClosesComment q comment i)
    ⟨fun ⟨hback, i, _, hi⟩ => ⟨hback, i, hi⟩, fun ⟨hback, i, hi⟩ => ⟨hback, i, hi.lt_length, hi⟩⟩

/-! ### Closing quotes -/

/-- A text without quotes is passed over, and its last character stands before the rest. -/
theorem isCandidateAfter_append_iff (hs : q ∉ s) {prev : Char} {i : Nat} :
  IsCandidateAfter q prev (s ++ r) i ↔
    ∃ j, i = s.length + j ∧ IsCandidateAfter q (s.getLastD prev) r j
  := by
  induction s generalizing prev i with
  | nil => simp
  | cons x s ih =>
    rw [List.mem_cons, not_or] at hs
    have hx : x ≠ q := Ne.symm hs.1
    rw [List.cons_append, List.getLastD_cons, List.length_cons]
    cases i with
    | zero =>
      rw [isCandidateAfter_zero]
      constructor
      · intro h
        apply absurd h hx
      · rintro ⟨j, hj, -⟩
        omega
    | succ i =>
      rw [isCandidateAfter_succ, ih hs.2]
      constructor
      · rintro ⟨-, j, rfl, hj⟩
        use j, by omega
      · rintro ⟨j, hi, hj⟩
        use fun h => absurd h hx, j, by omega

/-- A content without quotes may be closed by the quote after it, and by a later one only if it ends
in a backslash. -/
theorem isCandidate_enclose_append_iff (hq : q ≠ '\\') (hs : q ∉ s) :
  IsCandidate q (enclose q s ++ r) p ↔ p = s.length + 1 ∨
    s.getLast? = some '\\' ∧ ∃ j, p = s.length + 2 + j ∧ IsCandidateAfter q q r j
  := by
  have hlast : s.getLastD q = '\\' ↔ s.getLast? = some '\\' := by
    rw [List.getLastD_eq_getLast?]
    cases s.getLast? <;> simp [hq]
  have henclose : enclose q s ++ r = q :: (s ++ q :: r) := by simp [enclose]
  simp only [henclose, isCandidate_cons_iff, isCandidateAfter_append_iff hs]
  constructor
  · rintro ⟨i, rfl, j, rfl, hj⟩
    cases j with
    | zero =>
      left
      rfl
    | succ j =>
      obtain ⟨hback, hj⟩ := isCandidateAfter_succ.mp hj
      right
      exact ⟨hlast.mp (hback rfl), j, by omega, hj⟩
  · rintro (rfl | ⟨hback, j, rfl, hj⟩)
    · exact ⟨s.length, rfl, 0, rfl, isCandidateAfter_zero.mpr rfl⟩
    · have hsucc := isCandidateAfter_succ.mpr ⟨fun _ => hlast.mpr hback, hj⟩
      exact ⟨s.length + (j + 1), by omega, j + 1, rfl, hsucc⟩

/-- Blanks and a number sign are passed over as well. -/
theorem isCandidateAfter_comment_iff (hq : isQuote q = true) (hgap : AllBlank gap) {i : Nat} :
  IsCandidateAfter q q (gap ++ '#' :: comment) i ↔
    ∃ j, i = gap.length + 1 + j ∧ IsCandidateAfter q '#' comment j
  := by
  have hsign : q ∉ gap ++ ['#'] := by
    simp [hgap.not_mem (not_isBlank_of_isQuote hq), ne_hash_of_isQuote hq]
  have h := @isCandidateAfter_append_iff q (gap ++ ['#']) comment hsign q i
  rw [List.append_assoc, List.getLastD_concat, List.length_append] at h
  apply h

/-- A quoted content with a comment after it, cut at an index of the comment. -/
theorem take_and_drop_enclose_append_comment (i : Nat) :
  (enclose q s ++ (gap ++ '#' :: comment)).take (s.length + gap.length + 3 + i)
      = enclose q s ++ (gap ++ '#' :: comment.take i) ∧
    (enclose q s ++ (gap ++ '#' :: comment)).drop (s.length + gap.length + 3 + i) = comment.drop i
  := by
  have hindex : s.length + gap.length + 3 + i = (enclose q s ++ (gap ++ ['#'])).length + i := by
    simp [enclose]
    omega
  have hsplit : enclose q s ++ (gap ++ '#' :: comment)
      = (enclose q s ++ (gap ++ ['#'])) ++ comment := by
    simp
  rw [hindex, hsplit, List.take_length_add_append, List.drop_length_add_append]
  simp

/-- A quoted content with a comment after it is closed by the quote after the content or, if the
content ends in a backslash, by a quote of the comment. -/
theorem closesAt_enclose_append_comment_iff (hq : isQuote q = true) (hs : q ∉ s)
    (hgap : AllBlank gap) :
  ClosesAt q (enclose q s ++ (gap ++ '#' :: comment)) p ↔ p = s.length + 1 ∨
    s.getLast? = some '\\' ∧ ∃ i, p = s.length + gap.length + 3 + i ∧ ClosesComment q comment i
  := by
  have hdrop := fun i => (@take_and_drop_enclose_append_comment q s gap comment (i + 1)).2
  rw [ClosesAt, isCandidate_enclose_append_iff (ne_backslash_of_isQuote hq) hs]
  constructor
  · rintro ⟨rfl | ⟨hback, j, rfl, hj⟩, hend⟩
    · left
      rfl
    · obtain ⟨i, rfl, hi⟩ := (isCandidateAfter_comment_iff hq hgap).mp hj
      have hindex : s.length + 2 + (gap.length + 1 + i) = s.length + gap.length + 3 + i := by omega
      rw [hindex, Nat.add_assoc _ i, hdrop] at hend
      right
      exact ⟨hback, i, hindex, hi, hend⟩
  · rintro (rfl | ⟨hback, i, rfl, hi, hend⟩)
    · have hlength : s.length + 1 + 1 = (enclose q s).length := by simp [enclose]
      use Or.inl rfl
      rw [hlength, List.drop_left]
      apply endsEntry_iff.mpr (Or.inr ⟨gap, comment, hgap, rfl⟩)
    · have hj := (isCandidateAfter_comment_iff hq hgap).mpr ⟨i, rfl, hi⟩
      rw [Nat.add_assoc _ i, hdrop]
      exact ⟨Or.inr ⟨hback, _, by omega, hj⟩, hend⟩

/-! ### Blanks at the end -/

theorem endsEntry_append_allBlank_iff (htrail : AllBlank trail) :
  EndsEntry (s ++ trail) ↔ EndsEntry s
  := by
  obtain ⟨lead, hlead, hs⟩ := exists_allBlank_append_trimStart s
  have happend : trimStart (s ++ trail) = trimStart (trimStart s ++ trail) := by
    rw [hs, List.append_assoc, hlead.trimStart_append, ← hs]
  rw [EndsEntry, EndsEntry, happend]
  cases ht : trimStart s with
  | nil => simp [trimStart_eq_nil_iff.mpr htrail]
  | cons c t => simp [trimStart_cons_of_not_blank (isBlank_head_trimStart ht)]

/-- Blanks at the end of a text do not matter to its closing quotes. -/
theorem closesAt_append_allBlank_iff (hq : isQuote q = true) (htrail : AllBlank trail) :
  ClosesAt q (v ++ trail) p ↔ ClosesAt q v p
  := by
  by_cases hp : p < v.length
  · have hsame : ∀ i ≤ p, (v ++ trail)[i]? = v[i]? := by
      intro i hi
      apply List.getElem?_append_left (by omega)
    have hcandidate : IsCandidate q (v ++ trail) p ↔ IsCandidate q v p := by
      rw [IsCandidate, IsCandidate, hsame p (Nat.le_refl p)]
      apply and_congr_right'
      apply and_congr_right'
      apply forall₂_congr
      intro i hi
      rw [hsame i (by omega), hsame (i - 1) (by omega)]
    rw [ClosesAt, ClosesAt, hcandidate, List.drop_append_of_le_length (by omega),
      endsEntry_append_allBlank_iff htrail]
  · constructor
    · intro h
      have hquote : (v ++ trail)[p]? = some q := h.1.2.1
      rw [List.getElem?_append_right (by omega)] at hquote
      apply absurd (List.mem_of_getElem? hquote) (htrail.not_mem (not_isBlank_of_isQuote hq))
    · intro h
      apply absurd h.lt_length hp

/-- The last quote that may close a text is found in the trimmed text as well. -/
theorem contentOf_trim_of_closing? (hq : isQuote q = true) {w : Text}
    (h : closing? q (q :: w) = some p) :
  contentOf q (trim (q :: w)) = ((q :: w).take p).drop 1
  := by
  obtain ⟨trail, htrail, hw⟩ := exists_trimEnd_append_allBlank (q :: w)
  rw [trim, trimStart_cons_of_not_blank (not_isBlank_of_isQuote hq)]
  set v := trimEnd (q :: w) with hv
  rw [hw] at h ⊢
  rw [closing?_eq_some_iff] at h
  simp only [closesAt_append_allBlank_iff hq htrail] at h
  rw [contentOf, closing?_eq_some_iff.mpr h,
    List.take_append_of_le_length (Nat.le_of_lt h.1.lt_length)]

/-! ### Quoted contents with comments -/

section Comment

variable (hq : isQuote q = true) (hs : q ∉ s) (hgap : AllBlank gap)

include hq hs hgap

/-- The content is that of the quotes around it, if the comment does not close the value. -/
theorem contentOf_trim_append_comment (h : ¬ IsClosedByComment q s comment) :
  contentOf q (trim (enclose q s ++ (gap ++ '#' :: comment))) = s
  := by
  have hiff := fun p => @closesAt_enclose_append_comment_iff q s gap comment p hq hs hgap
  have hclosing : closing? q (enclose q s ++ (gap ++ '#' :: comment)) = some (s.length + 1) := by
    rw [closing?_eq_some_iff]
    use (hiff _).mpr (Or.inl rfl)
    intro p hp
    rcases (hiff p).mp hp with rfl | ⟨hback, i, -, hi⟩
    · apply Nat.le_refl
    · apply absurd ⟨hback, i, hi⟩ h
  rw [enclose, List.cons_append] at hclosing ⊢
  rw [contentOf_trim_of_closing? hq hclosing]
  simp

/-- The content goes on up to the last quote of the comment that may close the value, if there is
one and the value is not closed before. -/
theorem exists_contentOf_trim_append_comment (h : IsClosedByComment q s comment) :
  ∃ i, ClosesComment q comment i ∧ (∀ j, ClosesComment q comment j → j ≤ i) ∧
    contentOf q (trim (enclose q s ++ (gap ++ '#' :: comment)))
      = s ++ q :: (gap ++ '#' :: comment.take i)
  := by
  have hiff := fun p => @closesAt_enclose_append_comment_iff q s gap comment p hq hs hgap
  obtain ⟨hback, j, hj⟩ := h
  have hcloses := (hiff _).mpr (Or.inr ⟨hback, j, rfl, hj⟩)
  cases hclosing : closing? q (enclose q s ++ (gap ++ '#' :: comment)) with
  | none => apply absurd hcloses (closing?_eq_none_iff.mp hclosing _)
  | some p =>
    obtain ⟨hp, hlast⟩ := closing?_eq_some_iff.mp hclosing
    rcases (hiff p).mp hp with rfl | ⟨-, i, rfl, hi⟩
    · have := hlast _ hcloses
      omega
    · use i, hi
      constructor
      · intro k hk
        have := hlast _ ((hiff _).mpr (Or.inr ⟨hback, k, rfl, hk⟩))
        omega
      · have htake := (@take_and_drop_enclose_append_comment q s gap comment i).1
        rw [enclose, List.cons_append] at hclosing htake ⊢
        rw [contentOf_trim_of_closing? hq hclosing, htake]
        simp

end Comment

/-- What is read up to a later quote has what is read up to an earlier one as a proper start. -/
theorem decoded_append_quote (hq : isQuote q = true) :
  decoded q (s ++ q :: r) = decoded q s ++ q :: decoded q r
  := by
  simp only [decoded]
  split
  case isTrue h =>
    have hletter : (q :: r).head? ≠ some 'n' ∧ (q :: r).head? ≠ some 'r' := by
      simp [h, doubleQuote]
    rw [unescaped_append hletter, unescaped_cons]
    intro hback
    apply absurd hback (ne_backslash_of_isQuote hq)
  case isFalse => rfl

/-- A line with a value that begins with a quote gives its key the content of the trimmed text. -/
theorem getElem?_parse_key_append_quoted {key w : Text} (hkey : IsKey key)
    (hname : String.ofList key ≠ Member.parentName) (hq : isQuote q = true) (hw : AllInline w) :
  (parse (String.ofList (key ++ '=' :: q :: w)))[String.ofList key]?
    = some (String.ofList (decoded q (contentOf q (trim (q :: w)))))
  := by
  have hinline : AllInline (q :: w) := allInline_cons.mpr ⟨not_isLineEnd_of_isQuote hq, hw⟩
  have htrim : trim (q :: w) = q :: trimEnd w :=
    trim_cons_of_not_blank (not_isBlank_of_isQuote hq) w
  rw [getElem?_parse_key_append hkey hname hinline, htrim,
    valueOf_quoted hkey hq (hw.of_subset (trimEnd_subset w))]

/-- A comment after a quoted value changes the value in one case only: the content between the
quotes ends in a backslash, and the comment has a quote of the same kind that may close the value.
Without a comment, and with one that does not close it, the value is the content.  A value that a
comment closes goes on up to the last quote of the comment that may close it. -/
theorem getElem?_parse_append_comment {key : Text} (hkey : IsKey key)
    (hname : String.ofList key ≠ Member.parentName) (hq : isQuote q = true) (hs : AllInline s)
    (hquote : q ∉ s) (hgap : AllBlank gap) (hinline : AllInline gap)
    (hcomment : AllInline comment) :
  (parse (String.ofList (key ++ '=' :: enclose q s)))[String.ofList key]?
    = some (String.ofList (decoded q s)) ∧
  ((parse (String.ofList (key ++ '=' :: (enclose q s ++ (gap ++ '#' :: comment)))))[
      String.ofList key]?
    = (parse (String.ofList (key ++ '=' :: enclose q s)))[String.ofList key]? ↔
      ¬ IsClosedByComment q s comment) ∧
  (IsClosedByComment q s comment →
    ∃ i, ClosesComment q comment i ∧ (∀ j, ClosesComment q comment j → j ≤ i) ∧
      (parse (String.ofList (key ++ '=' :: (enclose q s ++ (gap ++ '#' :: comment)))))[
        String.ofList key]?
        = some (String.ofList (decoded q (s ++ q :: (gap ++ '#' :: comment.take i)))))
  := by
  have hplain : (parse (String.ofList (key ++ '=' :: enclose q s)))[String.ofList key]?
      = some (String.ofList (decoded q s)) := by
    have henclosable : IsEnclosable q s := by
      refine ⟨hq, hs, Or.inr ?_⟩
      intro i hi
      apply absurd (List.mem_of_getElem? hi) hquote
    have h := getElem?_parse_key_append_quoted hkey hname hq
      (allInline_cons.mp (allInline_enclose hq hs)).2
    rw [← enclose, trim_enclose hq, contentOf_enclose henclosable] at h
    apply h
  have hcommented :
      (parse (String.ofList (key ++ '=' :: (enclose q s ++ (gap ++ '#' :: comment)))))[
        String.ofList key]?
      = some (String.ofList (decoded q
        (contentOf q (trim (enclose q s ++ (gap ++ '#' :: comment)))))) := by
    apply getElem?_parse_key_append_quoted hkey hname hq
    have hsign : isLineEnd '#' = false := rfl
    simp [not_isLineEnd_of_isQuote hq, hs, hinline, hsign, hcomment]
  use hplain
  constructor
  · constructor
    · intro heq hclosed
      obtain ⟨i, -, -, hcontent⟩ := exists_contentOf_trim_append_comment hq hquote hgap hclosed
      rw [hcommented, hplain, hcontent, decoded_append_quote hq] at heq
      simp at heq
    · intro h
      rw [hcommented, hplain, contentOf_trim_append_comment hq hquote hgap h]
  · intro hclosed
    obtain ⟨i, hi, hlast, hcontent⟩ := exists_contentOf_trim_append_comment hq hquote hgap hclosed
    use i, hi, hlast
    rw [hcommented, hcontent]

/-- A directory that ends in a backslash is read as it stands, for no quote of the comment may close
the value. -/
theorem getElem?_parse_append_comment_directory :
  singleQuote ∉ "C:\\data\\".toList ∧
    ¬ IsClosedByComment singleQuote "C:\\data\\".toList " the user's files".toList ∧
    (parse "DIR='C:\\data\\' # the user's files")["DIR"]? = (parse "DIR='C:\\data\\'")["DIR"]?
  := by
  have hquote : singleQuote ∉ "C:\\data\\".toList := by decide
  have hopen : ¬ IsClosedByComment singleQuote "C:\\data\\".toList " the user's files".toList := by
    decide
  have hkey : IsKey "DIR".toList := by decide
  have hgap : AllBlank [' '] := by decide
  use hquote, hopen
  apply (getElem?_parse_append_comment hkey (by decide) rfl (by decide) hquote hgap (by decide)
    (by decide)).2.1.mpr hopen

/-- After a backslash, a comment that ends in a quote is taken for a part of the value. -/
theorem getElem?_parse_closed_by_comment :
  doubleQuote ∉ "\\".toList ∧ AllInline "\\".toList ∧ AllInline "\"".toList ∧
    (parse "K=\"\\\"")["K"]? = some "\\" ∧
    (parse "K=\"\\\" #\"")["K"]? = some "\\\" #" ∧
    (parse "K=\"\\\" #\"")["K"]? ≠ (parse "K=\"\\\"")["K"]?
  := by
  have hkey : IsKey "K".toList := by decide
  have hplain : (parse "K=\"\\\"")["K"]? = some "\\" := by
    have hvalue : decoded doubleQuote (contentOf doubleQuote (trim (doubleQuote :: "\\\"".toList)))
        = "\\".toList := by
      decide
    have h := @getElem?_parse_key_append_quoted doubleQuote _ "\\\"".toList hkey (by decide) rfl
      (by decide)
    rw [hvalue] at h
    apply h
  have hcommented : (parse "K=\"\\\" #\"")["K"]? = some "\\\" #" := by
    have hvalue :
        decoded doubleQuote (contentOf doubleQuote (trim (doubleQuote :: "\\\" #\"".toList)))
        = "\\\" #".toList := by
      decide
    have h := @getElem?_parse_key_append_quoted doubleQuote _ "\\\" #\"".toList hkey (by decide) rfl
      (by decide)
    rw [hvalue] at h
    apply h
  refine ⟨by decide, by decide, by decide, hplain, hcommented, ?_⟩
  rw [hplain, hcommented]
  decide

end Credentials.EnvFile
