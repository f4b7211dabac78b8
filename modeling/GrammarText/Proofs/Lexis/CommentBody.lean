import GrammarText.Proofs.Lexis.Written

/-!
# Bodies of comments

The blanks at the two ends of a comment do not matter: without them its body is read again, if only
a blank stands between the body and the marks.
-/

namespace GrammarText

/-! ## Passages -/

theorem passage_of_quotedText {text source rest : List Char} {value : String}
    (h : quotedText text = .found value source rest) : passage text = .found value source rest := by
  rw [passage, h]
  rfl

theorem passage_of_specialSequence {text source rest : List Char} {value : String}
    (h : specialSequence text = .found value source rest) :
    passage text = .found value source rest := by
  obtain ⟨blanks, body, -, -, -, -, rfl, rfl⟩ := specialSequence_eq_found h
  have hq : quotedText ('?' :: blanks ++ body ++ ['?'] ++ rest) = .absent := by
    simp only [List.cons_append, quotedText_cons_eq_absent_iff]
    rfl
  rw [passage, hq]
  exact h

theorem passage_again {text source rest : List Char} {value : String}
    (h : passage text = .found value source rest) (next : List Char) :
    passage (source ++ next) = .found value source next := by
  rcases Recognition.orElse_eq_found h with hq | ⟨-, hs⟩
  · exact passage_of_quotedText (quotedText_again hq next)
  · exact passage_of_specialSequence (specialSequence_again hs next)

/-- A passage ends with a mark. -/
theorem passage_eq_found {text source rest : List Char} {value : String}
    (h : passage text = .found value source rest) : ∃ init last, source = init ++ [last] ∧
      isBlank last = false := by
  rcases Recognition.orElse_eq_found h with hq | ⟨-, hs⟩
  · obtain ⟨quote, hquote, -, rfl, -⟩ := quotedText_eq_found_iff.1 hq
    refine ⟨quote :: value.toList, quote, rfl, ?_⟩
    simp only [isQuote, Bool.or_eq_true, beq_iff_eq] at hquote
    rcases hquote with rfl | rfl <;> rfl
  · obtain ⟨blanks, body, -, -, -, -, rfl, -⟩ := specialSequence_eq_found hs
    exact ⟨'?' :: blanks ++ body, '?', rfl, rfl⟩

/-! ## Comments before other text -/

/-- A comment ends where it ends, whatever comes after it. -/
theorem commentEnd_again {depth : Nat} {text body rest : List Char}
    (h : commentEnd depth text = .closed body rest) (next : List Char) :
    commentEnd depth (body ++ '*' :: ')' :: next) = .closed body next := by
  fun_induction commentEnd depth text generalizing body with
  | case1 => cases h
  | case2 text => cases h; simp [commentEnd]
  | case3 text depth ih =>
    obtain ⟨inner, hi, rfl⟩ := CommentEnd.after_eq_closed h
    simp [commentEnd, ih hi, CommentEnd.after]
  | case4 depth text ih =>
    obtain ⟨inner, hi, rfl⟩ := CommentEnd.after_eq_closed h
    simp [commentEnd, ih hi, CommentEnd.after]
  | case5 depth c text _ _ value source left hp ih =>
    obtain ⟨inner, hi, rfl⟩ := CommentEnd.after_eq_closed h
    obtain ⟨d, tail, rfl⟩ :=
      List.exists_cons_of_ne_nil ((passage_isSplitOf (c :: text)).of_found hp).2
    have hread := passage_again hp (inner ++ '*' :: ')' :: next)
    rw [List.cons_append] at hread
    rw [List.append_assoc, List.cons_append, commentEnd_of_passage hread, ih hi]
    rfl
  | case6 => cases h
  | case7 depth c text hclose hopen hp ih =>
    obtain ⟨inner, hi, rfl⟩ := CommentEnd.after_eq_closed h
    -- What follows `c` starts as before: with the rest of the body, or with the closing mark.
    have hnext : ∀ d after, inner ++ '*' :: ')' :: next = d :: after →
        ∃ after, text = d :: after := by
      intro d after hd
      have hs := commentEnd_split depth text
      rw [hi] at hs
      cases inner with
      | nil => cases hd; exact ⟨_, hs⟩
      | cons e inner => cases hd; exact ⟨_, hs⟩
    have hp' : passage (c :: (inner ++ '*' :: ')' :: next)) = .absent := by simpa using hp
    rw [List.append_assoc, List.singleton_append, commentEnd_of_absent hp' _ _, ih hi]
    · rfl
    · intro after hc hd
      obtain ⟨after, ha⟩ := hnext _ _ hd
      exact hclose _ hc ha
    · intro after hc hd
      obtain ⟨after, ha⟩ := hnext _ _ hd
      exact hopen _ hc ha

theorem comment_again {text source rest : List Char} {value : String}
    (h : comment text = .found value source rest) (next : List Char) :
    comment (source ++ next) = .found value source next := by
  unfold comment at h
  split at h
  · split at h
    · next hc =>
      cases h
      simp [comment, commentEnd_again hc next]
    · cases h
  · cases h

theorem comment_append {text source rest : List Char} {value : String} (more : List Char)
    (h : comment text = .found value source rest) :
    comment (text ++ more) = .found value source (rest ++ more) := by
  rw [((comment_isSplitOf text).of_found h).1, List.append_assoc]
  exact comment_again h _

/-! ## Blanks in comments -/

theorem commentEnd_blank {depth : Nat} {c : Char} (hc : isBlank c = true) (text : List Char) :
    commentEnd depth (c :: text) = (commentEnd depth text).after [c] := by
  apply commentEnd_of_absent
  · exact passage_cons_eq_absent_iff.2 ⟨isQuote_of_class rfl rfl hc, ne_of_class rfl hc⟩
  · exact fun _ h => absurd h (ne_of_class rfl hc)
  · exact fun _ h => absurd h (ne_of_class rfl hc)

theorem commentEnd_dropWhile {depth : Nat} {text body rest : List Char}
    (h : commentEnd depth text = .closed body rest) :
    commentEnd depth (text.dropWhile isBlank) = .closed (body.dropWhile isBlank) rest := by
  induction text generalizing body with
  | nil => simp [commentEnd] at h
  | cons c text ih =>
    by_cases hc : isBlank c = true
    · rw [commentEnd_blank hc] at h
      obtain ⟨inner, hi, rfl⟩ := CommentEnd.after_eq_closed h
      simpa [hc] using ih hi
    · have hs := commentEnd_split depth (c :: text)
      rw [h] at hs
      have hb : body.dropWhile isBlank = body := by
        cases body with
        | nil => rfl
        | cons d body => cases hs; exact List.dropWhile_cons_of_neg hc
      rw [List.dropWhile_cons_of_neg hc, hb, h]

/-- One blank can stand in the place of all that stand at the end of a comment. -/
theorem commentEnd_trimEnd {depth : Nat} {text body rest : List Char}
    (h : commentEnd depth text = .closed body rest) (more : List Char) :
    commentEnd depth (trimEnd body ++ ' ' :: '*' :: ')' :: more) =
      .closed (trimEnd body ++ [' ']) more := by
  fun_induction commentEnd depth text generalizing body with
  | case1 => cases h
  | case2 =>
    cases h
    rw [trimEnd]
    simp [commentEnd_blank isBlank_space, commentEnd, CommentEnd.after]
  | case3 text depth ih =>
    obtain ⟨inner, hi, rfl⟩ := CommentEnd.after_eq_closed h
    have ht : trimEnd (['*', ')'] ++ inner) = _ := trimEnd_append_cons (c := ')') rfl ['*'] inner
    rw [ht]
    simp [commentEnd, ih hi, CommentEnd.after]
  | case4 depth text ih =>
    obtain ⟨inner, hi, rfl⟩ := CommentEnd.after_eq_closed h
    have ht : trimEnd (['(', '*'] ++ inner) = _ := trimEnd_append_cons (c := '*') rfl ['('] inner
    rw [ht]
    simp [commentEnd, ih hi, CommentEnd.after]
  | case5 depth c text _ _ value source left hp ih =>
    obtain ⟨inner, hi, rfl⟩ := CommentEnd.after_eq_closed h
    obtain ⟨init, last, hsource, hlast⟩ := passage_eq_found hp
    have ht : trimEnd (source ++ inner) = source ++ trimEnd inner := by
      rw [hsource, List.append_assoc, List.singleton_append, trimEnd_append_cons hlast]
      simp
    obtain ⟨d, tail, rfl⟩ := List.exists_cons_of_ne_nil (l := source) (by simp [hsource])
    have hread := passage_again hp (trimEnd inner ++ ' ' :: '*' :: ')' :: more)
    rw [List.cons_append] at hread
    rw [ht, List.append_assoc, List.cons_append, commentEnd_of_passage hread, ih hi]
    simp [CommentEnd.after]
  | case6 => cases h
  | case7 depth c text hclose hopen hp ih =>
    obtain ⟨inner, hi, rfl⟩ := CommentEnd.after_eq_closed h
    by_cases hblank : isBlank c = true ∧ trimEnd inner = []
    · -- This blank is one of those at the end.
      have ht : trimEnd ([c] ++ inner) = [] := by
        rw [trimEnd_eq_rdropWhile, List.rdropWhile_eq_nil_iff] at hblank ⊢
        simpa using hblank
      rw [ht]
      simpa [hblank.2] using ih hi
    · have ht : trimEnd ([c] ++ inner) = c :: trimEnd inner := by
        by_cases hc : isBlank c = true
        · exact trimEnd_cons fun hn => hblank ⟨hc, hn⟩
        · exact trimEnd_append_cons (by simpa using hc) [] inner
      -- What follows `c` is as before, or it is the blank.
      have hnext : ∀ d after, trimEnd inner ++ ' ' :: '*' :: ')' :: more = d :: after →
          d = ' ' ∨ ∃ after, text = d :: after := by
        intro d after hd
        have hs := commentEnd_split depth text
        rw [hi] at hs
        obtain ⟨blanks, hprefix⟩ := trimEnd_isPrefixOf inner
        cases htrim : trimEnd inner with
        | nil => rw [htrim] at hd; cases hd; exact .inl rfl
        | cons e trimmed =>
          rw [htrim] at hd hprefix
          cases hd
          exact .inr ⟨trimmed ++ blanks ++ '*' :: ')' :: rest, by rw [hs, ← hprefix]; simp⟩
      have hp' : passage (c :: (trimEnd inner ++ ' ' :: '*' :: ')' :: more)) = .absent := by
        simpa using hp
      rw [ht, List.cons_append, commentEnd_of_absent hp' _ _, ih hi]
      · rfl
      · intro after hc hd
        rcases hnext _ _ hd with hd | ⟨after, hd⟩
        · cases hd
        · exact hclose _ hc hd
      · intro after hc hd
        rcases hnext _ _ hd with hd | ⟨after, hd⟩
        · cases hd
        · exact hopen _ hc hd

/-- A comment is read again from its value. -/
theorem comment_of_value {text source rest : List Char} {value : String}
    (h : comment text = .found value source rest) : ∃ source,
      comment ('(' :: '*' :: ' ' :: value.toList ++ [' ', '*', ')']) = .found value source [] := by
  unfold comment at h
  split at h
  · next more =>
    split at h
    · next body rest hb =>
      cases h
      have he : commentEnd 0 (' ' :: trim body ++ [' ', '*', ')']) =
          .closed (' ' :: trim body ++ [' ']) [] := by
        have hend := commentEnd_trimEnd (commentEnd_dropWhile hb) []
        rw [List.cons_append, commentEnd_blank isBlank_space, trim, hend]
        rfl
      refine ⟨'(' :: '*' :: (' ' :: trim body ++ [' ']) ++ ['*', ')'], ?_⟩
      simp only [String.toList_ofList, List.cons_append, comment] at he ⊢
      rw [he]
      simp only [← List.cons_append, trim_blank_blank (trim_trim body)]
    · cases h
  · cases h

end GrammarText
