import GrammarText.Proofs.Iso.Tokens

/-!
# Tokens before other text

A token is the same whatever comes after it, unless that runs into it. Two digits run into each
other, and so do two characters that together are a longer mark or open a comment. A name goes on
with letters, numerals and blanks.
-/

namespace GrammarText.Iso

/-- Side by side the two characters are part of one token, or open a comment. -/
def joins (c d : Char) : Bool :=
  c.isDigit && d.isDigit ||
    [('(', '/'), ('/', ')'), ('(', ':'), (':', ')'), ('(', '*')].contains (c, d)

/-- The second text does not run into the first where it follows it. -/
def Apart (text next : List Char) : Prop :=
  ∀ c ∈ text.getLast?, ∀ d ∈ next.head?, joins c d = false

variable {c d : Char} {name : String} {tail text more next source rest : List Char} {token : Token}

/-! ## Texts apart -/

theorem joins_of_isBlank (hd : isBlank d = true) : joins c d = false := by
  have hdigit := isDigit_of_isBlank hd
  have hslash := ne_of_class (d := '/') rfl hd
  have hcolon := ne_of_class (d := ':') rfl hd
  have hclose := ne_of_class (d := ')') rfl hd
  have hstar := ne_of_class (d := '*') rfl hd
  simp [joins, hdigit, hslash, hcolon, hclose, hstar]

theorem apart_of_isBlank (hd : isBlank d = true) : Apart text (d :: next) := by
  rintro c - _ ⟨⟩
  exact joins_of_isBlank hd

theorem Apart.nil : Apart [] next := fun _ h => nomatch h

theorem Apart.of_append (h : Apart (source ++ text) next) : Apart text next := by
  cases text with
  | nil => exact .nil
  | cons c text => rwa [Apart, List.getLast?_append_cons] at h

/-! ## Tokens -/

theorem Token.source_eq (h : Token.read c more = ⟨token, source, rest⟩) :
    ∃ tail, source = c :: tail ∧ more = tail ++ rest := by
  have hs := Token.read_isSplitOf c more
  rw [h] at hs
  obtain ⟨d, tail, rfl⟩ := List.exists_cons_of_ne_nil hs.2
  cases hs.1
  exact ⟨tail, rfl, rfl⟩

theorem Token.metaName_of_read (h : read c more = ⟨.name name, source, rest⟩) :
    metaName (c :: more) = .found name source rest := by
  cases reads h with
  | name hn => exact hn
  | mark _ _ _ _ hm => unfold ofMark at hm; split at hm <;> cases hm

def Token.isName : Token → Bool
  | .name _ => true
  | _ => false

/-- The text `next` may stand for `rest` after `source`. -/
def MayFollow (source rest next : List Char) : Prop :=
  next.head? = rest.head? ∨ Apart source next

theorem MayFollow.ne_of_joins (h : MayFollow [c] rest next) (hj : joins c d = true)
    (hr : ∀ more, rest = d :: more → False) : ∀ more, next = d :: more → False := by
  rintro more rfl
  rcases h with h | h
  · obtain ⟨more, hm⟩ := List.head?_eq_some_iff.1 h.symm
    exact hr more hm
  · have := h c rfl d rfl
    simp [hj] at this

theorem Token.ofMark_again (h : ofMark c (tail ++ rest) = ⟨token, c :: tail, rest⟩)
    (hn : MayFollow (c :: tail) rest next) :
    ofMark c (tail ++ next) = ⟨token, c :: tail, next⟩ := by
  generalize hm : tail ++ rest = more at h
  unfold ofMark at h
  split at h <;> cases h <;> try rfl
  · rename_i hslash hcolon
    rw [List.nil_append, ofMark]
    · exact hn.ne_of_joins rfl hslash
    · exact hn.ne_of_joins rfl hcolon
  · rename_i hclose
    rw [List.nil_append, ofMark]
    exact hn.ne_of_joins rfl hclose
  · rename_i hclose
    rw [List.nil_append, ofMark] <;> try assumption
    · exact fun _ hc _ => ‹c = '(' → False› hc
    · exact fun _ hc _ => ‹c = '(' → False› hc
    · exact fun _ hc _ => ‹c = '/' → False› hc
    · rintro more rfl hm
      exact hn.ne_of_joins rfl (fun more => hclose more rfl) more hm

theorem comment_absent_again (h : comment (c :: (tail ++ rest)) = .absent)
    (hn : MayFollow (c :: tail) rest next) : comment (c :: (tail ++ next)) = .absent := by
  rw [comment_cons_eq_absent_iff] at h ⊢
  rintro ⟨rfl, hs⟩
  cases tail with
  | cons d tail => exact h ⟨rfl, hs⟩
  | nil =>
    obtain ⟨more, hm⟩ := List.head?_eq_some_iff.1 hs
    refine hn.ne_of_joins (d := '*') rfl ?_ more hm
    rintro more rfl
    exact h ⟨rfl, rfl⟩

/-- What goes on with a name is no part of another token. -/
theorem Token.read_name_again (h : read c (tail ++ rest) = ⟨.name name, c :: tail, rest⟩)
    (hn : ∀ d ∈ next.head?, continuesName d = false) :
    read c (tail ++ next) = ⟨.name name, c :: tail, next⟩ := by
  obtain ⟨d, tail, hl, ht, -, hname, hs, -⟩ := metaName_eq_found_iff.1 (metaName_of_read h)
  cases hs
  exact read_of_metaName (metaName_eq_found_iff.2 ⟨c, tail, hl, ht, hn, hname, rfl, rfl⟩)

theorem Token.read_again (h : read c (tail ++ rest) = ⟨token, c :: tail, rest⟩)
    (hu : token ≠ .unclosed) (hname : token.isName = false) (hn : MayFollow (c :: tail) rest next) :
    read c (tail ++ next) = ⟨token, c :: tail, next⟩ := by
  cases reads h with
  | name => cases hname
  | count hd =>
    obtain ⟨rfl, hne, hd, hstop, -⟩ := decimal_eq_found_iff.1 hd
    have hstop' : ∀ d ∈ next.head?, d.isDigit = false := by
      intro d hm
      rcases hn with hn | hn
      · exact hstop d (hn ▸ hm)
      · have hlast := List.getLast?_eq_some_getLast hne
        have := hn _ hlast d hm
        simp [joins, hd _ (List.getLast_mem hne)] at this
        exact this.1
    exact read_of_decimal (isLetter_of_isDigit (hd c (by simp)))
      (decimal_eq_found_iff.2 ⟨rfl, hne, hd, hstop', rfl⟩)
  | terminal hq =>
    obtain ⟨quote, hquote, -, hs, -⟩ := quotedText_eq_found_iff.1 hq
    cases hs
    simp only [isQuote, Bool.or_eq_true, beq_iff_eq] at hquote
    rcases hquote with rfl | rfl <;> exact read_of_quotedText rfl rfl (quotedText_again hq next)
  | special hs =>
    obtain ⟨blanks, body, -, -, -, -, he, -⟩ := specialSequence_eq_found hs
    cases he
    exact read_of_specialSequence rfl rfl rfl (specialSequence_again hs next)
  | unclosed => exact absurd rfl hu
  | mark hl hd hq hs hm => rw [read_eq_ofMark hl hd hq hs, ofMark_again hm hn]

/-! ## Texts that go on -/

/-- The text may go on with `next` after the token that takes `source`. -/
def GoesOn (token : Token) (source rest next : List Char) : Prop :=
  rest ≠ [] ∨ token.isName = false ∧ Apart source next

theorem GoesOn.mayFollow (h : GoesOn token source rest next) :
    MayFollow source rest (rest ++ next) := by
  cases rest with
  | cons d rest => exact .inl rfl
  | nil =>
    rcases h with h | ⟨-, h⟩
    · exact absurd rfl h
    · exact .inr h

theorem comment_append_of_absent (h : comment (c :: more) = .absent)
    (ht : Token.read c more = ⟨token, source, rest⟩) (hn : GoesOn token source rest next) :
    comment (c :: (more ++ next)) = .absent := by
  obtain ⟨tail, rfl, rfl⟩ := Token.source_eq ht
  rw [List.append_assoc]
  exact comment_absent_again h hn.mayFollow

theorem Token.read_append (h : Token.read c more = ⟨token, source, rest⟩) (hu : token ≠ .unclosed)
    (hn : GoesOn token source rest next) :
    Token.read c (more ++ next) = ⟨token, source, rest ++ next⟩ := by
  obtain ⟨tail, rfl, rfl⟩ := Token.source_eq h
  rw [List.append_assoc]
  cases hname : token.isName with
  | false => exact Token.read_again h hu hname hn.mayFollow
  | true =>
    cases token with
    | name name =>
      obtain ⟨-, -, -, -, hstop, -⟩ := metaName_eq_found_iff.1 (metaName_of_read h)
      refine read_name_again h ?_
      rcases hn with hn | ⟨hn, -⟩
      · obtain ⟨d, rest, rfl⟩ := List.exists_cons_of_ne_nil hn
        exact hstop
      · cases hn
    | _ => cases hname

end GrammarText.Iso
