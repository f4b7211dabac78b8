import GrammarText.Proofs.Lexis.Continuation
import GrammarText.W3c.Token

/-!
# Tokens before other text

A token is the same whatever comes after it, as long as that starts with a character that is no part
of a token of several characters.
-/

namespace GrammarText.W3c

/-- A character that neither goes on with a token nor makes a mark longer. -/
def isBoundary (c : Char) : Bool := !c.isAlpha && c != '*' && c != ':' && c != '='

variable {c d : Char} {text source rest : List Char}

theorem Token.ofMark_append (c : Char) (text more : List Char) (hd : isBoundary d = true) :
    Token.ofMark c (text ++ d :: more) =
      { Token.ofMark c text with rest := (Token.ofMark c text).rest ++ d :: more } := by
  fun_cases Token.ofMark c text
  all_goals try rfl
  -- Only a defining mark goes on beyond one character.
  next hdefining =>
  have hgoes : ∀ rest, c = ':' → text ++ d :: more = ':' :: '=' :: rest → False := by
    intro rest hc ht
    match text, ht with
    | [], ht => cases ht; simp [isBoundary] at hd
    | [e], ht => cases ht; simp [isBoundary] at hd
    | e :: f :: text, ht => cases ht; exact hdefining _ hc rfl
  rw [ofMark] <;> assumption

theorem Token.read_append {token : Token} (more : List Char) (hd : isBoundary d = true)
    (h : Token.read c text = ⟨token, source, rest⟩) (ht : token ≠ .unclosed) :
    Token.read c (text ++ d :: more) = ⟨token, source, rest ++ d :: more⟩ := by
  have hl : d.isAlpha = false := by
    simp only [isBoundary, Bool.and_eq_true, Bool.not_eq_true'] at hd
    exact hd.1.1.1
  unfold Token.read at h ⊢
  cases hw : word (c :: text) with
  | found name =>
    rw [hw] at h
    cases h
    rw [← List.cons_append, word_append more hl hw]
    rfl
  | unclosed => rw [hw] at h; cases h; exact absurd rfl ht
  | absent =>
    have hw' : word (c :: (text ++ d :: more)) = .absent :=
      word_cons_eq_absent_iff.2 (word_cons_eq_absent_iff.1 hw)
    rw [hw] at h
    rw [hw']
    -- No word starts here, in the longer text neither.
    cases hq : quotedText (c :: text) with
    | found body =>
      rw [hq] at h
      cases h
      rw [← List.cons_append, quotedText_append (d :: more) hq]
      rfl
    | unclosed => rw [hq] at h; cases h; exact absurd rfl ht
    | absent =>
      have hq' : quotedText (c :: (text ++ d :: more)) = .absent :=
        quotedText_cons_eq_absent_iff.2 (quotedText_cons_eq_absent_iff.1 hq)
      rw [hq] at h
      rw [hq']
      change Token.ofMark c text = _ at h
      change Token.ofMark c (text ++ d :: more) = _
      rw [Token.ofMark_append c text more hd, h]

theorem blockComment_append_of_absent (more : List Char) (hd : isBoundary d = true)
    (h : blockComment (c :: text) = .absent) :
    blockComment (c :: (text ++ d :: more)) = .absent := by
  unfold blockComment
  split
  · next ht =>
    cases text with
    | nil => cases ht; simp [isBoundary] at hd
    | cons e text =>
      cases ht
      simp [blockComment] at h
  · rfl

end GrammarText.W3c
