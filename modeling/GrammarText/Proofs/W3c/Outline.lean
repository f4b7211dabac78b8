import GrammarText.Proofs.Lexis.Outline
import GrammarText.Proofs.Lexis.Written
import GrammarText.Proofs.W3c.Tokens

/-!
# W3C texts in outline

For a scan that looks for heads of rules, a W3C text consists of block comments, literals, words and
defining marks. All other tokens are single characters.
-/

namespace GrammarText.W3c

/-- What a scan must know of the W3C notation. -/
def outline : Outline where
  comment := blockComment
  passage := quotedText
  name := word
  defining := [':', ':', '=']
  comment_isSplitOf := blockComment_isSplitOf
  passage_isSplitOf := quotedText_isSplitOf
  name_isSplitOf := word_isSplitOf
  defining_ne_nil := by simp

def Token.role : Token → Role
  | .symbol name _ => .name name
  | .defining => .defining
  | .unclosed => .unclosed
  | _ => .other

variable {c : Char} {more source rest : List Char} {token : Token}

theorem inert_iff : outline.Inert c ↔ c ≠ '/' ∧ isQuote c = false := by
  constructor
  · intro h
    refine ⟨?_, quotedText_cons_eq_absent_iff.1 (h []).2⟩
    rintro rfl
    cases (h ['*']).1
  · rintro ⟨hslash, hquote⟩ more
    exact ⟨blockComment_cons_eq_absent hslash, quotedText_cons_eq_absent_iff.2 hquote⟩

theorem inert_of_isAlpha (hc : c.isAlpha = true) : outline.Inert c :=
  inert_iff.2 ⟨ne_of_class rfl hc, isQuote_of_class rfl rfl hc⟩

theorem inert_of_mem_defining (hc : c ∈ outline.defining) : outline.Inert c := by
  refine inert_iff.2 ?_
  rcases List.mem_cons.1 hc with rfl | hc
  · exact ⟨by simp, rfl⟩
  · rcases List.mem_pair.1 hc with rfl | rfl <;> exact ⟨by simp, rfl⟩

theorem skips_of_isBlank (hc : isBlank c = true) : outline.Skips c := by
  refine ⟨inert_iff.2 ⟨ne_of_class rfl hc, isQuote_of_class rfl rfl hc⟩, fun more => ⟨?_, ?_⟩⟩
  · exact word_cons_eq_absent_iff.2 (isAlpha_of_isBlank hc)
  · exact if_neg (ne_of_class rfl hc).symm

theorem Token.ofMark_of_afterMark? (h : afterMark? outline.defining (c :: more) = none) :
    ∃ token, ofMark c more = ⟨token, [c], more⟩ ∧ token.role = .other := by
  unfold ofMark
  split
  · cases h
  all_goals exact ⟨_, rfl, rfl⟩

theorem Token.quotedText_of_unclosed (h : read c more = ⟨.unclosed, source, rest⟩) :
    ∃ source rest, quotedText (c :: more) = .unclosed source rest := by
  unfold read at h
  cases hw : word (c :: more) with
  | found => rw [hw] at h; cases h
  | unclosed => exact absurd (Recognition.map_eq_unclosed_iff.1 hw) run_ne_unclosed
  | absent =>
    rw [hw] at h
    cases hq : quotedText (c :: more) with
    | found => rw [hq] at h; cases h
    | unclosed source rest => exact ⟨source, rest, rfl⟩
    | absent =>
      rw [hq] at h
      change ofMark c more = _ at h
      unfold ofMark at h
      split at h <;> cases h

/-- The scan passes every token. -/
theorem Token.passes (h : read c more = ⟨token, source, rest⟩) :
    outline.Passes token.role (c :: more) source rest := by
  cases reads h with
  | symbol hw =>
    obtain ⟨letters, hr, rfl⟩ := Recognition.map_eq_found hw
    obtain ⟨-, -, ha, -⟩ := run_eq_found_iff.1 hr
    have hq : quotedText (c :: more) = .absent :=
      quotedText_cons_eq_absent_iff.2 (inert_iff.1 (inert_of_isAlpha (isAlpha_of_word hw))).2
    exact .name hq hw fun d hd => inert_of_isAlpha (ha d hd)
  | literal hq => exact .passage hq
  | unclosed =>
    obtain ⟨_, _, hq⟩ := quotedText_of_unclosed h
    exact .unclosed hq
  | mark ha hq hm =>
    have hw : word (c :: more) = .absent := word_cons_eq_absent_iff.2 ha
    have hp : quotedText (c :: more) = .absent := quotedText_cons_eq_absent_iff.2 hq
    cases hd : afterMark? outline.defining (c :: more) with
    | some after =>
      cases eq_append_of_afterMark? hd
      cases hm
      exact .defining hp hw fun d hd => inert_of_mem_defining hd
    | none =>
      obtain ⟨token, ht, hr⟩ := ofMark_of_afterMark? hd
      cases ht.symm.trans hm
      rw [hr]
      exact Outline.Passes.other hp hw hd (List.forall_mem_nil _)

theorem outline_describes : outline.Describes lexicon Token.role where
  comment := rfl
  blank _ hb := skips_of_isBlank hb
  token _ _ _ _ := Token.passes rfl

end GrammarText.W3c
