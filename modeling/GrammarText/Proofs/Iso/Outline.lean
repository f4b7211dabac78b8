import GrammarText.Proofs.Iso.Stretches
import GrammarText.Proofs.Lexis.Outline

/-!
# ISO texts in outline

For a scan that looks for heads of rules, an ISO text consists of comments, terminals, special
sequences, names and defining marks. No other token hides the start of one of these.
-/

namespace GrammarText.Iso

/-- What a scan must know of the ISO notation. -/
def outline : Outline where
  comment := comment
  passage := passage
  name := metaName
  defining := ['=']
  comment_isSplitOf := comment_isSplitOf
  passage_isSplitOf := passage_isSplitOf
  name_isSplitOf := metaName_isSplitOf
  defining_ne_nil := by simp

def Token.role : Token → Role
  | .name text => .name text
  | .defining => .defining
  | .unclosed => .unclosed
  | _ => .other

variable {c : Char} {tail more source rest : List Char} {token : Token}

theorem inert_of_isInert (hc : isInert c = true) : outline.Inert c := by
  intro more
  refine ⟨comment_cons_eq_absent ?_, passage_eq_absent_of_isInert hc⟩
  rintro rfl
  cases hc

/-- The character starts no comment and no passage, and neither a name nor the defining mark. -/
structure IsIdle (c : Char) : Prop where
  inert : isInert c = true
  not_letter : isLetter c = false
  ne_defining : c ≠ '='

theorem IsIdle.skips (hc : IsIdle c) : outline.Skips c := by
  refine ⟨inert_of_isInert hc.inert, fun more => ⟨metaName_cons_eq_absent hc.not_letter, ?_⟩⟩
  exact if_neg hc.ne_defining.symm

theorem isIdle_of_isBlank (hc : isBlank c = true) : IsIdle c :=
  ⟨isInert_of_isBlank hc, isLetter_of_isBlank hc, ne_of_class rfl hc⟩

theorem isIdle_of_isDigit (hc : c.isDigit = true) : IsIdle c :=
  ⟨isInert_of_isDigit hc, isLetter_of_isDigit hc, ne_of_class rfl hc⟩

theorem isIdle_of_ofMark (h : Token.ofMark c (tail ++ rest) = ⟨token, c :: tail, rest⟩) :
    ∀ d ∈ tail, IsIdle d := by
  generalize hm : tail ++ rest = more at h
  unfold Token.ofMark at h
  split at h <;> cases h <;> simp
  all_goals exact ⟨rfl, rfl, by simp⟩

theorem Token.role_of_ofMark (h : ofMark c more = ⟨token, source, rest⟩) (hc : c ≠ '=') :
    token.role = .other := by
  unfold ofMark at h
  split at h <;> cases h <;> first | rfl | exact absurd rfl hc

theorem passes_other (hp : passage (c :: (tail ++ rest)) = .absent) (hl : isLetter c = false)
    (hc : c ≠ '=') (ht : ∀ d ∈ tail, IsIdle d) :
    outline.Passes .other (c :: (tail ++ rest)) (c :: tail) rest :=
  .other hp (metaName_cons_eq_absent hl) (if_neg hc.symm) fun d hd => (ht d hd).skips

theorem Token.ofMark_ne_unclosed (c : Char) (more : List Char) :
    (ofMark c more).token ≠ .unclosed := by
  unfold ofMark
  split <;> simp

theorem Token.passage_of_unclosed (h : read c more = ⟨.unclosed, source, rest⟩) :
    ∃ source rest, passage (c :: more) = .unclosed source rest := by
  unfold read at h
  cases hm : metaName (c :: more) with
  | found => rw [hm] at h; cases h
  | unclosed => exact absurd hm metaName_ne_unclosed
  | absent =>
    cases hd : decimal (c :: more) with
    | found => rw [hm, hd] at h; cases h
    | unclosed => exact absurd (Recognition.map_eq_unclosed_iff.1 hd) run_ne_unclosed
    | absent =>
      rw [hm, hd] at h
      rw [passage]
      cases hq : quotedText (c :: more) with
      | found => rw [hq] at h; cases h
      | unclosed source rest => exact ⟨source, rest, rfl⟩
      | absent =>
        rw [hq] at h
        cases hs : specialSequence (c :: more) with
        | found => rw [hs] at h; cases h
        | unclosed source rest => exact ⟨source, rest, rfl⟩
        | absent =>
          rw [hs] at h
          exact absurd (congrArg Piece.token h) (ofMark_ne_unclosed c more)

/-- The scan passes every token. -/
theorem Token.passes (h : read c more = ⟨token, source, rest⟩) :
    outline.Passes token.role (c :: more) source rest := by
  obtain ⟨tail, rfl, rfl⟩ := source_eq h
  cases reads h with
  | name hn =>
    obtain ⟨d, tail, hl, ht, -, -, hs, -⟩ := metaName_eq_found_iff.1 hn
    cases hs
    have hi : ∀ d ∈ c :: tail, isInert d = true := List.forall_mem_cons.2
      ⟨isInert_of_continuesName (by simp [continuesName, hl]),
        fun d hd => isInert_of_continuesName (ht d hd)⟩
    exact .name (passage_eq_absent_of_isInert (hi c (by simp))) hn
      fun d hd => inert_of_isInert (hi d hd)
  | count hd =>
    obtain ⟨-, -, hd, -⟩ := decimal_eq_found_iff.1 hd
    obtain ⟨hc, ht⟩ := List.forall_mem_cons.1 hd
    have hidle := isIdle_of_isDigit hc
    exact passes_other (passage_eq_absent_of_isInert hidle.inert) hidle.not_letter
      hidle.ne_defining fun d hd => isIdle_of_isDigit (ht d hd)
  | terminal hq => exact .passage (passage_of_quotedText hq)
  | special hs => exact .passage (passage_of_specialSequence hs)
  | unclosed =>
    obtain ⟨_, _, hp⟩ := passage_of_unclosed h
    exact .unclosed hp
  | mark hl _ hq hs hm =>
    have hp : passage (c :: (tail ++ rest)) = .absent := passage_cons_eq_absent_iff.2 ⟨hq, hs⟩
    by_cases hc : c = '='
    · subst hc
      cases hm
      have hn : metaName ('=' :: rest) = .absent := metaName_cons_eq_absent hl
      exact .defining hp hn (List.forall_mem_singleton.2 (inert_of_isInert rfl))
    · -- A mark of two characters must not hide the start of a comment in its second one.
      rw [role_of_ofMark hm hc]
      exact passes_other hp hl hc (isIdle_of_ofMark hm)

theorem outline_describes : outline.Describes lexicon Token.role where
  comment := rfl
  blank _ hb := (isIdle_of_isBlank hb).skips
  token _ _ _ _ := Token.passes rfl

end GrammarText.Iso
