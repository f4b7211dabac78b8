import GrammarText.Proofs.Heads
import GrammarText.Proofs.Iso.Concatenation
import GrammarText.Proofs.Lexis.Prefix

/-!
# The text before an ISO rule

A rule is named where the one before it has ended, so the text before its name is a grammar, or a
gap if there is no rule before it.
-/

namespace GrammarText.Iso

theorem Token.ne_unclosed_of_role {token : Token} (h : token.role ≠ .unclosed) :
    token ≠ .unclosed := by
  rintro rfl
  exact h rfl

theorem lexicon_stable : lexicon.Stable Token.role where
  comment := GrammarText.comment_again
  absent h := comment_cons_eq_absent_iff.2 fun ⟨hc, hs⟩ =>
    comment_cons_eq_absent_iff.1 h ⟨hc, List.mem_head?_append_of_mem_head? hs⟩
  token {c tail before after token} hu h := by
    cases hn : token.isName with
    | false =>
      refine Token.read_again h (Token.ne_unclosed_of_role hu) hn ?_
      cases before with
      | nil => exact .inr fun _ _ _ hd => nomatch hd
      | cons => exact .inl rfl
    | true =>
      cases token with
      | name text =>
        refine Token.read_name_again h ?_
        obtain ⟨-, -, -, -, hstop, -⟩ := metaName_eq_found_iff.1 (Token.metaName_of_read h)
        exact fun d hd => hstop d (List.mem_head?_append_of_mem_head? hd)
      | _ => cases hn

theorem lexicon_separates : lexicon.Separates Token.role isLetter where
  blank := isLetter_of_isBlank
  comment h c hc := by
    rw [getLast?_comment h] at hc
    cases hc
    rfl
  token {c next more source rest token} hu h hs d hd := by
    cases Token.reads h with
    | name h =>
      obtain ⟨-, -, -, -, hstop, -⟩ := metaName_eq_found_iff.1 h
      have := hstop next rfl
      simp [continuesName, hs] at this
    | count h =>
      obtain ⟨-, -, hdigit, -⟩ := decimal_eq_found_iff.1 h
      exact isLetter_of_isDigit (hdigit d (List.mem_of_getLast? hd))
    | terminal h =>
      obtain ⟨quote, hq, hlast⟩ := getLast?_quotedText h
      cases hlast.symm.trans hd
      exact eq_false_of_class (isQuote_of_class rfl rfl) hq
    | special h => cases (getLast?_specialSequence h).symm.trans hd; rfl
    | unclosed => exact absurd rfl hu
    | mark hl _ _ _ h =>
      unfold Token.ofMark at h
      split at h <;> cases h <;> cases hd <;> first | rfl | exact hl

/-! ## Names -/

section Steps

variable {state next : State} {lexeme : Lexeme Token} {rule : RuleContext} {fault : Fault}

theorem State.fault_of_rule?_eq_none (h : state.step lexeme = .error fault)
    (hr : state.rule? = none) : fault = .expectedName := by
  obtain ⟨rules, pending, place⟩ := state
  obtain ⟨comments, glued, start, token⟩ := lexeme
  cases place with
  | between => cases token <;> cases h <;> rfl
  | named => cases hr
  | within => cases hr

/-- A rule comes to be read at its name. -/
theorem State.named_of_step (h : state.step lexeme = .ok next) (hs : state.rule? ≠ some rule)
    (hn : next.rule? = some rule) : state.place = .between ∧
      lexeme.token = .name rule.name ∧ lexeme.start.line = rule.line := by
  obtain ⟨rules, pending, place⟩ := state
  obtain ⟨comments, glued, start, token⟩ := lexeme
  cases place with
  | between => cases token <;> cases h; cases hn; exact ⟨rfl, rfl, rfl⟩
  | named => cases token <;> cases h; exact absurd hn hs
  | within =>
    simp only [step] at h
    split at h
    · cases h; exact absurd hn hs
    · cases h; cases hn
    · cases h

theorem State.started_of_step (h : state.step lexeme = .ok next) : next.Started := by
  obtain ⟨rules, pending, place⟩ := state
  obtain ⟨comments, glued, start, token⟩ := lexeme
  cases place with
  | between => cases token <;> cases h; exact .inl (by simp)
  | named => cases token <;> cases h; exact .inl (by simp)
  | within =>
    simp only [step] at h
    split at h
    · cases h; exact .inl (by simp)
    · cases h; exact .inr (by simp)
    · cases h

/-- Between two rules the text may end, unless no rule has been read. -/
theorem State.finish_or_nil {lexemes : List (Lexeme Token)}
    (h : lexemes.foldlM reader.step reader.initial = .ok state) (hp : state.place = .between)
    (comments : List String) : lexemes = [] ∨ ∃ grammar, state.finish comments = some grammar := by
  obtain ⟨rules, pending, place⟩ := state
  cases hp
  cases rules with
  | cons first rules => exact .inr ⟨_, rfl⟩
  | nil =>
    rcases List.eq_nil_or_concat' lexemes with rfl | ⟨init, last, rfl⟩
    · exact .inl rfl
    · obtain ⟨u, -, hl⟩ := foldlM_append_eq_ok_iff.1 h
      obtain ⟨v, hv, hn⟩ := foldlM_cons_eq_ok_iff.1 hl
      cases hn
      have hs := State.started_of_step hv
      simp [Started] at hs

end Steps

/-! ## Whole texts -/

/-- The rule in which a fault lies stands behind a grammar or a gap. -/
theorem Grammar.exists_prefix_of_rule {text : String} {d : Diagnostic} {rule : RuleContext}
    (h : parse text = .error d) (hd : d.rule = some rule) : ∃ before after,
      text.toList = before ++ after ∧
      (lexicon.IsGap before ∨ ∃ grammar, parse (String.ofList before) = .ok grammar) ∧
      (∀ c ∈ before.getLast?, isLetter c = false) ∧
      (∃ source rest, metaName after = .found rule.name source rest) ∧
      rule.line = 1 + lineFeeds before ∧ Position.start.advance before ≤ d.position := by
  obtain ⟨before, lexeme, after, state, next, hl, hr, hs, hn, hc, hp⟩ :=
    reader.exists_step_of_rule State.rule? rfl id rfl rfl h hd
  obtain ⟨hplace, htoken, hline⟩ := State.named_of_step hs hn hc
  have hu := forall_mem_of_foldlM hr fun _ _ _ h => (State.heads_step h).ne_unclosed
  -- What has been read when the name comes is what is read of the text before the name.
  obtain ⟨shorter, c, more, htext, hlexeme, hstart, hlast, hread⟩ :=
    Lexicon.readFrom_prefix lexicon_stable lexicon_separates hl hu
  have hname : Token.read c more = ⟨.name rule.name, _, _⟩ :=
    congrArg (Piece.mk · _ _) (hlexeme.symm.trans htoken)
  have hfound := Token.metaName_of_read hname
  refine ⟨shorter, c :: more, htext, ?_, hlast (isLetter_of_metaName hfound), ⟨_, _, hfound⟩, ?_,
    hstart ▸ hp⟩
  · rcases State.finish_or_nil hr hplace lexeme.comments with rfl | ⟨grammar, hf⟩
    · exact .inl (Lexicon.isGap_of_readFrom hread)
    · refine .inr ⟨grammar, ?_⟩
      rw [parse, String.toList_ofList, Lexicon.read, hread]
      exact reader.run_eq_ok_iff.2 ⟨state, hr, lexeme.comments, rfl, hf⟩
  · rw [← hline, hstart]
    rfl

end GrammarText.Iso
