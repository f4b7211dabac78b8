import GrammarText.Proofs.W3c.Descent
import GrammarText.Proofs.W3c.Onward

/-!
# The descent into W3C grammars reads on

With more fuel than there are bytes left, each program of the descent comes to an answer or to a
fault, and what is read from its place on is what is read from the place that it leads to.
-/

namespace GrammarText.W3c.Descend

open GrammarText.Descent

variable {fuel : Nat} {s here : Scanner} {comments : List String}

/-! ## Gaps -/

section Gaps

variable {fault : Diagnostic → Prop}

theorem gapRound_ends (h : lexicon.WithinGap s here comments) : Ends (gapRound ()) here ()
    (fun r after _ => r.Holds
      (fun _ => after.left < here.left ∧ ∃ comments, lexicon.WithinGap s after comments)
      fun _ => lexicon.WithinGap s after comments ∧ lexicon.Rests after.rest)
    (fun d => d = s.unterminated ∧ lexicon.gap s.rest = none) := by
  refine .bind .skipBlanks ?_
  rintro _ _ _ ho ⟨rfl, rfl⟩
  have hb : here.skipBlanks.rest.dropWhile isBlank = here.skipBlanks.rest :=
    List.dropWhile_idempotent isBlank here.rest
  have hs := h.skipBlanks
  have hle := ho.left_le
  refine .read (blockComment_isSplitOf _) ?_ (fun hc => .pure ⟨hs, hb, hc⟩) ?_
  · intro body source rest hf
    obtain ⟨hr, hne⟩ := (blockComment_isSplitOf _).of_found hf
    have := (Scanner.Passes.pass hr).left_lt hne
    exact .pure ⟨by omega, _, hs.comment hb hf⟩
  · intro source rest hu
    exact ⟨hs.onward.unterminated_eq, hs.gap_eq_none hb hu⟩

theorem gap_ends (hf : s.left < fuel) : Ends (gap fuel) s ()
    (fun _ after _ => ∃ g, lexicon.gap s.rest = some g ∧ after = s.pass g.source g.rest)
    (fun d => d = s.unterminated ∧ lexicon.gap s.rest = none) := by
  refine .loop (fun _ here _ => ∃ comments, lexicon.WithinGap s here comments) ?_
    ⟨[], .refl _ _⟩ hf
  rintro ⟨⟩ here _ ⟨comments, hw⟩
  refine (gapRound_ends hw).imp (fun r after _ _ hr => ?_) fun _ hd => hd
  cases r with
  | again next => exact hr
  | leave answer =>
    obtain ⟨g, hg, hs, -⟩ := hr.1.gap_eq_some hr.2
    exact ⟨g, hg, hs⟩

/-- The head of a rule comes next exactly if a word does that the defining mark follows. -/
theorem atRuleStart_ends (hf : s.left < fuel) : Ends (atRuleStart fuel) s ()
    (fun b after _ => after = s ∧
      (b = true ↔ ∃ name source rest, word s.rest = .found name source rest ∧
        definingNext rest = true)) fault := by
  have hread : Ends (read word (fun _ => do
      if ← succeeds (gap fuel) then eatOne [[':', ':', '=']] else return false) (return false)) s ()
      (fun b _ _ => b = true ↔ ∃ name source rest, word s.rest = .found name source rest ∧
        definingNext rest = true) fault := by
    refine .read (word_isSplitOf _) ?_ (fun hw => .pure (by simp [hw])) ?_
    · intro name source rest hw
      obtain ⟨hr, hne⟩ := (word_isSplitOf _).of_found hw
      have := (Scanner.Passes.pass hr).left_lt hne
      refine .bind (.succeeds (gap_ends (s := s.pass source rest) (by omega))) ?_
      intro ok here _ _ hok
      cases ok with
      | true =>
        obtain ⟨_, g, hg, rfl⟩ := hok
        have hg : lexicon.gap rest = some g := hg
        have hd : definingNext rest = true ↔ [':', ':', '='] <+: g.rest := by
          rw [definingNext_of_gap hg, definingNext_of_rests (Lexicon.rests_of_gap hg),
            afterMark?_isSome_iff]
        refine .eatOne ?_ fun hn => ?_
        · simp only [List.mem_singleton, forall_eq]
          intro after ha
          simpa [hw, hd] using ⟨after, ha.symm⟩
        · have hn : ¬ [':', ':', '='] <+: g.rest := hn _ (List.mem_singleton_self _)
          simpa [hw, hd] using hn
      | false =>
        obtain ⟨_, -, hg⟩ := hok
        have hg : lexicon.gap rest = none := hg
        exact .pure (by simp [hw, definingNext_of_gap_eq_none hg])
    · simp [word]
  refine (Ends.speculate hread).imp ?_ fun _ hd => hd
  rintro b after _ - ⟨rfl, -, _, _, hb⟩
  exact ⟨rfl, hb⟩

end Gaps

/-! ## Marks for repetition -/

section Suffixes

variable {occurrence : Occurrence}

theorem next_of_suffix (h : suffixAt? s.rest = some occurrence) :
    lexicon.Rests s.rest ∧ ∃ c rest, Next s ⟨.suffix occurrence, [c], rest⟩ := by
  unfold suffixAt? at h
  split at h <;> cases h
  all_goals
    next hs =>
      exact ⟨hs ▸ rests_cons rfl (by decide), _, _, next_of_ofMark rfl rfl hs⟩

theorem lacks_suffix (h : suffixAt? s.rest = none) : Lacks s (.suffix occurrence) := by
  rintro piece ⟨c, more, hs, rfl⟩ ht
  rw [hs] at h
  obtain ⟨read, hr⟩ : ∃ read, Token.read c more = read := ⟨_, rfl⟩
  simp only [Token.readMarked, hr] at ht
  cases Token.reads hr with
  | mark _ _ hm =>
    subst hm
    unfold Token.ofMark at ht
    split at ht <;> cases ht <;> cases h
  | _ => cases ht

end Suffixes

section Reading

variable {α : Type} {finish : State → Option α} {state : State} {frame : Frame α} {body : Body}
  {level : Level} {opened : List Opened} {minuend : Option Expression}
  {mark source rest : List Char}
  {token : Token} {result : Except Diagnostic α}

/-! ## Gaps before a state -/

theorem gap_reads (hfree : state.IsFree) (hf : s.left < fuel) (h : state.readOn finish s = result) :
    Ends (gap fuel) s () (fun _ after _ => lexicon.Rests after.rest ∧
      state.readOn finish after = result ∧ (lexicon.Rests s.rest → after = s))
      (fun d => d = s.unterminated ∧
        result = .error { d with rule := state.rule? .unexpectedEnd }) := by
  refine (gap_ends hf).imp ?_ ?_
  · rintro _ _ _ - ⟨g, hg, rfl⟩
    refine ⟨Lexicon.rests_of_gap hg, (State.readOn_of_gap hfree hg).symm.trans h, fun hr => ?_⟩
    cases hr.gap_eq.symm.trans hg
    simp [Scanner.pass, Position.advance_nil]
  · rintro d ⟨rfl, hg⟩
    exact ⟨rfl, h.symm.trans (State.readOn_of_gap_eq_none hg)⟩

/-- The fault ends the reading of a right side, once it is told in which rule it lies. -/
def Faults (frame : Frame α) (result : Except Diagnostic α) (d : Diagnostic) : Prop :=
  result = .error (d.inRule frame.rule)

theorem gap_within (hfree : State.IsFree ⟨frame.rules, .within frame.rule body⟩)
    (hf : s.left < fuel) (h : frame.readOn body s = result) :
    Ends (gap fuel) s () (fun _ after _ => lexicon.Rests after.rest ∧
      frame.readOn body after = result ∧ (lexicon.Rests s.rest → after = s))
      (Faults frame result) := by
  refine (gap_reads hfree hf h).imp (fun _ _ _ _ h => h) ?_
  rintro _ ⟨rfl, h⟩
  exact h

/-! ## Marks -/

theorem requireMark_ends {fault : Diagnostic → Prop} {answer : Unit → Scanner → Unit → Prop}
    {missing : Fault} (token : Token) (ht : token.spelling? = some mark)
    (hfound : ∀ rest, Next s ⟨token, mark, rest⟩ → answer () (s.pass mark rest) ())
    (hmissing : Lacks s token → fault (s.expected missing)) :
    Ends (require [mark] missing) s () answer fault := by
  refine .require ?_ fun hn => hmissing (lacks_of_spelling ht (hn mark (List.mem_singleton_self _)))
  simp only [List.mem_singleton, forall_eq]
  exact fun rest hs => hfound rest (next_of_spelling ht hs)

/-- A mark of one character that comes next is passed like any other character. -/
theorem bump_ends {c : Char} {fault : Diagnostic → Prop} (hn : Next s ⟨token, [c], rest⟩) :
    Ends (act Scanner.bump) s () (fun _ after _ => after = s.pass [c] rest) fault := by
  refine .bump (fun d more hs => ?_) fun hs => ?_ <;> rw [hn.rest_eq] at hs <;> cases hs
  rfl

/-! ## Operands -/

/-- What a descent that reads an expression comes to, whatever stands around the expression. -/
def ReadsExpression (x : Descent Unit Expression) (s : Scanner) : Prop :=
  ∀ {α : Type} {frame : Frame α} {opened : List Opened} {result : Except Diagnostic α},
    frame.readOn ⟨opened, {}, .operand none⟩ s = result →
      Ends x s () (fun e after _ => ∃ level minuend operand, lexicon.Rests after.rest ∧
        (∀ piece, Next after piece → piece.token = .closing ∨ piece.token.isHead = true) ∧
          e = level.close (endItem minuend operand) ∧
            frame.readOn ⟨opened, level, .item minuend operand true⟩ after = result)
        (Faults frame result)

theorem suffix_ends {operand : Expression}
    (h : frame.readOn ⟨opened, level, .item minuend operand false⟩ s = result) :
    Ends (suffix operand) s () (fun operand after _ =>
      frame.readOn ⟨opened, level, .item minuend operand true⟩ after = result)
      (Faults frame result) := by
  refine .scanner ?_
  split
  · next occurrence ho =>
    obtain ⟨hr, c, rest, hn⟩ := next_of_suffix ho
    refine .bind (bump_ends hn) ?_
    rintro _ _ _ - rfl
    exact .pure (Frame.readOn_of_partly hr hn .suffix h)
  · next ho =>
    exact .pure ((Frame.readOn_of_lacks_suffix fun _ => lacks_suffix ho).symm.trans h)

theorem leaf_ends (hr : lexicon.Rests s.rest) (hm : ∀ c ∈ s.rest.head?, c ∉ ['(', '[', '#'])
    (h : frame.readOn ⟨opened, level, .operand minuend⟩ s = result) :
    Ends leaf s () (fun operand after _ => after.left < s.left ∧
      frame.readOn ⟨opened, level, .item minuend operand false⟩ after = result)
      (Faults frame result) := by
  refine .read (quotedText_isSplitOf _) ?_ (fun hq => ?_) ?_
  · intro text source rest hf
    have hn := next_of_quotedText hf
    exact .pure ⟨hn.left_lt,
      Frame.readOn_of_partly hr hn (.leaf rfl) h⟩
  · refine .read (word_isSplitOf _) ?_ (fun hw => .fail ?_) (by simp [word])
    · intro name source rest hf
      have hn := next_of_word hf
      exact .pure ⟨hn.left_lt,
        Frame.readOn_of_partly hr hn (.leaf rfl) h⟩
    · exact h.symm.trans (Frame.readOn_eq_expected hr (by simp) (by simp) (by cases opened <;> rfl)
        fun piece hn => atOperand_eq_error hn hw hq hm)
  · intro source rest hu
    exact h.symm.trans (Frame.readOn_of_unclosed hr (next_of_quotedText_unclosed hu) rfl)

/-- Within parentheses no rule may start. -/
theorem step_item_of_isHead {top : Opened} {operand : Expression} (h : token.isHead = true) :
    Body.step ⟨top :: opened, level, .item minuend operand true⟩ true token =
      .error (.expectedClosing "')'") := by
  cases token with
  | symbol name head =>
    obtain rfl : head = true := h
    cases minuend <;> rfl
  | _ => cases h

section Nested

variable {nested : Descent Unit Expression} {start : Scanner}

theorem group_ends (hnested : ∀ s, s.left < start.left → ReadsExpression nested s)
    (hs : s.left ≤ start.left) (hf : start.left < fuel) (hr : lexicon.Rests s.rest)
    (hn : Next s ⟨.opening, ['('], rest⟩)
    (h : frame.readOn ⟨opened, level, .operand minuend⟩ s = result) :
    Ends (group nested fuel) s () (fun operand after _ => after.left < s.left ∧
      frame.readOn ⟨opened, level, .item minuend operand false⟩ after = result)
      (Faults frame result) := by
  refine .bind (bump_ends hn) ?_
  rintro _ _ _ - rfl
  have hlt := hn.left_lt
  refine .bind (hnested _ (by omega)
    (Frame.readOn_of_partly hr hn .opening h)) ?_
  rintro _ here _ ho ⟨inner, minuend', operand, hr, hend, rfl, hread⟩
  have hle := ho.left_le
  refine .bind (gap_within Frame.isFree_item (by omega) hread) ?_
  rintro _ after _ - ⟨-, -, hstay⟩
  obtain rfl := hstay hr
  have hclose : Ends (require [[')']] (.expectedClosing "')'")) after ()
      (fun _ last _ => last.left < s.left ∧ frame.readOn ⟨opened, level, .item minuend
        (inner.close (endItem minuend' operand)).parenthesized false⟩ last = result)
      (Faults frame result) := by
    refine requireMark_ends .closing rfl (fun rest hn => ?_) fun hl => ?_
    · have := hn.left_lt
      exact ⟨by omega, Frame.readOn_of_partly hr hn .closing hread⟩
    · refine hread.symm.trans (Frame.readOn_eq_expected hr (by simp) (by simp) rfl
        fun piece hn => ?_)
      have hh := (hend piece hn).resolve_left (hl piece hn)
      exact step_item_of_isHead hh
  exact .bind hclose fun _ _ _ _ h => .pure h

theorem unmarked_ends (hnested : ∀ s, s.left < start.left → ReadsExpression nested s)
    (hs : s.left ≤ start.left) (hf : start.left < fuel) (hr : lexicon.Rests s.rest)
    (h : frame.readOn ⟨opened, level, .operand minuend⟩ s = result) :
    Ends (unmarked nested fuel) s () (fun operand after _ => after.left < s.left ∧
      frame.readOn ⟨opened, level, .item minuend operand false⟩ after = result)
      (Faults frame result) := by
  refine .scanner ?_
  split
  · next hc =>
    obtain ⟨rest, hs'⟩ := List.head?_eq_some_iff.1 hc
    exact group_ends hnested hs hf hr (next_of_spelling rfl hs') h
  · next hc =>
    obtain ⟨rest, hs'⟩ := List.head?_eq_some_iff.1 hc
    have hn : Next s ⟨.characterSet, ['['], rest⟩ := next_of_ofMark rfl rfl hs'
    exact .fail (h.symm.trans (Frame.readOn_of_fault hr hn (by simp) (by simp) rfl))
  · next hc =>
    obtain ⟨rest, hs'⟩ := List.head?_eq_some_iff.1 hc
    have hn : Next s ⟨.characterSet, ['#'], rest⟩ := next_of_ofMark rfl rfl hs'
    exact .fail (h.symm.trans (Frame.readOn_of_fault hr hn (by simp) (by simp) rfl))
  · next hparen hbracket hhash =>
    refine leaf_ends hr (fun c hc hm => ?_) h
    simp only [List.mem_cons, List.not_mem_nil, or_false] at hm
    rcases hm with rfl | rfl | rfl
    · exact hparen hc
    · exact hbracket hc
    · exact hhash hc

theorem operand_ends (hnested : ∀ s, s.left < start.left → ReadsExpression nested s)
    (hs : s.left ≤ start.left) (hf : start.left < fuel)
    (h : frame.readOn ⟨opened, level, .operand minuend⟩ s = result) :
    Ends (operand nested fuel) s () (fun operand after _ => after.left < s.left ∧
      frame.readOn ⟨opened, level, .item minuend operand true⟩ after = result)
      (Faults frame result) := by
  refine .bind (gap_within Frame.isFree_operand (by omega) h) ?_
  rintro _ here _ ho ⟨hr, hread, -⟩
  have := ho.left_le
  refine .bind (unmarked_ends hnested (by omega) hf hr hread) ?_
  rintro operand here' _ - ⟨hlt, hread⟩
  refine (suffix_ends hread).imp (fun operand after _ ho h => ⟨?_, h⟩) fun _ hd => hd
  have := ho.left_le
  omega

theorem item_ends (hnested : ∀ s, s.left < start.left → ReadsExpression nested s)
    (hs : s.left ≤ start.left) (hf : start.left < fuel)
    (h : frame.readOn ⟨opened, level, .operand none⟩ s = result) :
    Ends (item nested fuel) s () (fun e after _ => ∃ minuend operand, after.left < s.left ∧
      lexicon.Rests after.rest ∧ (minuend = none → Lacks after .minus) ∧
        e = endItem minuend operand ∧
          frame.readOn ⟨opened, level, .item minuend operand true⟩ after = result)
      (Faults frame result) := by
  refine .bind (operand_ends hnested hs hf h) ?_
  rintro first here _ ho ⟨hlt, hread⟩
  refine .bind (gap_within Frame.isFree_item (by omega) hread) ?_
  rintro _ here' _ ho' ⟨hr, hread, -⟩
  have := ho'.left_le
  refine .ifEatOne ?_ fun hl => ?_
  · simp only [List.mem_singleton, forall_eq]
    intro rest hs'
    have hn : Next here' ⟨.minus, ['-'], rest⟩ := next_of_spelling rfl hs'
    have := hn.left_lt
    refine .bind (operand_ends hnested (by omega) hf
      (Frame.readOn_of_partly hr hn .minus hread)) ?_
    rintro second here'' _ - ⟨hlt', hread⟩
    refine .bind (gap_within Frame.isFree_item (by omega) hread) ?_
    rintro _ after _ ho'' ⟨hr, hread, -⟩
    have := ho''.left_le
    exact .pure ⟨some first, second, by omega, hr, by simp, rfl, hread⟩
  · exact .pure ⟨none, first, by omega, hr, fun _ => lacks_of_spelling rfl (hl _ (by simp)), rfl,
      hread⟩

/-! ## Expressions -/

theorem close_eq (arms items : List Expression) (item : Expression) :
    Level.close ⟨arms.reverse, items.reverse⟩ item =
      .choice (arms ++ [.sequence (items ++ [item])]) := by
  simp [Level.close, Level.endArm]

theorem expressionRound_ends {arms items : List Expression}
    (hnested : ∀ s, s.left < start.left → ReadsExpression nested s)
    (hs : s.left ≤ start.left) (hf : start.left < fuel)
    (h : frame.readOn ⟨opened, ⟨arms.reverse, items.reverse⟩, .operand none⟩ s = result) :
    Ends (expressionRound nested fuel (arms, items)) s ()
      (fun r after _ => r.Holds
        (fun next => after.left < s.left ∧
          frame.readOn ⟨opened, ⟨next.1.reverse, next.2.reverse⟩, .operand none⟩ after = result)
        fun e => ∃ level minuend operand, lexicon.Rests after.rest ∧
          (∀ piece, Next after piece → piece.token = .closing ∨ piece.token.isHead = true) ∧
            e = level.close (endItem minuend operand) ∧
              frame.readOn ⟨opened, level, .item minuend operand true⟩ after = result)
      (Faults frame result) := by
  refine .bind (item_ends hnested hs hf h) ?_
  rintro _ here _ ho ⟨minuend, operand, hlt, hr, hminus, rfl, hread⟩
  refine .scanner ?_
  split
  · next hc =>
    refine .pure ⟨_, minuend, operand, hr, fun piece hn => ?_, (close_eq _ _ _).symm, hread⟩
    obtain ⟨c, more, hs', -⟩ := hn
    rw [hs'] at hc
    cases hc
  · next hc =>
    obtain ⟨rest, hs'⟩ := List.head?_eq_some_iff.1 hc
    have hn : Next here ⟨.closing, [')'], rest⟩ := next_of_spelling rfl hs'
    refine .pure ⟨_, minuend, operand, hr, fun piece hp => .inl ?_, (close_eq _ _ _).symm, hread⟩
    rw [hp.unique hn]
  · next hc =>
    obtain ⟨rest, hs'⟩ := List.head?_eq_some_iff.1 hc
    have hn : Next here ⟨.bar, ['|'], rest⟩ := next_of_spelling rfl hs'
    have := hn.left_lt
    refine .bind (bump_ends hn) ?_
    rintro _ _ _ - rfl
    have hnext := Frame.readOn_of_partly hr hn .bar hread
    exact .pure ⟨by omega, by simpa [Level.endArm] using hnext⟩
  · next c hclosing hbar hc =>
    have hlacks {token : Token} {d : Char} (ht : token.spelling? = some [d])
        (hd : c ≠ d) : Lacks here token := by
      refine lacks_of_spelling ht ?_
      rintro ⟨more, hm⟩
      rw [← hm] at hc
      exact hd (Option.some.inj hc).symm
    refine .bind (atRuleStart_ends (by omega)) ?_
    rintro b after _ - ⟨rfl, hb⟩
    cases b with
    | true =>
      exact .pure ⟨_, minuend, operand, hr, fun piece hp => .inr (hp.isHead_iff.2 (hb.1 rfl)),
        (close_eq _ _ _).symm, hread⟩
    | false =>
      have hne : after.rest ≠ [] := fun he => by simp [he] at hc
      have hhead (piece : Piece Token) (hp : Next after piece) : piece.token.isHead = false :=
        Bool.eq_false_iff.2 fun hh => absurd (hb.2 (hp.isHead_iff.1 hh)) Bool.false_ne_true
      have hnext := (Frame.readOn_of_next_item hr hne hminus (hlacks rfl hbar) (hlacks rfl hclosing)
        hhead).symm.trans hread
      exact .pure ⟨hlt, by simpa [Level.addItem] using hnext⟩

theorem expressionWith_ends (hnested : ∀ s, s.left < start.left → ReadsExpression nested s)
    (hs : s.left ≤ start.left) (hf : start.left < fuel) :
    ReadsExpression (expressionWith nested fuel) s := by
  intro α frame opened result h
  refine .loop (fun before here _ => here.left ≤ start.left ∧
    frame.readOn ⟨opened, ⟨before.1.reverse, before.2.reverse⟩, .operand none⟩ here = result) ?_
    ⟨hs, h⟩ (by omega)
  rintro ⟨arms, items⟩ here _ ⟨hs, hread⟩
  refine (expressionRound_ends hnested hs hf hread).imp (fun r after _ _ hr => ?_) fun _ hd => hd
  cases r with
  | again next => exact ⟨hr.1, by have := hr.1; omega, hr.2⟩
  | leave e => exact hr

end Nested

theorem expression_ends (hf : s.left < fuel) : ReadsExpression (expression fuel) s := by
  induction fuel generalizing s with
  | zero => omega
  | succ fuel ih =>
    have hnested (s' : Scanner) (hs' : s'.left < s.left) :
        ReadsExpression (beyond s (expression fuel)) s' := by
      intro α frame opened result h
      exact .beyond hs' (ih (by omega) h)
    intro α frame opened result h
    exact .scanner (expressionWith_ends hnested (Nat.le_refl _) hf h)

end Reading

/-! ## Rules -/

section Rules

variable {rules : List Rule} {token : Token} {result : Except Diagnostic Grammar}

theorem step_named_eq_error {rule : RuleContext} {here : Position} (h : token ≠ .defining) :
    State.step ⟨rules, .named rule⟩ ⟨[], true, here, token⟩ = .error .expectedDefining := by
  cases token with
  | defining => exact absurd rfl h
  | _ => rfl

theorem step_between_eq_error {here : Position} (h : ∀ name head, token ≠ .symbol name head) :
    State.step ⟨rules, .between⟩ ⟨[], true, here, token⟩ = .error .expectedSymbol := by
  cases token with
  | symbol name head => exact absurd rfl (h name head)
  | _ => rfl

theorem ruleBody_ends {rule : RuleContext} (hf : s.left < fuel)
    (h : State.readOn State.finish ⟨rules, .named rule⟩ s = result) :
    Ends (ruleBody fuel rule) s ()
      (fun next after _ => State.readOn State.finish ⟨next :: rules, .between⟩ after = result)
      (fun d => result = .error (d.inRule rule)) := by
  have hgap : Ends (gap fuel) s () (fun _ after _ => lexicon.Rests after.rest ∧
      State.readOn State.finish ⟨rules, .named rule⟩ after = result ∧
        (lexicon.Rests s.rest → after = s))
      (fun d => result = .error (d.inRule rule)) := by
    refine (gap_reads (fun _ _ _ _ => rfl) hf h).imp (fun _ _ _ _ hg => hg) ?_
    rintro _ ⟨rfl, h⟩
    exact h
  refine .bind hgap ?_
  rintro _ here _ ho ⟨hr, hread, -⟩
  have := ho.left_le
  have hdefining : Ends (require [[':', ':', '=']] .expectedDefining) here ()
      (fun _ after _ => (Frame.ofRule rules rule).readOn ⟨[], {}, .operand none⟩ after = result)
      (Faults (.ofRule rules rule) result) := by
    refine requireMark_ends .defining rfl (fun rest hn => ?_) fun hl => ?_
    · exact (State.readOn_of_step hr hn rfl).symm.trans hread
    · exact hread.symm.trans (State.readOn_eq_expected hr (by simp) rfl rfl (fun _ => rfl)
        fun piece hn => step_named_eq_error (hl piece hn))
  refine .bind hdefining ?_
  rintro _ here' _ ho' hread
  have := ho'.left_le
  refine .bind (expression_ends (by omega) hread) ?_
  rintro _ after _ - ⟨level, minuend, operand, hr, hend, rfl, hread⟩
  exact .pure ((Frame.readOn_of_last hr hend).symm.trans hread)

theorem rule_ends (hf : s.left < fuel) (hr : lexicon.Rests s.rest) (hne : s.rest ≠ [])
    (h : State.readOn State.finish ⟨rules, .between⟩ s = result) :
    Ends (rule fuel) s () (fun next after _ => after.left < s.left ∧
      State.readOn State.finish ⟨next :: rules, .between⟩ after = result)
      (fun d => result = .error d) := by
  refine .scanner (.read (word_isSplitOf _) ?_ (fun hw => .fail ?_) (by simp [word]))
  · intro name source rest hw
    have hn := next_of_word hw
    have hnext : State.readOn State.finish ⟨rules, .named ⟨name, s.position.line⟩⟩
        (s.pass source rest) = result := (State.readOn_of_step hr hn rfl).symm.trans h
    have := hn.left_lt
    refine .inRule ((ruleBody_ends (by omega) hnext).imp ?_ fun _ hd => hd)
    rintro next after _ ho hread
    have := ho.left_le
    exact ⟨by omega, hread⟩
  · exact h.symm.trans (State.readOn_eq_expected hr (by simp) rfl rfl (fun he => absurd he hne)
      fun piece hn => step_between_eq_error fun name head => lacks_symbol hw piece hn)

theorem grammarRound_ends {rules : List Rule} (hf : s.left < fuel)
    (h : State.readOn State.finish ⟨rules.reverse, .between⟩ s = result) :
    Ends (grammarRound fuel rules) s () (fun r after _ => r.Holds
      (fun next => after.left < s.left ∧
        State.readOn State.finish ⟨next.reverse, .between⟩ after = result)
      fun grammar => result = .ok grammar ∧ after.rest = [])
      (fun d => result = .error d) := by
  have hgap : Ends (gap fuel) s () (fun _ after _ => lexicon.Rests after.rest ∧
      State.readOn State.finish ⟨rules.reverse, .between⟩ after = result ∧
        (lexicon.Rests s.rest → after = s))
      (fun d => result = .error d) := by
    refine (gap_reads (fun _ _ _ _ => rfl) hf h).imp (fun _ _ _ _ hg => hg) ?_
    rintro _ ⟨rfl, h⟩
    exact h
  refine .bind hgap ?_
  rintro _ here _ ho ⟨hr, hread, -⟩
  have := ho.left_le
  refine .scanner ?_
  split
  · next he =>
    have hend : here.rest = [] := by simpa [Scanner.isAtEnd] using he
    have hfinish : State.finish ⟨rules.reverse, .between⟩ = some ⟨rules⟩ := by
      rw [State.finish, List.reverse_reverse]
    rw [State.readOn_of_end hend, hfinish] at hread
    exact .pure ⟨hread.symm, hend⟩
  · next he =>
    have hne : here.rest ≠ [] := by simpa [Scanner.isAtEnd] using he
    refine .bind (rule_ends (by omega) hr hne hread) ?_
    rintro next after _ - ⟨hlt, hread⟩
    exact .pure ⟨by omega, by simpa using hread⟩

/-- With more fuel than there are bytes left, the descent comes to what is read from the state
before the first rule. If that is a grammar, it has passed the whole text. -/
theorem grammar_ends (hf : s.left < fuel)
    (h : State.readOn State.finish ⟨[], .between⟩ s = result) :
    Ends (grammar fuel) s () (fun grammar after _ => result = .ok grammar ∧ after.rest = [])
      (fun d => result = .error d) := by
  refine .loop (fun rules here _ => here.left < fuel ∧
    State.readOn State.finish ⟨rules.reverse, .between⟩ here = result) ?_ ⟨hf, h⟩ hf
  rintro rules here _ ⟨hf, hread⟩
  refine (grammarRound_ends hf hread).imp (fun r after _ _ hr => ?_) fun _ hd => hd
  cases r with
  | again next => exact ⟨hr.1, by have := hr.1; omega, hr.2⟩
  | leave grammar => exact hr

end Rules

end GrammarText.W3c.Descend
