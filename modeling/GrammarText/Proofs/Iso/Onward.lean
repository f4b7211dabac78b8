import GrammarText.Proofs.Iso.Tokenization
import GrammarText.Proofs.Lexis.Onward

/-!
# Reading on in an ISO grammar

What is left of a text is read on from a state. A gap can be passed before, and a token leads to the
state that its step leads to.
-/

namespace GrammarText.Iso

/-- Reads on where the scanner stands. -/
def State.readOn (state : State) (s : Scanner) : Except Diagnostic Grammar :=
  reader.runOn (lexicon.readFrom s.position s.rest) state

theorem Grammar.parse_eq_readOn (text : String) :
    Grammar.parse text = reader.initial.readOn (.ofText text) := rfl

/-- The token that comes next, with the text that it takes. -/
def Next (s : Scanner) (piece : Piece Token) : Prop :=
  ∃ c more, s.rest = c :: more ∧ Token.read c more = piece

/-- The token does not come next. -/
def Lacks (s : Scanner) (token : Token) : Prop := ∀ piece, Next s piece → piece.token ≠ token

section

variable {state state' next : State} {s : Scanner} {g : Gap} {piece : Piece Token} {fault : Fault}
  {token : Token} {source rest : List Char} {rules : List Rule} {pending : List String}
  {place : Place}

theorem Next.rest_eq (h : Next s piece) : s.rest = piece.source ++ piece.rest := by
  obtain ⟨c, more, hs, rfl⟩ := h
  rw [hs]
  exact (Token.read_isSplitOf c more).1

theorem Next.source_ne_nil (h : Next s piece) : piece.source ≠ [] := by
  obtain ⟨c, more, -, rfl⟩ := h
  exact (Token.read_isSplitOf c more).2

theorem Next.left_lt (h : Next s ⟨token, source, rest⟩) :
    (s.pass source rest).left < s.left :=
  (Scanner.Passes.pass h.rest_eq).left_lt h.source_ne_nil

/-! ## Gaps -/

namespace State

theorem readOn_of_gap_eq_none (h : lexicon.gap s.rest = none) :
    state.readOn s = .error { s.unterminated with rule := state.rule? } := by
  rw [readOn, Lexicon.readFrom_of_gap_eq_none h]
  rfl

theorem step_of_pending (lexeme : Lexeme Token) (glued : Bool) :
    step ⟨rules, pending, place⟩ lexeme =
      step ⟨rules, pending ++ lexeme.comments, place⟩ ⟨[], glued, lexeme.start, lexeme.token⟩ := by
  simp only [step, List.append_nil]

/-- The comments of a gap wait. -/
theorem readOn_of_gap (h : lexicon.gap s.rest = some g) :
    readOn ⟨rules, pending, place⟩ s =
      readOn ⟨rules, pending ++ g.comments, place⟩ (s.pass g.source g.rest) := by
  have hrests := Lexicon.rests_of_gap h
  rw [readOn, readOn]
  cases hr : g.rest with
  | nil =>
    have hf := finish_pending ⟨rules, pending, place⟩ g.comments
    rw [Lexicon.readFrom_of_nil h hr, Scanner.pass, Lexicon.readFrom_nil]
    simp only [Reader.runOn, Reader.conclude, List.foldlM_nil, pure_bind, reader,
      Option.bind_some, hf]
    rfl
  | cons c more =>
    rw [hr] at hrests
    rw [Lexicon.readFrom_of_gap h hr rfl, Scanner.pass, Lexicon.readFrom_of_rests hrests rfl]
    exact reader.runOn_cons_congr (step_of_pending _ _) rfl fun _ _ => rfl

/-! ## Tokens -/

theorem readOn_of_step (hr : lexicon.Rests s.rest) (hn : Next s ⟨token, source, rest⟩)
    (h : state.step ⟨[], true, s.position, token⟩ = .ok next) :
    state.readOn s = next.readOn (s.pass source rest) := by
  obtain ⟨c, more, hs, ht⟩ := hn
  rw [hs] at hr
  have ht : lexicon.token c more = ⟨token, source, rest⟩ := ht
  rw [readOn, hs, Lexicon.readFrom_of_rests hr ht, reader.runOn_cons_of_ok h]
  rfl

theorem readOn_of_fault (hr : lexicon.Rests s.rest) (hn : Next s piece)
    (h : state.step ⟨[], true, s.position, piece.token⟩ = .error fault) :
    state.readOn s = .error ⟨fault,
      if fault = .unexpectedEnd then s.position.advance s.rest else s.position,
      state.rule?⟩ := by
  have hstop := lexicon.readFrom_stop s.position s.rest
  obtain ⟨c, more, hs, rfl⟩ := hn
  rw [hs] at hr hstop ⊢
  have ht : lexicon.token c more = Token.read c more := rfl
  rw [Lexicon.readFrom_of_rests hr ht] at hstop
  rw [readOn, hs, Lexicon.readFrom_of_rests hr ht, reader.runOn_cons_of_error h, ← hstop]
  rfl

/-- At the end of the text a grammar must be whole. -/
theorem readOn_of_end (hr : s.rest = []) : state.readOn s =
    match state.finish [] with
    | some grammar => .ok grammar
    | none => .error { s.diagnose .unexpectedEnd with rule := state.rule? } := by
  have hf : (some []).bind (reader.finish state) = state.finish [] := rfl
  rw [readOn, hr, Lexicon.readFrom_nil, Reader.runOn, List.foldlM_nil, pure_bind, Reader.conclude,
    hf]
  cases state.finish [] <;> rfl

/-- Where whatever comes next is a fault, so is the end of the text. -/
theorem readOn_eq_expected (hr : lexicon.Rests s.rest) (hf : fault ≠ .unexpectedEnd)
    (he : s.rest = [] → state.finish [] = none)
    (h : ∀ piece, Next s piece →
      state.step ⟨[], true, s.position, piece.token⟩ = .error fault) :
    state.readOn s = .error { s.expected fault with rule := state.rule? } := by
  cases hs : s.rest with
  | nil =>
    rw [readOn_of_end hs, he hs]
    simp [Scanner.expected, Scanner.isAtEnd, hs]
  | cons c more =>
    have hn : Next s (Token.read c more) := ⟨c, more, hs, rfl⟩
    rw [readOn_of_fault hr hn (h _ hn), if_neg hf]
    simp [Scanner.expected, Scanner.isAtEnd, hs, Scanner.diagnose]

end State

end

/-! ## Marks -/

/-- The token is one of the marks. -/
def Token.isMark : Token → Bool
  | .opening _ | .closing _ | .defining | .separator | .comma | .minus | .star | .terminator => true
  | _ => false

section Marks

variable {s : Scanner} {piece : Piece Token} {token : Token} {mark rest : List Char}
  {marks : List (List Char)}

theorem Token.spelled_of_ofMark {c : Char} {more source : List Char}
    (h : ofMark c more = ⟨token, source, rest⟩) (hm : token.isMark = true) :
    (source, token) ∈ spellings := by
  unfold ofMark at h
  split at h <;> cases h <;> first | decide | cases hm

theorem Next.spelled (h : Next s piece) (hm : piece.token.isMark = true) :
    (piece.source, piece.token) ∈ spellings := by
  obtain ⟨c, more, -, ht⟩ := h
  cases Token.reads ht with
  | mark _ _ _ _ hp => exact Token.spelled_of_ofMark hp hm
  | _ => cases hm

/-- Where a mark comes next it is read, unless it may be a part of a longer one. -/
theorem next_of_mark (hm : (mark, token) ∈ spellings) (hparen : mark ≠ ['('])
    (hslash : mark ≠ ['/']) (hs : s.rest = mark ++ rest) : Next s ⟨token, mark, rest⟩ := by
  simp only [spellings, List.mem_cons, Prod.mk.injEq, List.not_mem_nil, or_false] at hm
  rcases hm with ⟨rfl, rfl⟩ | ⟨rfl, rfl⟩ | ⟨rfl, rfl⟩ | ⟨rfl, rfl⟩ | ⟨rfl, rfl⟩ | ⟨rfl, rfl⟩ |
    ⟨rfl, rfl⟩ | ⟨rfl, rfl⟩ | ⟨rfl, rfl⟩ | ⟨rfl, rfl⟩ | ⟨rfl, rfl⟩ | ⟨rfl, rfl⟩ | ⟨rfl, rfl⟩ |
    ⟨rfl, rfl⟩ | ⟨rfl, rfl⟩ | ⟨rfl, rfl⟩ | ⟨rfl, rfl⟩ | ⟨rfl, rfl⟩ | ⟨rfl, rfl⟩ <;>
    first | exact ⟨_, _, hs, rfl⟩ | exact absurd rfl hparen | exact absurd rfl hslash

/-- The token is spelled by the marks in the list and by no others, and where one of them comes next
it is read. -/
structure Token.SpelledBy (token : Token) (marks : List (List Char)) : Prop where
  isMark : token.isMark = true
  spells : ∀ mark ∈ marks, (mark, token) ∈ spellings ∧ mark ≠ ['('] ∧ mark ≠ ['/']
  complete : ∀ spelling ∈ spellings, spelling.2 = token → spelling.1 ∈ marks

theorem Token.SpelledBy.next (ht : token.SpelledBy marks) (hm : mark ∈ marks)
    (hs : s.rest = mark ++ rest) : Next s ⟨token, mark, rest⟩ :=
  let ⟨hspells, hparen, hslash⟩ := ht.spells mark hm
  next_of_mark hspells hparen hslash hs

theorem Token.SpelledBy.lacks (ht : token.SpelledBy marks)
    (hn : ∀ mark ∈ marks, ¬ mark <+: s.rest) : Lacks s token := by
  rintro piece h rfl
  exact hn _ (ht.complete _ (h.spelled ht.isMark) rfl) ⟨piece.rest, h.rest_eq.symm⟩

end Marks

/-! ## Other tokens -/

section Tokens

variable {s : Scanner} {piece : Piece Token} {value : String} {source rest : List Char} {n : Nat}

theorem next_of_metaName (h : metaName s.rest = .found value source rest) :
    Next s ⟨.name value, source, rest⟩ := by
  obtain ⟨c, tail, -, -, -, -, rfl, hs⟩ := metaName_eq_found_iff.1 h
  rw [hs] at h
  exact ⟨c, tail ++ rest, hs, Token.read_of_metaName h⟩

theorem next_of_decimal (h : decimal s.rest = .found n source rest) :
    Next s ⟨.count n, source, rest⟩ := by
  obtain ⟨-, hne, hd, -, hs⟩ := decimal_eq_found_iff.1 h
  obtain ⟨c, tail, rfl⟩ := List.exists_cons_of_ne_nil hne
  rw [hs] at h
  exact ⟨c, tail ++ rest, hs,
    Token.read_of_decimal (isLetter_of_isDigit (hd c List.mem_cons_self)) h⟩

theorem next_of_quotedText (h : quotedText s.rest = .found value source rest) :
    Next s ⟨.terminal value, source, rest⟩ := by
  obtain ⟨c, more, hs, hq⟩ := exists_quote_of_quotedText (h ▸ by simp : quotedText s.rest ≠ .absent)
  have hl : isLetter c = false := eq_false_of_class (isQuote_of_class rfl rfl) hq
  have hd : c.isDigit = false := eq_false_of_class (isQuote_of_class rfl rfl) hq
  rw [hs] at h
  exact ⟨c, more, hs, Token.read_of_quotedText hl hd h⟩

theorem next_of_quotedText_unclosed (h : quotedText s.rest = .unclosed source rest) :
    Next s ⟨.unclosed, source ++ rest, []⟩ := by
  obtain ⟨c, more, hs, hq⟩ := exists_quote_of_quotedText (h ▸ by simp : quotedText s.rest ≠ .absent)
  have hl : isLetter c = false := eq_false_of_class (isQuote_of_class rfl rfl) hq
  have hd : c.isDigit = false := eq_false_of_class (isQuote_of_class rfl rfl) hq
  rw [hs] at h
  exact ⟨c, more, hs, by
    simp [Token.read, metaName_cons_eq_absent hl, decimal_cons_eq_absent hd, h,
      Recognition.toPiece?]⟩

theorem exists_mark_of_specialSequence {text : List Char} (h : specialSequence text ≠ .absent) :
    ∃ more, text = '?' :: more := by
  cases text with
  | nil => exact absurd rfl h
  | cons c more =>
    obtain rfl : c = '?' := by simpa using h
    exact ⟨more, rfl⟩

theorem next_of_specialSequence (h : specialSequence s.rest = .found value source rest) :
    Next s ⟨.special value, source, rest⟩ := by
  obtain ⟨more, hs⟩ := exists_mark_of_specialSequence
    (h ▸ by simp : specialSequence s.rest ≠ .absent)
  rw [hs] at h
  exact ⟨'?', more, hs, Token.read_of_specialSequence rfl rfl rfl h⟩

theorem next_of_specialSequence_unclosed (h : specialSequence s.rest = .unclosed source rest) :
    Next s ⟨.unclosed, source ++ rest, []⟩ := by
  obtain ⟨more, hs⟩ := exists_mark_of_specialSequence
    (h ▸ by simp : specialSequence s.rest ≠ .absent)
  rw [hs] at h
  have hl : isLetter '?' = false := rfl
  have hd : '?'.isDigit = false := rfl
  have hq : quotedText ('?' :: more) = .absent := quotedText_cons_eq_absent_iff.2 rfl
  exact ⟨'?', more, hs, by
    simp [Token.read, metaName_cons_eq_absent hl, decimal_cons_eq_absent hd, hq, h,
      Recognition.toPiece?]⟩

theorem lacks_count (h : decimal s.rest = .absent) : Lacks s (.count n) := by
  rintro piece ⟨c, more, hs, ht⟩ hc
  rw [hs] at h
  cases Token.reads ht with
  | count hd => rw [h] at hd; cases hd
  | mark _ _ _ _ hm =>
    subst hm
    unfold Token.ofMark at hc
    split at hc <;> cases hc
  | _ => cases hc

theorem lacks_name (h : metaName s.rest = .absent) : Lacks s (.name value) := by
  rintro piece ⟨c, more, hs, ht⟩ hc
  rw [hs] at h
  cases Token.reads ht with
  | name hm => rw [h] at hm; cases hm
  | mark _ _ _ _ hm =>
    subst hm
    unfold Token.ofMark at hc
    split at hc <;> cases hc
  | _ => cases hc

/-- Where no construct that is a primary is found, no token comes next that is one. -/
theorem Next.leaf?_eq_none (hn : Next s piece) (hm : metaName s.rest = .absent)
    (hq : quotedText s.rest = .absent) (hs : specialSequence s.rest = .absent) :
    piece.token.leaf? = none ∧ piece.token ≠ .unclosed := by
  obtain ⟨c, more, hr, rfl⟩ := hn
  rw [hr] at hm hq hs
  have hl := metaName_cons_eq_absent_iff.1 hm
  by_cases hd : c.isDigit = true
  · rw [Token.read_of_decimal hl (decimal_cons hd more)]
    exact ⟨rfl, by simp⟩
  · rw [Token.read_eq_ofMark hl (by simpa using hd) (quotedText_cons_eq_absent_iff.1 hq)
      (specialSequence_cons_eq_absent_iff.1 hs)]
    unfold Token.ofMark
    split <;> exact ⟨rfl, by simp⟩

end Tokens

/-! ## Right sides of rules -/

/-- What stands before the right side of a rule: the rules before it, and its own name, line and
comments. -/
structure Frame where
  rules : List Rule
  rule : RuleContext
  comments : List String

namespace Frame

/-- Reads on within the right side of the rule. -/
def readOn (frame : Frame) (body : Body) (pending : List String) (s : Scanner) :
    Except Diagnostic Grammar :=
  State.readOn ⟨frame.rules, pending, .within frame.rule frame.comments body⟩ s

variable {frame : Frame} {body body' next : Body} {pending pending' left : List String}
  {s : Scanner} {piece : Piece Token} {token : Token} {source rest : List Char} {fault : Fault}
  {definitions : DefinitionsList} {result : Except Diagnostic Grammar}

theorem readOn_of_partly (hr : lexicon.Rests s.rest) (hn : Next s ⟨token, source, rest⟩)
    (hs : Body.Step body pending token left (.partly next))
    (h : frame.readOn body pending s = result) :
    frame.readOn next left (s.pass source rest) = result := by
  refine (State.readOn_of_step hr hn ?_).symm.trans h
  simp only [State.step, List.append_nil, hs.step_eq]

theorem readOn_of_whole (hr : lexicon.Rests s.rest) (hn : Next s ⟨token, source, rest⟩)
    (hs : Body.Step body pending token left (.whole definitions))
    (h : frame.readOn body pending s = result) :
    State.readOn ⟨⟨frame.rule.name, frame.rule.line, frame.comments, definitions⟩ :: frame.rules,
      left, .between⟩ (s.pass source rest) = result := by
  refine (State.readOn_of_step hr hn ?_).symm.trans h
  simp only [State.step, List.append_nil, hs.step_eq]

theorem readOn_of_fault (hr : lexicon.Rests s.rest) (hn : Next s piece)
    (hf : fault ≠ .unexpectedEnd) (h : body.step pending piece.token = .error fault) :
    frame.readOn body pending s = .error ((s.diagnose fault).inRule frame.rule) := by
  have hstep : State.step ⟨frame.rules, pending, .within frame.rule frame.comments body⟩
      ⟨[], true, s.position, piece.token⟩ = .error fault := by
    simp only [State.step, List.append_nil, h]
  rw [readOn, State.readOn_of_fault hr hn hstep, if_neg hf]
  rfl

theorem readOn_of_unclosed (hr : lexicon.Rests s.rest) (hn : Next s piece)
    (h : body.step pending piece.token = .error .unexpectedEnd) :
    frame.readOn body pending s = .error (s.unterminated.inRule frame.rule) := by
  have hstep : State.step ⟨frame.rules, pending, .within frame.rule frame.comments body⟩
      ⟨[], true, s.position, piece.token⟩ = .error .unexpectedEnd := by
    simp only [State.step, List.append_nil, h]
  exact State.readOn_of_fault hr hn hstep

theorem readOn_eq_expected (hr : lexicon.Rests s.rest) (hf : fault ≠ .unexpectedEnd)
    (h : ∀ piece, Next s piece → body.step pending piece.token = .error fault) :
    frame.readOn body pending s = .error ((s.expected fault).inRule frame.rule) := by
  refine State.readOn_eq_expected hr hf (fun _ => rfl) fun piece hn => ?_
  simp only [State.step, List.append_nil, h piece hn]

/-- Two states that do the same with whatever comes next read on alike. -/
theorem readOn_congr (hr : lexicon.Rests s.rest)
    (h : ∀ piece, Next s piece → body.step pending piece.token = body'.step pending' piece.token) :
    frame.readOn body pending s = frame.readOn body' pending' s := by
  cases hs : s.rest with
  | nil =>
    rw [readOn, readOn, State.readOn_of_end hs, State.readOn_of_end hs]
    rfl
  | cons c more =>
    have hstep := h _ ⟨c, more, hs, rfl⟩
    rw [hs] at hr
    have ht : lexicon.token c more = Token.read c more := rfl
    rw [readOn, readOn, State.readOn, State.readOn, hs, Lexicon.readFrom_of_rests hr ht]
    refine reader.runOn_cons_congr ?_ rfl fun _ _ => rfl
    simp only [reader, State.step, List.append_nil, hstep]

end Frame

end GrammarText.Iso
