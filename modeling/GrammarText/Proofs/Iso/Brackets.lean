import GrammarText.Proofs.Iso.Prefix

/-!
# Spellings of brackets

A bracket can be written in the other of its two spellings whatever stands between it and its
counterpart. What opens or closes is one token, and where a text before the closing bracket runs into
one of its spellings, it is refused with the other one as well.
-/

namespace GrammarText.Iso

/-! ## Reading by lines -/

/-- What is listed of a token: its line and what it is. -/
def lined (_ : Bool) (start : Position) (token : Token) : Nat × Token := (start.line, token)

/-- The state after one more comment, or token on its line. -/
def State.feedLined (state : State) : Entry (Nat × Token) → Except Fault State
  | .comment body => .ok { state with pending := state.pending ++ [body] }
  | .token (line, token) => state.step ⟨[], false, ⟨0, line⟩, token⟩

theorem State.feedLined_map (stop : Position) (state : State)
    (entry : Entry (Position × Token)) :
    feedLined (id state) (entry.map fun value => (value.1.line, value.2)) =
      ((readEntry stop state entry).map id).mapError Diagnostic.fault := by
  cases entry with
  | comment body => rfl
  | token value =>
    have hs : state.step ⟨[], false, ⟨0, value.1.line⟩, value.2⟩ =
        state.step ⟨[], false, value.1, value.2⟩ := by
      obtain ⟨rules, pending, place⟩ := state
      obtain ⟨start, token⟩ := value
      cases place with
      | between => cases token <;> rfl
      | named => cases token <;> rfl
      | within => rfl
    rw [Entry.map, id, feedLined, hs]
    simp only [readEntry, Reader.advance, reader]
    cases state.step ⟨[], false, value.1, value.2⟩ <;> rfl

/-- Of the places of the tokens only the lines count for a grammar. -/
theorem Grammar.parse_eq_ok_iff {text : String} {grammar : Grammar} :
    parse text = .ok grammar ↔ (lexicon.transcript lined true .start text.toList).closed = true ∧
      ∃ state, (lexicon.transcript lined true .start text.toList).entries.foldlM State.feedLined
          reader.initial = .ok state ∧ state.finish [] = some grammar := by
  have ht : lexicon.transcript lined true .start text.toList =
      (transcript text.toList).map fun value => (value.1.line, value.2) := by
    rw [transcript, Lexicon.map_transcript]
    rfl
  have hfold := foldlM_map_eq_mapError
    (State.feedLined_map (Position.start.advance text.toList)) (transcript text.toList).entries
    reader.initial
  simp only [ht, Transcript.map]
  rw [parse_eq_ofTranscript]
  constructor
  · intro h
    obtain ⟨hc, state, hr, hf⟩ := exists_state_of_ofTranscript h
    rw [hr] at hfold
    exact ⟨hc, state, hfold, hf⟩
  · rintro ⟨hc, state, hr, hf⟩
    cases hs : (transcript text.toList).entries.foldlM
        (State.readEntry (Position.start.advance text.toList)) reader.initial with
    | error d => rw [hs] at hfold; cases hfold.symm.trans hr
    | ok last =>
      rw [hs] at hfold
      cases hfold.symm.trans hr
      rw [ofTranscript, hs, ok_bind, hc, if_pos rfl]
      exact reader.conclude_eq_ok_iff.2 ⟨[], rfl, hf⟩

theorem State.ne_unclosed_of_feedLined {state next : State} {line : Nat} {token : Token}
    (h : state.feedLined (.token (line, token)) = .ok next) : token ≠ .unclosed :=
  Token.ne_unclosed_of_role (heads_step h).ne_unclosed

theorem transcript_congr_line {glued : Bool} {place place' : Position} {text : List Char}
    (h : place.line = place'.line) :
    lexicon.transcript lined glued place text = lexicon.transcript lined glued place' text := by
  have hadvance {place place' : Position} (h : place.line = place'.line) (source : List Char) :
      (place.advance source).line = (place'.advance source).line :=
    congrArg (· + lineFeeds source) h
  fun_induction lexicon.transcript lined glued place text generalizing place' with
  | case1 => rw [Lexicon.transcript_nil]
  | case2 glued place c more hc ih => rw [Lexicon.transcript_blank hc, ih (hadvance h _)]
  | case3 glued place c more hc body source rest hr ih =>
    rw [Lexicon.transcript_comment (by simpa using hc) hr, ih (hadvance h _)]
  | case4 glued place c more hc source rest hr =>
    rw [Lexicon.transcript_unclosed (by simpa using hc) hr]
  | case5 glued place c more hc hr piece =>
    rename_i ih
    have ht : lexicon.token c more = ⟨piece.token, piece.source, piece.rest⟩ := rfl
    rw [Lexicon.transcript_token (by simpa using hc) hr ht, ih (hadvance h _), lined, lined, h]

/-! ## The end of the rule -/

/-- A closing bracket with two spellings, in one of them, and the end of the rule behind it. -/
inductive Ending : Bracket → List Char → Prop where
  | square : Ending .optional [']', ' ', ';']
  | slash : Ending .optional ['/', ')', ' ', ';']
  | curly : Ending .repeated ['\x7d', ' ', ';']
  | colon : Ending .repeated [':', ')', ' ', ';']

namespace Ending

variable {bracket : Bracket} {ending : List Char} {glued : Bool} {place : Position}

theorem of_mem {mark : List Char} (hb : bracket ≠ .grouped)
    (h : (mark, .closing bracket) ∈ spellings) : Ending bracket (mark ++ [' ', ';']) := by
  simp only [spellings, List.mem_cons, Prod.mk.injEq, reduceCtorEq, and_false,
    Token.closing.injEq, List.not_mem_nil, or_self, or_false, false_or] at h
  rcases h with ⟨rfl, rfl⟩ | ⟨rfl, rfl⟩ | ⟨rfl, rfl⟩ | ⟨rfl, rfl⟩ | ⟨rfl, rfl⟩
  · exact .slash
  · exact .colon
  · exact .square
  · exact .curly
  · exact absurd rfl hb

theorem exists_cons (h : Ending bracket ending) : ∃ d more, ending = d :: more ∧
    continuesName d = false ∧ d.isDigit = false ∧ d ≠ ')' ∧ d ≠ '*' := by
  cases h <;> exact ⟨_, _, rfl, rfl, rfl, by simp, by simp⟩

/-- No construct that has begun before it ends in the ending. -/
theorem not_mem (h : Ending bracket ending) :
    ∀ d ∈ ending, d ≠ '*' ∧ d ≠ '?' ∧ isQuote d = false := by
  cases h <;> simp <;> decide

theorem read_eq (h : Ending bracket ending) : ∃ c more source, ending = c :: more ∧
    isBlank c = false ∧ comment (c :: more) = .absent ∧
      Token.read c more = ⟨.closing bracket, source, [' ', ';']⟩ ∧ lineFeeds source = 0 := by
  cases h <;> exact ⟨_, _, _, rfl, rfl, rfl, rfl, rfl⟩

theorem transcript_eq (h : Ending bracket ending) :
    lexicon.transcript lined glued place ending =
      ⟨[.token (place.line, .closing bracket), .token (place.line, .terminator)], true⟩ := by
  obtain ⟨c, more, source, rfl, hb, hc, ht, hl⟩ := h.read_eq
  have hterminator : Token.read ';' [] = ⟨.terminator, [';'], []⟩ := rfl
  have hline : ((place.advance source).advance [' ']).line = place.line := by
    rw [Position.advance, Position.advance, hl]
    rfl
  rw [Lexicon.transcript_token hb hc ht, Lexicon.transcript_blank rfl,
    Lexicon.transcript_token rfl rfl hterminator, Lexicon.transcript_nil, lined, lined, hline]
  rfl

end Ending

/-! ## Parentheses -/

section Parentheses

variable {c : Char} {more source rest : List Char} {token : Token}

/-- Of the marks of two characters those that a parenthesis does not open it closes. -/
theorem Token.ofMark_source (h : ofMark c more = ⟨token, source, rest⟩) :
    ∃ tail, source = c :: tail ∧ tail.length ≤ 1 ∧ (c = '(' ∨ ∀ d ∈ tail, d = ')') := by
  unfold ofMark at h
  split at h <;> cases h <;> exact ⟨_, rfl, by simp, by simp⟩

/-- No longer token ends with a parenthesis that opens. -/
theorem Token.source_eq_paren (h : read c more = ⟨token, source, rest⟩) (hu : token ≠ .unclosed)
    (hl : source.getLast? = some '(') : source = ['('] := by
  have hm := List.mem_of_getLast? hl
  cases reads h with
  | name hn =>
    obtain ⟨c, tail, hletter, ht, -, -, rfl, -⟩ := metaName_eq_found_iff.1 hn
    rcases List.mem_cons.1 hm with rfl | hm
    · cases hletter
    · cases ht '(' hm
  | count hd =>
    obtain ⟨-, -, hd, -⟩ := decimal_eq_found_iff.1 hd
    cases hd '(' hm
  | terminal hq =>
    obtain ⟨quote, hquote, hlast⟩ := getLast?_quotedText hq
    cases hl.symm.trans hlast
    cases hquote
  | special hs => cases hl.symm.trans (getLast?_specialSequence hs)
  | unclosed => exact absurd rfl hu
  | mark _ _ _ _ hm =>
    unfold ofMark at hm
    split at hm <;> cases hm <;> cases hl <;> rfl

end Parentheses

/-! ## Brackets of different kinds -/

/-- A bracket of one kind cannot be closed, right after it was opened, by one of another kind. -/
theorem State.foldlM_mismatched {bracket other : Bracket} (hb : bracket ≠ other) {m n : Nat}
    {more : List (Entry (Nat × Token))} {state last : State} :
    (.token (m, .opening bracket) :: .token (n, .closing other) :: more).foldlM feedLined state ≠
      .ok last := by
  intro h
  obtain ⟨next, ho, h⟩ := foldlM_cons_eq_ok_iff.1 h
  obtain ⟨_, hc, -⟩ := foldlM_cons_eq_ok_iff.1 h
  obtain ⟨rules, pending, place⟩ := state
  cases place with
  | between => cases ho
  | named => cases ho
  | within rule comments body =>
    obtain ⟨opened, level, slot⟩ := body
    cases slot with
    | factor | primary =>
      cases ho
      simp [feedLined, step, Body.step, Body.atPrimary, Body.afterTerm, hb.symm, Except.map] at hc
    | star => cases ho
    | term => cases ho

namespace Ending

variable {bracket : Bracket} {ending ending' : List Char} {glued : Bool} {place : Position}
  {c : Char} {more inner source rest : List Char} {token : Token}

/-- A parenthesis before a closing bracket opens a bracket that is closed by one of another kind. -/
theorem paren_mismatched (h : Ending bracket ending) {state last : State} :
    (lexicon.transcript lined glued place ('(' :: ending)).entries.foldlM State.feedLined state ≠
      .ok last := by
  obtain ⟨bracket, other, source, c, more, source', rest, hb, hr, ht, hblank, hr', ht'⟩ :
      ∃ bracket other source c more source' rest, bracket ≠ other ∧
        comment ('(' :: ending) = .absent ∧
        Token.read '(' ending = ⟨.opening bracket, source, c :: more⟩ ∧ isBlank c = false ∧
        comment (c :: more) = .absent ∧ Token.read c more = ⟨.closing other, source', rest⟩ := by
    cases h with
    | square => exact ⟨.grouped, .optional, _, _, _, _, _, by decide, rfl, rfl, rfl, rfl, rfl⟩
    | slash => exact ⟨.optional, .grouped, _, _, _, _, _, by decide, rfl, rfl, rfl, rfl, rfl⟩
    | curly => exact ⟨.grouped, .repeated, _, _, _, _, _, by decide, rfl, rfl, rfl, rfl, rfl⟩
    | colon => exact ⟨.repeated, .grouped, _, _, _, _, _, by decide, rfl, rfl, rfl, rfl, rfl⟩
  rw [Lexicon.transcript_token rfl hr ht, Lexicon.transcript_token hblank hr' ht']
  exact State.foldlM_mismatched hb

/-! ## Constructs before the ending -/

/-- A part at the start of a text lies within the first half of that text if it does not go on into
the second one. -/
theorem within_of_append (h : inner ++ ending = source ++ rest)
    (hexcess : ∀ excess, excess ≠ [] → source = inner ++ excess → excess <+: ending → False) :
    ∃ tail, inner = source ++ tail ∧ rest = tail ++ ending := by
  rcases List.append_eq_append_iff.1 h with ⟨excess, hs, he⟩ | ⟨tail, hi, hr⟩
  · by_cases hne : excess = []
    · subst hne
      exact ⟨[], by rw [hs, List.append_nil, List.append_nil], he.symm⟩
    · exact absurd ⟨rest, he.symm⟩ (hexcess excess hne hs)
  · exact ⟨tail, hi, hr⟩

theorem comment_within (h : Ending bracket ending) {body : String}
    (hr : comment (inner ++ ending) = .found body source rest) :
    ∃ tail, inner = source ++ tail ∧ rest = tail ++ ending := by
  refine within_of_append ((comment_isSplitOf _).of_found hr).1 fun excess hne hs hp => ?_
  obtain ⟨init, hi⟩ := isSuffix_of_comment hr
  have hreverse : ')' :: '*' :: init.reverse = excess.reverse ++ inner.reverse := by
    rw [← List.reverse_append, ← hs, ← hi, List.reverse_append]
    rfl
  have hstar : '*' ∉ excess := fun hm => (h.not_mem '*' (hp.subset hm)).1 rfl
  rw [← List.mem_reverse] at hstar
  match ho : excess.reverse with
  | [] => exact hne (List.reverse_eq_nil_iff.1 ho)
  | [last] =>
    -- The ending would start with the second half of the mark that closes the comment.
    rw [ho] at hreverse
    obtain ⟨rfl, -⟩ := List.cons.inj hreverse
    rw [List.reverse_eq_iff.1 ho] at hp
    obtain ⟨d, more, rfl, -, -, hd, -⟩ := h.exists_cons
    obtain ⟨_, he⟩ := hp
    cases he
    exact hd rfl
  | last :: next :: excess' =>
    rw [ho] at hreverse hstar
    obtain ⟨-, hnext⟩ := List.cons.inj hreverse
    obtain ⟨rfl, -⟩ := List.cons.inj hnext
    simp at hstar

/-- A token that has begun before the ending has also ended there, unless it is a parenthesis. -/
theorem token_within (h : Ending bracket ending)
    (hr : Token.read c (more ++ ending) = ⟨token, source, rest⟩) (hu : token ≠ .unclosed)
    (hp : c :: more ≠ ['(']) : ∃ tail, c :: more = source ++ tail ∧ rest = tail ++ ending := by
  have hsplit := (Token.read_isSplitOf c (more ++ ending)).1
  rw [hr, ← List.cons_append] at hsplit
  refine within_of_append hsplit fun excess hne hs hexcess => ?_
  obtain ⟨d, excess, rfl⟩ := List.exists_cons_of_ne_nil hne
  have hlast : source.getLast? = (d :: excess).getLast? := by
    rw [hs, List.getLast?_append_of_ne_nil _ hne]
  have hmem : d ∈ source := by rw [hs]; simp
  obtain ⟨e, ending, rfl, hname, hdigit, hparen, -⟩ := h.exists_cons
  obtain rfl : d = e := by obtain ⟨_, he⟩ := hexcess; cases he; rfl
  cases Token.reads hr with
  | name hn =>
    obtain ⟨c', tail, -, ht, -, -, he, -⟩ := metaName_eq_found_iff.1 hn
    rw [hs] at he
    cases he
    have := ht d (by simp)
    rw [hname] at this
    cases this
  | count hd =>
    obtain ⟨-, -, hd, -⟩ := decimal_eq_found_iff.1 hd
    have := hd d hmem
    rw [hdigit] at this
    cases this
  | terminal hq =>
    obtain ⟨quote, hquote, hl⟩ := getLast?_quotedText hq
    have hm := List.mem_of_getLast? (hlast.symm.trans hl)
    have := (h.not_mem quote (hexcess.subset hm)).2.2
    rw [hquote] at this
    cases this
  | special hq =>
    have hm := List.mem_of_getLast? (hlast.symm.trans (getLast?_specialSequence hq))
    exact (h.not_mem '?' (hexcess.subset hm)).2.1 rfl
  | unclosed => exact hu rfl
  | mark _ _ _ _ hm =>
    obtain ⟨tail, he, hl, ht⟩ := Token.ofMark_source hm
    obtain rfl : tail = more ++ d :: excess := List.cons.inj (he.symm.trans hs) |>.2
    obtain rfl : more = [] := by
      rw [List.length_append, List.length_cons] at hl
      exact List.eq_nil_of_length_eq_zero (by omega)
    rcases ht with rfl | ht
    · exact hp rfl
    · exact hparen (ht d (by simp))

/-- A comment is read in the same way before the other ending. -/
theorem comment_respell (h : Ending bracket ending) {body : String}
    (hr : comment (c :: (more ++ ending)) = .found body source rest) (ending' : List Char) :
    ∃ tail, c :: more = source ++ tail ∧ rest = tail ++ ending ∧ source ≠ [] ∧
      comment (c :: (more ++ ending')) = .found body source (tail ++ ending') := by
  rw [← List.cons_append] at hr
  obtain ⟨tail, hs, rfl⟩ := h.comment_within hr
  refine ⟨tail, hs, rfl, ((comment_isSplitOf _).of_found hr).2, ?_⟩
  rw [← List.cons_append, hs, List.append_assoc]
  exact comment_again hr (tail ++ ending')

theorem comment_absent_respell (h' : Ending bracket ending')
    (hr : comment (c :: (more ++ ending)) = .absent) :
    comment (c :: (more ++ ending')) = .absent := by
  rw [comment_cons_eq_absent_iff] at hr ⊢
  rintro ⟨rfl, hs⟩
  cases more with
  | nil =>
    obtain ⟨d, more, rfl, -, -, -, hd⟩ := h'.exists_cons
    cases hs
    exact hd rfl
  | cons => exact hr ⟨rfl, hs⟩

theorem apart (h : Ending bracket ending) (hp : source.getLast? ≠ some '(') :
    Apart source ending := by
  intro c hc
  have hne : c ≠ '(' := by
    rintro rfl
    exact hp hc
  cases h <;> rintro _ ⟨⟩ <;> simp [joins, hne]

/-- A token is read in the same way before the other ending. -/
theorem read_respell (h : Ending bracket ending) (h' : Ending bracket ending')
    (hr : Token.read c (more ++ ending) = ⟨token, source, rest⟩) (hu : token ≠ .unclosed)
    (hp : c :: more ≠ ['(']) : ∃ tail, c :: more = source ++ tail ∧ rest = tail ++ ending ∧
      Token.read c (more ++ ending') = ⟨token, source, tail ++ ending'⟩ := by
  obtain ⟨tail, hs, rfl⟩ := h.token_within hr hu hp
  refine ⟨tail, hs, rfl, ?_⟩
  obtain ⟨part, rfl, -⟩ := Token.source_eq hr
  obtain rfl : more = part ++ tail := (List.cons.inj hs).2
  rw [List.append_assoc] at hr ⊢
  cases hname : token.isName with
  | false =>
    refine Token.read_again hr hu hname ?_
    cases tail with
    | cons => exact .inl rfl
    | nil =>
      refine .inr (h'.apart fun hl => hp ?_)
      rw [List.append_nil]
      exact Token.source_eq_paren hr hu hl
  | true =>
    cases token with
    | name text =>
      obtain ⟨-, -, -, -, hstop, -⟩ := metaName_eq_found_iff.1 (Token.metaName_of_read hr)
      refine Token.read_name_again hr ?_
      cases tail with
      | cons => exact hstop
      | nil =>
        obtain ⟨d, more, rfl, hd, -⟩ := h'.exists_cons
        rintro _ ⟨⟩
        exact hd
    | _ => cases hname

end Ending

/-! ## Whole texts -/

section Texts

variable {bracket : Bracket} {ending ending' : List Char} {glued : Bool} {place : Position}
  {mark text inner : List Char} {state last : State}

/-- What is read before one ending is the same before the other. -/
theorem transcript_respell (h : Ending bracket ending) (h' : Ending bracket ending')
    (hc : (lexicon.transcript lined glued place (inner ++ ending)).closed = true)
    (hr : (lexicon.transcript lined glued place (inner ++ ending)).entries.foldlM State.feedLined
      state = .ok last) :
    lexicon.transcript lined glued place (inner ++ ending') =
      lexicon.transcript lined glued place (inner ++ ending) := by
  -- Both texts are cut at the same places, so the induction is on what is left before the ending.
  induction hn : inner.length using Nat.strong_induction_on generalizing inner glued place state with
  | _ n ih =>
    subst hn
    have hshorter {source tail : List Char} (hs : inner = source ++ tail) (hne : source ≠ []) :
        tail.length < inner.length := by
      have := List.length_pos_iff.2 hne
      rw [hs, List.length_append]
      omega
    cases inner with
    | nil => rw [List.nil_append, List.nil_append, h.transcript_eq, h'.transcript_eq]
    | cons c more =>
      rw [List.cons_append] at hc hr ⊢
      rw [List.cons_append]
      by_cases hb : isBlank c = true
      · rw [Lexicon.transcript_blank hb] at hc hr ⊢
        rw [Lexicon.transcript_blank hb]
        exact ih more.length (by simp) hc hr rfl
      rw [Bool.not_eq_true] at hb
      cases hcomment : comment (c :: (more ++ ending)) with
      | found body source rest =>
        obtain ⟨tail, hs, rfl, hne, hcomment'⟩ := h.comment_respell hcomment ending'
        rw [Lexicon.transcript_comment hb hcomment] at hc hr
        obtain ⟨next, -, hr⟩ := foldlM_cons_eq_ok_iff.1 hr
        rw [Lexicon.transcript_comment hb hcomment', Lexicon.transcript_comment hb hcomment,
          ih tail.length (hshorter hs hne) hc hr rfl]
      | unclosed source rest =>
        rw [Lexicon.transcript_unclosed hb hcomment] at hc
        cases hc
      | absent =>
        have hcomment' := h'.comment_absent_respell hcomment
        have hp : c :: more ≠ ['('] := by
          rintro ⟨⟩
          exact h.paren_mismatched hr
        cases ht : Token.read c (more ++ ending) with
        | mk token source rest =>
          have hne : source ≠ [] := by
            have := (Token.read_isSplitOf c (more ++ ending)).2
            rwa [ht] at this
          rw [Lexicon.transcript_token hb hcomment ht] at hc hr
          obtain ⟨next, hf, hr⟩ := foldlM_cons_eq_ok_iff.1 hr
          have hu : token ≠ .unclosed := State.ne_unclosed_of_feedLined hf
          obtain ⟨tail, hs, rfl, ht'⟩ := h.read_respell h' ht hu hp
          rw [Lexicon.transcript_token hb hcomment' ht', Lexicon.transcript_token hb hcomment ht,
            ih tail.length (hshorter hs hne) hc hr rfl]

theorem transcript_head : lexicon.transcript lined glued place ("a = ".toList ++ text) =
    (lexicon.transcript lined false (place.advance "a = ".toList) text).prepend
      [.token (place.line, .name "a"), .token (place.line, .defining)] := by
  have hname : Token.read 'a' (' ' :: '=' :: ' ' :: text) =
    ⟨.name "a", ['a', ' '], '=' :: ' ' :: text⟩ := rfl
  have hdefining : Token.read '=' (' ' :: text) = ⟨.defining, ['='], ' ' :: text⟩ := rfl
  change lexicon.transcript lined glued place ('a' :: ' ' :: '=' :: ' ' :: text) = _
  rw [Lexicon.transcript_token rfl rfl hname, Lexicon.transcript_token rfl rfl hdefining,
    Lexicon.transcript_blank rfl]
  rfl

/-- An opening bracket is the same token in each of its spellings. -/
theorem transcript_opening (hb : bracket ≠ .grouped) (hm : (mark, .opening bracket) ∈ spellings) :
    lexicon.transcript lined glued place (mark ++ text) =
      (lexicon.transcript lined true place text).prepend [.token (place.line, .opening bracket)] := by
  obtain ⟨c, more, rfl, hblank, hc, ht, hl⟩ : ∃ c more, mark = c :: more ∧ isBlank c = false ∧
      comment (c :: (more ++ text)) = .absent ∧
      Token.read c (more ++ text) = ⟨.opening bracket, mark, text⟩ ∧ lineFeeds mark = 0 := by
    simp only [spellings, List.mem_cons, Prod.mk.injEq, Token.opening.injEq, reduceCtorEq,
      and_false, List.not_mem_nil, or_self, or_false, false_or] at hm
    rcases hm with ⟨rfl, rfl⟩ | ⟨rfl, rfl⟩ | ⟨rfl, rfl⟩ | ⟨rfl, rfl⟩ | ⟨rfl, rfl⟩
    · exact ⟨_, _, rfl, rfl, rfl, rfl, rfl⟩
    · exact ⟨_, _, rfl, rfl, rfl, rfl, rfl⟩
    · exact ⟨_, _, rfl, rfl, rfl, rfl, rfl⟩
    · exact ⟨_, _, rfl, rfl, rfl, rfl, rfl⟩
    · exact absurd rfl hb
  have hline : (place.advance (c :: more)).line = place.line := by rw [Position.advance, hl]; rfl
  rw [List.cons_append, Lexicon.transcript_token hblank hc ht, transcript_congr_line hline]
  rfl

end Texts

namespace Grammar

variable {bracket : Bracket} {opening opening' closing closing' : String} {grammar : Grammar}

theorem parse_respell (hb : bracket ≠ .grouped)
    (ho : (opening.toList, .opening bracket) ∈ spellings)
    (ho' : (opening'.toList, .opening bracket) ∈ spellings)
    (hc : (closing.toList, .closing bracket) ∈ spellings)
    (hc' : (closing'.toList, .closing bracket) ∈ spellings) (inner : String)
    (h : parse ("a = " ++ opening ++ inner ++ closing ++ " ;") = .ok grammar) :
    parse ("a = " ++ opening' ++ inner ++ closing' ++ " ;") = .ok grammar := by
  have htranscript {o : String} (ho : (o.toList, .opening bracket) ∈ spellings) (c : String) :
      lexicon.transcript lined true .start ("a = " ++ o ++ inner ++ c ++ " ;").toList =
        (lexicon.transcript lined true (Position.start.advance "a = ".toList)
          (inner.toList ++ (c.toList ++ [' ', ';']))).prepend
            [.token (1, .name "a"), .token (1, .defining), .token (1, .opening bracket)] := by
    simp only [String.toList_append, List.append_assoc]
    rw [transcript_head, transcript_opening hb ho, Transcript.prepend_prepend]
    rfl
  rw [parse_eq_ok_iff, htranscript ho] at h
  rw [parse_eq_ok_iff, htranscript ho']
  obtain ⟨hclosed, state, hr, hf⟩ := h
  obtain ⟨_, -, hafter⟩ := foldlM_append_eq_ok_iff.1 hr
  rw [transcript_respell (.of_mem hb hc) (.of_mem hb hc') hclosed hafter]
  exact ⟨hclosed, state, hr, hf⟩

/-- Whatever stands between two brackets, they can be spelled in any way: either no spelling is read
as a grammar, or all are, and as the same. -/
theorem parse_bracketed_iff (ho : (opening.toList, .opening bracket) ∈ spellings)
    (ho' : (opening'.toList, .opening bracket) ∈ spellings)
    (hc : (closing.toList, .closing bracket) ∈ spellings)
    (hc' : (closing'.toList, .closing bracket) ∈ spellings) (inner : String) (grammar : Grammar) :
    parse ("a = " ++ opening ++ inner ++ closing ++ " ;") = .ok grammar ↔
      parse ("a = " ++ opening' ++ inner ++ closing' ++ " ;") = .ok grammar := by
  by_cases hb : bracket = .grouped
  · -- These brackets have one spelling.
    subst hb
    simp only [spellings, List.mem_cons, Prod.mk.injEq, reduceCtorEq, and_false, Token.opening.injEq,
      Token.closing.injEq, and_true, List.not_mem_nil, or_false, false_or] at ho ho' hc hc'
    rw [String.toList_inj.1 (ho.trans ho'.symm), String.toList_inj.1 (hc.trans hc'.symm)]
  · exact ⟨parse_respell hb ho ho' hc hc' inner, parse_respell hb ho' ho hc' hc inner⟩

def reopened : Grammar :=
  ⟨[⟨"a", 1, [],
      [[⟨.ofPrimary (.sequence .optional [[⟨.ofPrimary (.name "b"), none⟩]]), none⟩]]⟩,
    ⟨"c", 2, ["*/"], [[⟨.ofPrimary (.sequence .optional
      [[⟨.ofPrimary (.terminal ")"), none⟩], [⟨.ofPrimary .empty, none⟩]]), none⟩]]⟩], []⟩

theorem parse_reopened : parse ("a = " ++ "[" ++ "b/);\n(**/*)c=(/')'/" ++ "]" ++ " ;") =
    .ok reopened := by
  with_unfolding_all rfl

/-- The bracket is closed by the text between and opened again on another line, and a slash stands
before the closing bracket. -/
theorem parse_bracketed_reopened :
    (("[".toList, .opening .optional) ∈ spellings ∧ ("(/".toList, .opening .optional) ∈ spellings ∧
        ("]".toList, .closing .optional) ∈ spellings ∧
        ("/)".toList, .closing .optional) ∈ spellings) ∧
      parse ("a = " ++ "[" ++ "b/);\n(**/*)c=(/')'/" ++ "]" ++ " ;") = .ok reopened ∧
      parse ("a = " ++ "(/" ++ "b/);\n(**/*)c=(/')'/" ++ "/)" ++ " ;") = .ok reopened := by
  have ho : ("[".toList, .opening .optional) ∈ spellings := by decide
  have ho' : ("(/".toList, .opening .optional) ∈ spellings := by decide
  have hc : ("]".toList, .closing .optional) ∈ spellings := by decide
  have hc' : ("/)".toList, .closing .optional) ∈ spellings := by decide
  exact ⟨⟨ho, ho', hc, hc'⟩, parse_reopened,
    (parse_bracketed_iff ho ho' hc hc' _ reopened).1 parse_reopened⟩

end Grammar

end GrammarText.Iso
