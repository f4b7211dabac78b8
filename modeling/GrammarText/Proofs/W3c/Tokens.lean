import GrammarText.Proofs.Lexis.Continuation
import GrammarText.Proofs.Lexis.Run
import GrammarText.Proofs.Lexis.Spelling
import GrammarText.W3c.Reader

/-!
# W3C grammars from tokens

Up to the lines of its rules, a grammar depends only on the tokens that the text spells, and on
which marks for repetition are glued to what they follow.
-/

namespace GrammarText.W3c

/-! ## Ways to read a token -/

/-- The ways to read a token that starts with a given character. -/
inductive Token.Reads (c : Char) (more : List Char) : Piece Token → Prop where
  | symbol {name : String} {source rest : List Char}
      (h : word (c :: more) = .found name source rest) :
      Reads c more ⟨.symbol name false, source, rest⟩
  | literal {text : String} {source rest : List Char}
      (h : quotedText (c :: more) = .found text source rest) :
      Reads c more ⟨.literal text, source, rest⟩
  | unclosed {source rest : List Char} : Reads c more ⟨.unclosed, source, rest⟩
  | mark {piece : Piece Token} (ha : c.isAlpha = false) (hq : isQuote c = false)
      (h : ofMark c more = piece) : Reads c more piece

theorem Token.reads {c : Char} {more : List Char} {piece : Piece Token}
    (h : read c more = piece) : Reads c more piece := by
  subst h
  unfold read
  cases hw : word (c :: more) with
  | found => exact .symbol hw
  | unclosed => exact .unclosed
  | absent =>
    cases hq : quotedText (c :: more) with
    | found => exact .literal hq
    | unclosed => exact .unclosed
    | absent => exact .mark (word_cons_eq_absent_iff.1 hw) (quotedText_cons_eq_absent_iff.1 hq) rfl

namespace Token

variable {c : Char} {more source rest : List Char}

theorem read_of_word {name : String} (h : word (c :: more) = .found name source rest) :
    read c more = ⟨.symbol name false, source, rest⟩ := by
  simp [read, h, Recognition.toPiece?]

theorem read_of_quotedText {text : String} (ha : c.isAlpha = false)
    (h : quotedText (c :: more) = .found text source rest) :
    read c more = ⟨.literal text, source, rest⟩ := by
  simp [read, word_cons_eq_absent_iff.2 ha, h, Recognition.toPiece?]

theorem read_eq_ofMark (ha : c.isAlpha = false) (hq : isQuote c = false) :
    read c more = ofMark c more := by
  simp [read, word_cons_eq_absent_iff.2 ha, quotedText_cons_eq_absent_iff.2 hq,
    Recognition.toPiece?]

theorem word_of_read {name : String} (h : read c more = ⟨.symbol name false, source, rest⟩) :
    word (c :: more) = .found name source rest := by
  cases reads h with
  | symbol hw => exact hw
  | mark _ _ hm => unfold ofMark at hm; split at hm <;> cases hm

end Token

/-! ## What a text spells -/

/-- The token as it is read: a mark for repetition after a gap is as good as a stray character. -/
def Token.seen : Bool → Token → Token
  | false, .suffix _ => .other ' '
  | _, token => token

/-- The entries that a text spells in the W3C notation. -/
abbrev SpellsEntries : Bool → List Char → List (Entry Token) → Prop :=
  lexicon.Spells Token.seen

/-- The tokens that a text spells. The first argument says that no gap comes before the text. -/
def Spells (glued : Bool) (text : List Char) (tokens : List Token) : Prop :=
  ∃ entries, SpellsEntries glued text entries ∧ entries.filterMap Entry.token? = tokens

namespace Spells

variable {glued : Bool} {c : Char} {more source rest : List Char} {tokens : List Token}

theorem nil : Spells glued [] [] := ⟨[], .nil, rfl⟩

theorem blank (hc : isBlank c = true) (h : Spells false more tokens) :
    Spells glued (c :: more) tokens := by
  obtain ⟨entries, hs, rfl⟩ := h
  exact ⟨entries, .blank hc hs, rfl⟩

theorem token {token : Token} (hc : isBlank c = false) (hr : blockComment (c :: more) = .absent)
    (ht : Token.read c more = ⟨token, source, rest⟩) (h : Spells true rest tokens) :
    Spells glued (c :: more) (token.seen glued :: tokens) := by
  obtain ⟨entries, hs, rfl⟩ := h
  exact ⟨_, .token hc hr ht hs, rfl⟩

end Spells

/-- What holds of every token that can be read holds of the tokens of a text. -/
theorem SpellsEntries.forall_token {p : Token → Prop}
    (hread : ∀ c more token source rest, Token.read c more = ⟨token, source, rest⟩ → p token)
    (hseen : ∀ glued token, p token → p (token.seen glued)) {glued : Bool} {text : List Char}
    {entries : List (Entry Token)} (h : SpellsEntries glued text entries) :
    ∀ token ∈ entries.filterMap Entry.token?, p token := by
  induction h with
  | nil => simp
  | blank _ _ ih => exact ih
  | comment _ _ _ ih => exact ih
  | token _ _ ht _ ih => exact List.forall_mem_cons.2 ⟨hseen _ _ (hread _ _ _ _ _ ht), ih⟩

/-! ## Heads of rules -/

/-- Marks the words that the defining mark follows. -/
def headed : List Token → List Token
  | .symbol name _ :: next :: more => .symbol name (next == .defining) :: headed (next :: more)
  | token :: more => token :: headed more
  | [] => []

theorem Token.seen_eq_self {token : Token} (ht : ∀ occurrence, token ≠ .suffix occurrence)
    (glued : Bool) : token.seen glued = token := by
  cases glued with
  | true => rfl
  | false =>
    cases token with
    | suffix occurrence => exact absurd rfl (ht occurrence)
    | _ => rfl

@[simp] theorem Token.seen_symbol (glued : Bool) (name : String) (head : Bool) :
    (Token.symbol name head).seen glued = .symbol name head :=
  seen_eq_self (by simp) glued

theorem Token.seen_eq_symbol_iff {glued : Bool} {token : Token} {name : String} {head : Bool} :
    token.seen glued = .symbol name head ↔ token = .symbol name head := by
  cases glued <;> cases token <;> simp [seen]

/-! Nothing that is read is a head before it is marked. -/

theorem Token.read_ne_head {c : Char} {more source rest : List Char} {token : Token}
    (h : read c more = ⟨token, source, rest⟩) (name : String) : token ≠ .symbol name true := by
  cases reads h with
  | mark _ _ h => unfold ofMark at h; split at h <;> cases h <;> simp
  | _ => simp

theorem SpellsEntries.not_mem_head {glued : Bool} {text : List Char} {entries : List (Entry Token)}
    (h : SpellsEntries glued text entries) (name : String) :
    .symbol name true ∉ entries.filterMap Entry.token? := by
  have hseen (g : Bool) (token : Token) (ht : token ≠ .symbol name true) :
      token.seen g ≠ .symbol name true := fun hs => ht (Token.seen_eq_symbol_iff.1 hs)
  exact fun hm => forall_token (fun _ _ _ _ _ ht => Token.read_ne_head ht name) hseen h _ hm rfl

theorem Token.seen_beq_defining (glued : Bool) (token : Token) :
    (token.seen glued == .defining) = (token == .defining) := by
  cases glued <;> cases token <;> rfl

theorem headed_cons {token : Token} (ht : ∀ name head, token ≠ .symbol name head)
    (more : List Token) : headed (token :: more) = token :: headed more := by
  cases token with
  | symbol name head => exact absurd rfl (ht name head)
  | _ => simp [headed]

theorem headed_symbol {name : String} (tokens : List Token) :
    headed (.symbol name false :: tokens) =
      .symbol name (tokens.head? == some .defining) :: headed tokens := by
  cases tokens <;> rfl

theorem head?_headed_beq (tokens : List Token) :
    ((headed tokens).head? == some .defining) = (tokens.head? == some .defining) := by
  fun_cases headed tokens <;> rfl

theorem mem_headed_iff {token : Token} (ht : ∀ name head, token ≠ .symbol name head)
    {tokens : List Token} : token ∈ headed tokens ↔ token ∈ tokens := by
  fun_induction headed tokens with
  | case1 name head next tokens ih =>
    rw [List.mem_cons, List.mem_cons, ih]
    simp [ht]
  | case2 other tokens _ ih => rw [List.mem_cons, List.mem_cons, ih]
  | case3 => rfl

/-- What can be told of a lexeme without a look at its mark is as before. -/
theorem map_markHeads_of {α : Type} {f : Lexeme Token → α}
    (hf : ∀ lexeme name head marked, lexeme.token = .symbol name head →
      f { lexeme with token := .symbol name marked } = f lexeme) (lexemes : List (Lexeme Token)) :
    (markHeads lexemes).map f = lexemes.map f := by
  fun_induction markHeads lexemes with
  | case1 => rfl
  | case2 lexeme name head next more ht ih => rw [List.map_cons, ih, hf _ _ _ _ ht]; rfl
  | case3 lexeme more hn ih => rw [List.map_cons, ih]; rfl

theorem map_start_markHeads (lexemes : List (Lexeme Token)) :
    (markHeads lexemes).map Lexeme.start = lexemes.map Lexeme.start :=
  map_markHeads_of (fun _ _ _ _ _ => rfl) lexemes

theorem length_markHeads (lexemes : List (Lexeme Token)) :
    (markHeads lexemes).length = lexemes.length := by
  simpa using congrArg List.length (map_start_markHeads lexemes)

theorem markHeads_cons {lexeme : Lexeme Token} (ht : ∀ name head, lexeme.token ≠ .symbol name head)
    (more : List (Lexeme Token)) : markHeads (lexeme :: more) = lexeme :: markHeads more := by
  rw [markHeads]
  exact fun name head _ _ h _ => ht name head h

theorem markHeads_symbol {lexeme : Lexeme Token} {name : String} {head : Bool}
    (ht : lexeme.token = .symbol name head) (next : Lexeme Token) (more : List (Lexeme Token)) :
    markHeads (lexeme :: next :: more) =
      { lexeme with token := .symbol name (next.token == .defining) } ::
        markHeads (next :: more) := by
  obtain ⟨comments, glued, start, token⟩ := lexeme
  cases ht
  rfl

/-- As long as no defining mark comes next, the words before it are not marked. -/
theorem markHeads_append {lexemes more : List (Lexeme Token)}
    (hl : ∀ lexeme ∈ lexemes, ∀ name, lexeme.token ≠ .symbol name true)
    (hm : ∀ lexeme ∈ more.head?, lexeme.token ≠ .defining) :
    markHeads (lexemes ++ more) = markHeads lexemes ++ markHeads more := by
  induction lexemes with
  | nil => rfl
  | cons lexeme lexemes ih =>
    obtain ⟨hn, hl⟩ := List.forall_mem_cons.1 hl
    by_cases hs : ∃ name head, lexeme.token = .symbol name head
    · obtain ⟨name, head, ht⟩ := hs
      cases lexemes with
      | cons next lexemes =>
        rw [List.cons_append, List.cons_append, markHeads_symbol ht, markHeads_symbol ht,
          List.cons_append, ← ih hl, List.cons_append]
      | nil =>
        cases more with
        | nil => simp [markHeads]
        | cons next more =>
          have hd : (next.token == .defining) = false := beq_eq_false_iff_ne.2 (hm next rfl)
          obtain rfl : head = false := by
            cases head with
            | false => rfl
            | true => exact absurd ht (hn name)
          rw [List.singleton_append, markHeads_symbol ht, hd, ← ht]
          simp [markHeads]
    · have ht : ∀ name head, lexeme.token ≠ .symbol name head := fun n h e => hs ⟨n, h, e⟩
      rw [List.cons_append, markHeads_cons ht, markHeads_cons ht, ih hl, List.cons_append]

theorem map_markHeads (lexemes : List (Lexeme Token)) :
    (markHeads lexemes).map (fun lexeme => lexeme.token.seen lexeme.glued) =
      headed (lexemes.map fun lexeme => lexeme.token.seen lexeme.glued) := by
  fun_induction markHeads lexemes with
  | case1 => rfl
  | case2 lexeme name head next more ht ih =>
    simp only [List.map_cons, ht, Token.seen_symbol] at ih ⊢
    rw [headed, Token.seen_beq_defining, ih]
  | case3 lexeme more hn ih =>
    rw [List.map_cons, ih, List.map_cons]
    cases more with
    | nil =>
      cases lexeme.token.seen lexeme.glued <;> rfl
    | cons next more =>
      refine (headed_cons ?_ _).symm
      intro name head h
      exact hn name head next more (Token.seen_eq_symbol_iff.1 h) rfl

theorem headed_symbol_cons {name : String} {more : List Token}
    (hm : more.head? ≠ some .defining) :
    headed (.symbol name false :: more) = .symbol name false :: headed more := by
  rw [headed_symbol, beq_eq_false_iff_ne.2 hm]

/-- As long as no defining mark comes next, the words before it are not heads. -/
theorem headed_append {tokens more : List Token} (ht : ∀ name, .symbol name true ∉ tokens)
    (hm : more.head? ≠ some .defining) : headed (tokens ++ more) = headed tokens ++ headed more := by
  induction tokens with
  | nil => rfl
  | cons token tokens ih =>
    have ih := ih fun name hn => ht name (List.mem_cons_of_mem _ hn)
    by_cases hs : ∃ name head, token = .symbol name head
    · obtain ⟨name, head, rfl⟩ := hs
      cases tokens with
      | cons next tokens => simpa [headed] using ih
      | nil =>
        cases head with
        | true => exact absurd (by simp) (ht name)
        | false => exact headed_symbol_cons hm
    · have hn : ∀ name head, token ≠ .symbol name head := fun name head h => hs ⟨name, head, h⟩
      rw [List.cons_append, headed_cons hn, headed_cons hn, ih, List.cons_append]

theorem headed_of_not_mem {tokens : List Token} (hd : .defining ∉ tokens)
    (ht : ∀ name, .symbol name true ∉ tokens) : headed tokens = tokens := by
  induction tokens with
  | nil => rfl
  | cons token tokens ih =>
    have ih := ih (fun h => hd (List.mem_cons_of_mem _ h)) fun n h => ht n (List.mem_cons_of_mem _ h)
    cases token with
    | symbol name head =>
      cases head with
      | true => exact absurd (by simp) (ht name)
      | false =>
        rw [headed_symbol_cons, ih]
        intro h
        exact hd (List.mem_cons_of_mem _ (List.mem_of_head? h))
    | _ => rw [headed_cons (by simp), ih]

/-! ## Lines -/

/-- The rule, as if it stood on the first line. -/
def Rule.onLineOne (rule : Rule) : Rule := { rule with line := 1 }

/-- The grammar, as if all its rules stood on the first line. -/
def Grammar.onLineOne (grammar : Grammar) : Grammar := ⟨grammar.rules.map Rule.onLineOne⟩

def Place.onLineOne : Place → Place
  | .between => .between
  | .named rule => .named { rule with line := 1 }
  | .within rule body => .within { rule with line := 1 } body

def State.onLineOne (state : State) : State :=
  ⟨state.rules.map Rule.onLineOne, state.place.onLineOne⟩

/-! ## Reading tokens -/

/-- Only a glued mark for repetition is one. -/
theorem Body.step_seen (body : Body) (glued : Bool) (token : Token) :
    body.step true (token.seen glued) = body.step glued token := by
  obtain ⟨opened, level, minuend | ⟨minuend, operand, marked⟩⟩ := body
  · cases glued <;> cases token <;> rfl
  · cases glued with
    | true => rfl
    | false => cases token <;> cases minuend <;> rfl

namespace State

/-- The state after one more token. -/
def feed (state : State) (token : Token) : Except Fault State :=
  state.step ⟨[], true, .start, token⟩

theorem feed_onLineOne (state : State) (lexeme : Lexeme Token) :
    state.onLineOne.feed (lexeme.token.seen lexeme.glued) = (state.step lexeme).map onLineOne := by
  obtain ⟨rules, place⟩ := state
  obtain ⟨_, glued, start, token⟩ := lexeme
  cases place with
  | between => cases glued <;> cases token <;> rfl
  | named rule => cases glued <;> cases token <;> rfl
  | within rule body =>
    simp only [onLineOne, Place.onLineOne, feed, step, Body.step_seen]
    rcases body.step glued token with fault | body | expression
    · rfl
    · rfl
    · cases glued <;> cases token <;> rfl

theorem finish_onLineOne (state : State) :
    state.onLineOne.finish = state.finish.map Grammar.onLineOne := by
  obtain ⟨rules, place⟩ := state
  cases place with
  | between => simp [finish, onLineOne, Place.onLineOne, Grammar.onLineOne]
  | named rule => rfl
  | within rule body =>
    simp only [finish, onLineOne, Place.onLineOne]
    cases body.finish <;> simp [Grammar.onLineOne, Rule.onLineOne]

end State

/-- The grammar with the given tokens. -/
def Grammar.ofTokens (tokens : List Token) : Except Fault Grammar := do
  let state ← (headed tokens).foldlM State.feed ⟨[], .between⟩
  match state.finish with
  | some grammar => .ok grammar
  | none => .error .unexpectedEnd

/-- What comes of the given entries: a grammar up to its lines, or a fault. -/
def Grammar.outcome (t : Transcript Token) : Except Fault Grammar := do
  let state ← (headed t.tokens).foldlM State.feed ⟨[], .between⟩
  match if t.closed then state.finish else none with
  | some grammar => .ok grammar
  | none => .error .unexpectedEnd

section Parse

variable {text : String} {tokens : List Token} {grammar : Grammar}

theorem Grammar.ofTokens_eq_ok_iff :
    Grammar.ofTokens tokens = .ok grammar ↔
      ∃ state, (headed tokens).foldlM State.feed ⟨[], .between⟩ = .ok state ∧
        state.finish = some grammar := by
  unfold ofTokens
  cases (headed tokens).foldlM State.feed ⟨[], .between⟩ with
  | error fault => simp
  | ok state => cases hf : state.finish <;> simp [hf]

theorem State.feed_advance_onLineOne (stop : Position) (state : State) (lexeme : Lexeme Token) :
    state.onLineOne.feed (lexeme.token.seen lexeme.glued) =
      ((reader.advance stop state lexeme).map onLineOne).mapError Diagnostic.fault := by
  rw [feed_onLineOne]
  simp only [Reader.advance, reader]
  cases state.step lexeme <;> rfl

/-- Up to places, what is read from a text depends only on its tokens. -/
theorem outcome_parse (text : String) : Grammar.outcome
      (lexicon.transcript (fun glued _ token => token.seen glued) true .start text.toList) =
    ((Grammar.parse text).mapError Diagnostic.fault).map Grammar.onLineOne := by
  have hfold := foldlM_map_eq_mapError
    (State.feed_advance_onLineOne (lexicon.read text.toList).stop)
    (markHeads (lexicon.read text.toList).lexemes) reader.initial
  rw [map_markHeads] at hfold
  change (headed _).foldlM State.feed ⟨[], .between⟩ = _ at hfold
  rw [Grammar.outcome, Lexicon.tokens_transcript, Lexicon.closed_transcript, ← Lexicon.read, hfold,
    Grammar.parse, Reader.run]
  simp only [lexemes]
  cases (markHeads (lexicon.read text.toList).lexemes).foldlM
      (reader.advance (lexicon.read text.toList).stop) reader.initial with
  | error d => rfl
  | ok state =>
    simp only [Except.map, mapError_ok, ok_bind, State.finish_onLineOne, Reader.conclude]
    cases (lexicon.read text.toList).trailing with
    | none => rfl
    | some comments =>
      simp only [reader, Option.bind_some, Option.isSome_some, if_pos]
      cases state.finish <;> rfl

/-- Up to lines, what is read from a text are its tokens. -/
theorem map_onLineOne_parse (h : Spells true text.toList tokens) :
    ((Grammar.parse text).mapError Diagnostic.fault).map Grammar.onLineOne =
      Grammar.ofTokens tokens := by
  obtain ⟨entries, hs, rfl⟩ := h
  rw [← outcome_parse, Lexicon.spells_iff_transcript.1 hs]
  rfl

theorem exists_parse_of_spells (hs : Spells true text.toList tokens)
    (h : Grammar.ofTokens tokens = .ok grammar) :
    ∃ read, Grammar.parse text = .ok read ∧ read.onLineOne = grammar := by
  rw [← map_onLineOne_parse hs] at h
  exact map_mapError_eq_ok_iff.1 h

theorem exists_spells_of_parse (h : Grammar.parse text = .ok grammar) :
    ∃ tokens, Spells true text.toList tokens ∧
      Grammar.ofTokens tokens = .ok grammar.onLineOne := by
  obtain ⟨_, comments, -, ht, -⟩ := reader.exists_state_of_run h
  obtain ⟨entries, he⟩ := Lexicon.exists_spells_of_trailing Token.seen ht
  have hs : Spells true text.toList (entries.filterMap Entry.token?) := ⟨entries, he, rfl⟩
  refine ⟨_, hs, ?_⟩
  rw [← map_onLineOne_parse hs, h]
  rfl

end Parse

end GrammarText.W3c
