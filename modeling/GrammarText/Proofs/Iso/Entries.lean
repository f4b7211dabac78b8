import GrammarText.Iso.Reader
import GrammarText.Proofs.Lexis.Location
import GrammarText.Proofs.Lexis.Spelling

/-!
# ISO grammars from entries

Up to the lines of its rules, a grammar depends only on the comments and tokens that the text
spells. `Grammar.ofEntries` reads them one at a time.
-/

namespace GrammarText.Iso

/-! ## What a text spells -/

/-- The entries that a text spells in the ISO notation, where gaps do not count. -/
def Spells (text : List Char) (entries : List (Entry Token)) : Prop :=
  lexicon.Spells (fun _ token => token) true text entries

namespace Spells

variable {c : Char} {text more source rest : List Char} {entries : List (Entry Token)}

theorem regardless {glued glued' : Bool}
    (h : lexicon.Spells (fun _ token => token) glued text entries) :
    lexicon.Spells (fun _ token => token) glued' text entries := by
  cases h with
  | nil => exact .nil
  | blank hc h => exact .blank hc h
  | comment hc hr h => exact .comment hc hr h
  | token hc hr ht h => exact .token hc hr ht h

theorem nil : Spells [] [] := Lexicon.Spells.nil

theorem blank (hc : isBlank c = true) (h : Spells more entries) : Spells (c :: more) entries :=
  Lexicon.Spells.blank hc (regardless h)

theorem comment {body : String} (hc : isBlank c = false)
    (hr : GrammarText.comment (c :: more) = .found body source rest) (h : Spells rest entries) :
    Spells (c :: more) (.comment body :: entries) :=
  Lexicon.Spells.comment hc hr (regardless h)

theorem token {token : Token} (hc : isBlank c = false)
    (hr : GrammarText.comment (c :: more) = .absent)
    (ht : Token.read c more = ⟨token, source, rest⟩) (h : Spells rest entries) :
    Spells (c :: more) (.token token :: entries) :=
  Lexicon.Spells.token hc hr ht h

end Spells

/-! ## Lines -/

/-- The rule, as if it stood on the first line. -/
def Rule.onLineOne (rule : Rule) : Rule := { rule with line := 1 }

/-- The grammar, as if all its rules stood on the first line. -/
def Grammar.onLineOne (grammar : Grammar) : Grammar :=
  { grammar with rules := grammar.rules.map Rule.onLineOne }

def Place.onLineOne : Place → Place
  | .between => .between
  | .named rule => .named { rule with line := 1 }
  | .within rule comments body => .within { rule with line := 1 } comments body

def State.onLineOne (state : State) : State :=
  ⟨state.rules.map Rule.onLineOne, state.pending, state.place.onLineOne⟩

/-! ## Reading entries in their places -/

/-- What is listed of a token: its place and what it is. A gap before it does not count. -/
def placed (_ : Bool) (start : Position) (token : Token) : Position × Token := (start, token)

/-- The comments and tokens of a text in their places. -/
def transcript (text : List Char) : Transcript (Position × Token) :=
  lexicon.transcript placed true .start text

namespace State

/-- The state after one more comment or token of a text that ends at `stop`. -/
def readEntry (stop : Position) (state : State) :
    Entry (Position × Token) → Except Diagnostic State
  | .comment body => .ok { state with pending := state.pending ++ [body] }
  | .token (start, token) => reader.advance stop state ⟨[], false, start, token⟩

/-- Comments wait, however the entries are read. -/
theorem foldlM_comments {ε α : Type} {f : State → Entry α → Except ε State}
    (hf : ∀ state body, f state (.comment body) =
      .ok { state with pending := state.pending ++ [body] }) (comments : List String)
    (state : State) : (comments.map .comment).foldlM f state =
      .ok { state with pending := state.pending ++ comments } := by
  induction comments generalizing state with
  | nil => simp [pure, Except.pure]
  | cons comment comments ih =>
    rw [List.map_cons, List.foldlM_cons, hf, ok_bind, ih]
    simp

theorem foldlM_readEntry_comments (stop : Position) (state : State) (comments : List String) :
    (comments.map .comment).foldlM (readEntry stop) state =
      .ok { state with pending := state.pending ++ comments } :=
  foldlM_comments (fun _ _ => rfl) comments state

/-- A lexeme is read as its comments and its token are, one after the other. -/
theorem foldlM_readEntry_lexeme (stop : Position) (state : State) (lexeme : Lexeme Token) :
    (lexeme.placed placed).foldlM (readEntry stop) state = reader.advance stop state lexeme := by
  have hs : step { state with pending := state.pending ++ lexeme.comments }
      ⟨[], false, lexeme.start, lexeme.token⟩ = step state lexeme := by
    simp only [step, List.append_nil]
  rw [Lexeme.placed, List.foldlM_append, foldlM_readEntry_comments, ok_bind, List.foldlM_cons]
  simp only [List.foldlM_nil, bind_pure, placed, readEntry, Reader.advance, reader, hs]
  rfl

end State

/-- The grammar with the given entries, in a text that ends at `stop`. -/
def Grammar.ofTranscript (stop : Position) (t : Transcript (Position × Token)) :
    Except Diagnostic Grammar := do
  let state ← t.entries.foldlM (State.readEntry stop) reader.initial
  reader.conclude stop (if t.closed then some [] else none) state

theorem State.finish_pending (state : State) (comments : List String) :
    { state with pending := state.pending ++ comments }.finish [] = state.finish comments := by
  obtain ⟨rules, pending, place⟩ := state
  cases place <;> cases rules <;> simp [finish]

/-- What is read from a text is what its transcript lists. -/
theorem parse_eq_ofTranscript (text : String) : Grammar.parse text =
    Grammar.ofTranscript (Position.start.advance text.toList) (transcript text.toList) := by
  obtain ⟨comments, hc, hk⟩ := lexicon.transcript_readFrom placed .start text.toList
  have hstop := lexicon.readFrom_stop .start text.toList
  have hfold (stop : Position) (lexemes : List (Lexeme Token)) (state : State) :
      (lexemes.flatMap (Lexeme.placed placed)).foldlM (State.readEntry stop) state =
        lexemes.foldlM (reader.advance stop) state := by
    have h := foldlM_flatMap_eq_map (φ := id) (f := reader.advance stop)
      (fun s a => by rw [id, State.foldlM_readEntry_lexeme]; cases reader.advance stop s a <;> rfl)
      lexemes state
    rw [id] at h
    rw [h]
    cases lexemes.foldlM (reader.advance stop) state <;> rfl
  rw [Grammar.parse, Reader.run, Grammar.ofTranscript, transcript, hc, Lexicon.read, hstop,
    List.foldlM_append, hfold]
  cases (lexicon.readFrom .start text.toList).lexemes.foldlM
      (reader.advance (Position.start.advance text.toList)) reader.initial with
  | error d => rfl
  | ok state =>
    rw [ok_bind, ok_bind, State.foldlM_readEntry_comments, ok_bind]
    simp only [Reader.conclude]
    cases ht : (lexicon.readFrom .start text.toList).trailing with
    | none => rfl
    | some kept =>
      have hf := State.finish_pending state kept
      rw [hk kept ht] at hf ⊢
      simp only [reader, Option.isSome_some, if_pos, Option.bind_some, hf]
      rfl

/-! ## Reading entries -/

namespace State

/-- The state after one more comment or token. -/
def feed (state : State) : Entry Token → Except Fault State
  | .comment body => .ok { state with pending := state.pending ++ [body] }
  | .token token => state.step ⟨[], false, .start, token⟩

theorem foldlM_feed_comments (state : State) (comments : List String) :
    (comments.map .comment).foldlM feed state =
      .ok { state with pending := state.pending ++ comments } :=
  foldlM_comments (fun _ _ => rfl) comments state

theorem step_onLineOne (state : State) (lexeme : Lexeme Token) (glued : Bool) :
    state.onLineOne.step { lexeme with glued, start := .start } =
      (state.step lexeme).map onLineOne := by
  obtain ⟨rules, pending, place⟩ := state
  obtain ⟨comments, _, start, token⟩ := lexeme
  cases place with
  | between => cases token <;> rfl
  | named rule => cases token <;> rfl
  | within rule _ body =>
    simp only [onLineOne, Place.onLineOne, step]
    rcases body.step (pending ++ comments) token with fault | ⟨pending, body | definitions⟩ <;> rfl

end State

/-- The grammar with the given entries. -/
def Grammar.ofEntries (entries : List (Entry Token)) : Except Fault Grammar := do
  let state ← entries.foldlM State.feed ⟨[], [], .between⟩
  match state.finish [] with
  | some grammar => .ok grammar
  | none => .error .unexpectedEnd

/-- What comes of the given entries: a grammar up to its lines, or a fault. -/
def Grammar.outcome (t : Transcript Token) : Except Fault Grammar := do
  let state ← t.entries.foldlM State.feed ⟨[], [], .between⟩
  match if t.closed then state.finish [] else none with
  | some grammar => .ok grammar
  | none => .error .unexpectedEnd

theorem State.finish_onLineOne (state : State) (comments : List String) :
    state.onLineOne.finish comments = (state.finish comments).map Grammar.onLineOne := by
  obtain ⟨rules, pending, place⟩ := state
  cases place <;> cases rules <;> simp [finish, onLineOne, Place.onLineOne, Grammar.onLineOne]

theorem State.feed_onLineOne (stop : Position) (state : State) (entry : Entry (Position × Token)) :
    state.onLineOne.feed (entry.map Prod.snd) =
      ((state.readEntry stop entry).map State.onLineOne).mapError Diagnostic.fault := by
  cases entry with
  | comment body => rfl
  | token value =>
    rw [Entry.map, feed, step_onLineOne state ⟨[], false, value.1, value.2⟩ false]
    simp only [readEntry, Reader.advance, reader]
    cases state.step ⟨[], false, value.1, value.2⟩ <;> rfl

theorem Grammar.outcome_map (stop : Position) (t : Transcript (Position × Token)) :
    Grammar.outcome (t.map Prod.snd) =
      ((Grammar.ofTranscript stop t).mapError Diagnostic.fault).map Grammar.onLineOne := by
  have hfold : (t.entries.map (Entry.map Prod.snd)).foldlM State.feed ⟨[], [], .between⟩ = _ :=
    foldlM_map_eq_mapError (State.feed_onLineOne stop) t.entries reader.initial
  rw [outcome, ofTranscript]
  simp only [Transcript.map, hfold]
  cases t.entries.foldlM (State.readEntry stop) reader.initial with
  | error d => rfl
  | ok state =>
    simp only [Except.map, mapError_ok, ok_bind, State.finish_onLineOne, Reader.conclude]
    cases t.closed with
    | false => rfl
    | true =>
      simp only [reader, Option.bind_some, if_pos]
      cases state.finish [] <;> rfl

/-- Up to places, what is read from a text depends only on its comments and tokens. -/
theorem outcome_parse (text : String) :
    Grammar.outcome (lexicon.transcript (fun _ _ token => token) true .start text.toList) =
      ((Grammar.parse text).mapError Diagnostic.fault).map Grammar.onLineOne := by
  rw [parse_eq_ofTranscript, ← Grammar.outcome_map, transcript, Lexicon.map_transcript]
  rfl

/-- Up to lines, what is read from a text are its entries. -/
theorem map_onLineOne_parse {text : String} {entries : List (Entry Token)}
    (h : Spells text.toList entries) :
    ((Grammar.parse text).mapError Diagnostic.fault).map Grammar.onLineOne =
      Grammar.ofEntries entries := by
  rw [← outcome_parse, Lexicon.spells_iff_transcript.1 h]
  rfl

theorem Grammar.ofEntries_eq_ok_iff {entries : List (Entry Token)} {grammar : Grammar} :
    Grammar.ofEntries entries = .ok grammar ↔
      ∃ state, entries.foldlM State.feed ⟨[], [], .between⟩ = .ok state ∧
        state.finish [] = some grammar := by
  unfold ofEntries
  cases entries.foldlM State.feed ⟨[], [], .between⟩ with
  | error fault => simp
  | ok state => cases hf : state.finish [] <;> simp [hf]

theorem exists_spells_of_parse {text : String} {grammar : Grammar}
    (h : Grammar.parse text = .ok grammar) : ∃ entries, Spells text.toList entries ∧
      Grammar.ofEntries entries = .ok grammar.onLineOne := by
  obtain ⟨_, comments, -, ht, -⟩ := reader.exists_state_of_run h
  obtain ⟨entries, hs⟩ := Lexicon.exists_spells_of_trailing (fun _ token => token) ht
  refine ⟨entries, hs, ?_⟩
  rw [← map_onLineOne_parse hs, h]
  rfl

theorem exists_parse_of_spells {text : String} {entries : List (Entry Token)} {grammar : Grammar}
    (hs : Spells text.toList entries) (h : Grammar.ofEntries entries = .ok grammar) :
    ∃ read, Grammar.parse text = .ok read ∧ read.onLineOne = grammar := by
  rw [← map_onLineOne_parse hs] at h
  exact map_mapError_eq_ok_iff.1 h

end GrammarText.Iso
