import GrammarText.Proofs.Iso.Entries

/-!
# Reading behind other text

What is read does not depend on what came before, apart from three things: places count what stands
before, earlier rules are kept, and comments that still wait go to the first rule. Each is a map of
states that every step keeps up with.
-/

namespace GrammarText

/-! ## Places -/

def RuleContext.behind (before : List Char) (rule : RuleContext) : RuleContext :=
  { rule with line := lineFeeds before + rule.line }

/-- The same fault, when the text stands behind `before`. -/
def Diagnostic.behind (before : List Char) (d : Diagnostic) : Diagnostic :=
  ⟨d.fault, d.position.behind before, d.rule.map (RuleContext.behind before)⟩

namespace Iso

def Rule.behind (before : List Char) (rule : Rule) : Rule :=
  { rule with line := lineFeeds before + rule.line }

/-- The grammar of a text, when the text stands behind `before`. -/
def Grammar.behind (before : List Char) (grammar : Grammar) : Grammar :=
  { grammar with rules := grammar.rules.map (Rule.behind before) }

def Place.behind (before : List Char) : Place → Place
  | .between => .between
  | .named rule => .named (rule.behind before)
  | .within rule comments body => .within (rule.behind before) comments body

def State.behind (before : List Char) (state : State) : State :=
  ⟨state.rules.map (Rule.behind before), state.pending, state.place.behind before⟩

/-- An entry that stands behind `before`. -/
def moved (before : List Char) : Entry (Position × Token) → Entry (Position × Token) :=
  Entry.map fun value => (value.1.behind before, value.2)

namespace State

theorem diagnostic_behind (before : List Char) (state : State) (fault : Fault)
    (here stop : Position) :
    reader.diagnostic (state.behind before) fault (here.behind before) (stop.behind before) =
      (reader.diagnostic state fault here stop).behind before := by
  obtain ⟨rules, pending, place⟩ := state
  by_cases hf : fault = .unexpectedEnd <;> cases place <;>
    simp [Reader.diagnostic, Diagnostic.behind, reader, rule?, behind, Place.behind, hf]

theorem step_behind (before : List Char) (state : State) (start : Position) (token : Token) :
    (state.behind before).step ⟨[], false, start.behind before, token⟩ =
      (state.step ⟨[], false, start, token⟩).map (behind before) := by
  obtain ⟨rules, pending, place⟩ := state
  cases place with
  | between => cases token <;> rfl
  | named rule => cases token <;> rfl
  | within rule comments body =>
    simp only [behind, Place.behind, step]
    rcases body.step (pending ++ []) token with fault | ⟨pending, body | definitions⟩ <;> rfl

theorem readEntry_behind (before : List Char) (stop : Position) (state : State)
    (entry : Entry (Position × Token)) :
    readEntry (stop.behind before) (state.behind before) (moved before entry) =
      ((readEntry stop state entry).map (behind before)).mapError (Diagnostic.behind before) := by
  cases entry with
  | comment body => rfl
  | token value =>
    simp only [moved, Entry.map, readEntry, Reader.advance]
    rw [show reader.step = step from rfl, step_behind]
    cases state.step ⟨[], false, value.1, value.2⟩ with
    | error fault => exact congrArg Except.error (diagnostic_behind before state fault _ stop)
    | ok next => rfl

end State

/-! ## What came before -/

theorem State.readEntry_map {φ : State → State} {stop : Position} {state : State}
    {entry : Entry (Position × Token)}
    (hcomment : ∀ body, readEntry stop (φ state) (.comment body) =
      (readEntry stop state (.comment body)).map φ)
    (hstep : ∀ start token,
      (φ state).step ⟨[], false, start, token⟩ = (state.step ⟨[], false, start, token⟩).map φ)
    (hrule : (φ state).rule? = state.rule?) :
    readEntry stop (φ state) entry = (readEntry stop state entry).map φ := by
  cases entry with
  | comment body => exact hcomment body
  | token value =>
    simp only [readEntry, Reader.advance, reader, hstep, Reader.diagnostic, hrule]
    cases state.step ⟨[], false, value.1, value.2⟩ <;> rfl

/-- The rules `earlier` have been read before. They stand last first. -/
def State.onto (earlier : List Rule) (state : State) : State :=
  { state with rules := state.rules ++ earlier }

theorem State.readEntry_onto (earlier : List Rule) (stop : Position) (state : State)
    (entry : Entry (Position × Token)) :
    readEntry stop (state.onto earlier) entry =
      (readEntry stop state entry).map (onto earlier) := by
  obtain ⟨rules, pending, place⟩ := state
  refine readEntry_map (fun _ => rfl) (fun start token => ?_) rfl
  cases place with
  | between => cases token <;> rfl
  | named rule => cases token <;> rfl
  | within rule own body =>
    simp only [onto, step]
    rcases body.step (pending ++ []) token with fault | ⟨pending, body | definitions⟩ <;> rfl

/-- The rule with further comments before it. -/
def Rule.lead (comments : List String) (rule : Rule) : Rule :=
  { rule with comments := comments ++ rule.comments }

/-- The rules, the last read first, with further comments before the one that was read first. -/
def leadFirst (comments : List String) (rules : List Rule) : List Rule :=
  (rules.reverse.modifyHead (Rule.lead comments)).reverse

theorem leadFirst_cons {rules : List Rule} (hr : rules ≠ []) (comments : List String)
    (rule : Rule) :
    leadFirst comments (rule :: rules) = rule :: leadFirst comments rules := by
  obtain ⟨first, more, h⟩ := List.exists_cons_of_ne_nil (mt List.reverse_eq_nil_iff.1 hr)
  simp [leadFirst, h]

/-- Further comments have waited for the first rule. -/
def State.lead (comments : List String) : State → State
  | ⟨[], pending, .within rule own body⟩ => ⟨[], pending, .within rule (comments ++ own) body⟩
  | ⟨[], pending, place⟩ => ⟨[], comments ++ pending, place⟩
  | ⟨rules, pending, place⟩ => ⟨leadFirst comments rules, pending, place⟩

theorem State.step_lead (comments : List String) (state : State) (start : Position)
    (token : Token) : (state.lead comments).step ⟨[], false, start, token⟩ =
      (state.step ⟨[], false, start, token⟩).map (lead comments) := by
  obtain ⟨rules, pending, place⟩ := state
  cases rules with
  | nil =>
    cases place with
    | between => cases token <;> simp [lead, step, Except.map]
    | named rule => cases token <;> simp [lead, step, Except.map]
    | within rule own body =>
      simp only [lead, step]
      rcases body.step (pending ++ []) token with fault | ⟨pending, body | definitions⟩ <;> rfl
  | cons first rules =>
    cases place with
    | between => cases token <;> rfl
    | named rule => cases token <;> rfl
    | within rule own body =>
      simp only [lead, step]
      rcases body.step (pending ++ []) token with fault | ⟨pending, body | definitions⟩
      · rfl
      · rfl
      · -- The rule that ends here is not the first.
        simp only [Except.map, lead, leadFirst_cons (List.cons_ne_nil first rules)]

theorem State.readEntry_lead (comments : List String) (stop : Position) (state : State)
    (entry : Entry (Position × Token)) :
    readEntry stop (state.lead comments) entry =
      (readEntry stop state entry).map (lead comments) := by
  refine readEntry_map (fun body => ?_) (state.step_lead comments) ?_
  all_goals
    obtain ⟨rules, pending, place⟩ := state
    cases rules <;> cases place <;> simp [readEntry, lead, Except.map, rule?]

end Iso

end GrammarText
