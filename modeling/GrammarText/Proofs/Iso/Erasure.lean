import GrammarText.Proofs.Iso.Steps

/-!
# Grammars without comments

Comments are kept and never looked at. So without its comments a step is still a step, and the
tokens alone are read as the grammar without its comments.
-/

namespace GrammarText.Iso

/-! ## Trees -/

mutual

def Term.withoutComments : Term → Term
  | ⟨factor, none⟩ => ⟨factor.withoutComments, none⟩
  | ⟨factor, some exception⟩ => ⟨factor.withoutComments, some exception.withoutComments⟩

def Factor.withoutComments : Factor → Factor
  | ⟨_, count, primary⟩ => ⟨[], count, primary.withoutComments⟩

def Primary.withoutComments : Primary → Primary
  | .sequence bracket definitions =>
    .sequence bracket (DefinitionsList.withoutComments definitions)
  | .special text => .special text
  | .name text => .name text
  | .terminal text => .terminal text
  | .empty => .empty

def DefinitionsList.withoutComments : List (List Term) → List (List Term)
  | [] => []
  | definition :: more =>
    Definition.withoutComments definition :: DefinitionsList.withoutComments more

def Definition.withoutComments : List Term → List Term
  | [] => []
  | term :: more => term.withoutComments :: Definition.withoutComments more

end

def Rule.withoutComments (rule : Rule) : Rule :=
  ⟨rule.name, rule.line, [], DefinitionsList.withoutComments rule.definitions⟩

/-- The grammar, all its lists of comments emptied. -/
def Grammar.withoutComments (grammar : Grammar) : Grammar :=
  ⟨grammar.rules.map Rule.withoutComments, []⟩

theorem Definition.withoutComments_eq_map (definition : Definition) :
    Definition.withoutComments definition = definition.map Term.withoutComments := by
  induction definition with
  | nil => rfl
  | cons term more ih => rw [withoutComments, ih, List.map_cons]

theorem DefinitionsList.withoutComments_eq_map (definitions : DefinitionsList) :
    DefinitionsList.withoutComments definitions =
      definitions.map Definition.withoutComments := by
  induction definitions with
  | nil => rfl
  | cons definition more ih => rw [withoutComments, ih, List.map_cons]

theorem Grammar.withoutComments_onLineOne (grammar : Grammar) :
    grammar.onLineOne.withoutComments = grammar.withoutComments.onLineOne := by
  simp [withoutComments, onLineOne, Rule.withoutComments, Rule.onLineOne]

/-! ## States -/

def Level.withoutComments (level : Level) : Level :=
  ⟨level.definitions.map Definition.withoutComments, level.terms.map Term.withoutComments⟩

def Lead.withoutComments (lead : Lead) : Lead :=
  ⟨lead.minuend.map Factor.withoutComments, [], lead.count⟩

def Opened.withoutComments (top : Opened) : Opened :=
  ⟨top.bracket, top.level.withoutComments, top.lead.withoutComments⟩

def Slot.withoutComments : Slot → Slot
  | .factor minuend => .factor (minuend.map Factor.withoutComments)
  | .star minuend n => .star (minuend.map Factor.withoutComments) n
  | .primary minuend n => .primary (minuend.map Factor.withoutComments) n
  | .term t => .term t.withoutComments

def Body.withoutComments (body : Body) : Body :=
  ⟨body.opened.map Opened.withoutComments, body.level.withoutComments, body.slot.withoutComments⟩

def Progress.withoutComments : Progress → Progress
  | .partly body => .partly body.withoutComments
  | .whole definitions => .whole (DefinitionsList.withoutComments definitions)

def Place.withoutComments : Place → Place
  | .between => .between
  | .named rule => .named rule
  | .within rule _ body => .within rule [] body.withoutComments

def State.withoutComments (state : State) : State :=
  ⟨state.rules.map Rule.withoutComments, [], state.place.withoutComments⟩

section Parts

variable (level : Level) (lead : Lead) (term : Term) (primary : Primary)

theorem Level.withoutComments_endDefinition :
    (level.endDefinition term).map Definition.withoutComments =
      level.withoutComments.endDefinition term.withoutComments := by
  simp [endDefinition, withoutComments, Definition.withoutComments_eq_map]

theorem Level.withoutComments_close :
    DefinitionsList.withoutComments (level.close term) =
      level.withoutComments.close term.withoutComments := by
  rw [close, close, ← withoutComments_endDefinition, DefinitionsList.withoutComments_eq_map,
    List.map_reverse]

theorem Lead.withoutComments_slot : lead.slot.withoutComments = lead.withoutComments.slot := by
  obtain ⟨minuend, comments, _ | n⟩ := lead <;> rfl

theorem Lead.withoutComments_term :
    (lead.term primary).withoutComments = lead.withoutComments.term primary.withoutComments := by
  obtain ⟨_ | minuend, comments, count⟩ := lead <;> rfl

theorem withoutComments_of_leaf? {token : Token} {primary : Primary}
    (ht : token.leaf? = some primary) : primary.withoutComments = primary := by
  cases token with
  | special | terminal | name => cases ht; rfl
  | _ => cases ht

end Parts

/-! ## Steps -/

theorem Body.Step.withoutComments {body : Body} {comments left : List String} {token : Token}
    {progress : Progress} (h : Body.Step body comments token left progress) :
    Body.Step body.withoutComments [] token [] progress.withoutComments := by
  induction h with
  | count hn => exact .count hn
  | star => exact .star
  | @opening _ _ _ lead =>
    rw [Body.withoutComments, Lead.withoutComments_slot]
    exact @Step.opening _ _ _ lead.withoutComments
  | @leaf opened level token primary lead ht =>
    have hs := @Step.leaf (opened.map Opened.withoutComments) level.withoutComments token primary
      lead.withoutComments ht
    rw [Body.withoutComments, Lead.withoutComments_slot]
    simp only [Progress.withoutComments, Body.withoutComments, Slot.withoutComments,
      Lead.withoutComments_term, withoutComments_of_leaf? ht]
    exact hs
  | @empty _ _ _ _ lead _ ih =>
    simp only [Body.withoutComments, Slot.withoutComments, Lead.withoutComments_term] at ih
    rw [Body.withoutComments, Lead.withoutComments_slot]
    exact @Step.empty _ _ _ _ lead.withoutComments ih
  | minus => exact .minus
  | comma => exact .comma
  | @separator opened level term _ =>
    have hs := @Step.separator (opened.map Opened.withoutComments) level.withoutComments
      term.withoutComments []
    rw [← Level.withoutComments_endDefinition] at hs
    exact hs
  | @closing top opened level term _ =>
    have hs := @Step.closing top.withoutComments (opened.map Opened.withoutComments)
      level.withoutComments term.withoutComments []
    rw [← Level.withoutComments_close] at hs
    simp only [Progress.withoutComments, Body.withoutComments, Slot.withoutComments,
      Lead.withoutComments_term, Primary.withoutComments]
    exact hs
  | @terminator level term _ =>
    have hs := @Step.terminator level.withoutComments term.withoutComments []
    rw [← Level.withoutComments_close] at hs
    exact hs

theorem State.Step.withoutComments {state next : State} {token : Token}
    (h : State.Step state (.token token) next) :
    State.Step state.withoutComments (.token token) next.withoutComments := by
  cases h with
  | name => exact .name
  | defining => exact .defining
  | within hb => exact .within hb.withoutComments
  | rule hb => exact .rule hb.withoutComments

/-- Without comments, what is read leads to what there is without comments. -/
theorem State.foldlM_withoutComments {state last : State} {entries : List (Entry Token)}
    (h : entries.foldlM feed state = .ok last) :
    ((entries.filterMap Entry.token?).map .token).foldlM feed state.withoutComments =
      .ok last.withoutComments := by
  induction entries generalizing state with
  | nil => cases h; rfl
  | cons entry entries ih =>
    obtain ⟨next, hn, hl⟩ := foldlM_cons_eq_ok_iff.1 h
    have hs := feed_eq_ok_iff.1 hn
    cases entry with
    | comment body =>
      -- A comment changes nothing but the comments that wait.
      cases hs with
      | comment =>
        have hw := ih hl
        exact hw
    | token token =>
      exact foldlM_cons_eq_ok_iff.2 ⟨_, feed_eq_ok_iff.2 hs.withoutComments, ih hl⟩

theorem State.finish_withoutComments {state : State} {grammar : Grammar}
    (h : state.finish [] = some grammar) :
    state.withoutComments.finish [] = some grammar.withoutComments := by
  obtain ⟨hp, hne, rfl⟩ := finish_eq_some_iff.1 h
  refine finish_eq_some_iff.2 ⟨?_, ?_, ?_⟩
  · simp [withoutComments, hp, Place.withoutComments]
  · simpa [withoutComments] using hne
  · simp [withoutComments, Grammar.withoutComments]

/-- The tokens of a grammar alone are read as the grammar without its comments. -/
theorem Grammar.ofEntries_withoutComments {entries : List (Entry Token)} {grammar : Grammar}
    (h : Grammar.ofEntries entries = .ok grammar) :
    Grammar.ofEntries ((entries.filterMap Entry.token?).map .token) =
      .ok grammar.withoutComments := by
  obtain ⟨state, hr, hf⟩ := ofEntries_eq_ok_iff.1 h
  exact ofEntries_eq_ok_iff.2
    ⟨_, State.foldlM_withoutComments hr, State.finish_withoutComments hf⟩

end GrammarText.Iso
