import GrammarText.Iso.Token
import GrammarText.Lexis.Reader

/-!
# Reading ISO grammars

Every opening bracket suspends the list of definitions that is being read until the matching bracket
closes. What is suspended is kept on a stack, so a grammar is read in one pass whatever its depth. A
comment waits until the next rule or the next factor takes it.
-/

namespace GrammarText.Iso

/-- A list of definitions of which a beginning has been read. What was read last stands first. -/
structure Level where
  /-- The definitions that are complete. -/
  definitions : List Definition := []
  /-- The complete terms of the definition that is not. -/
  terms : List Term := []

/-- The definition that is being read goes on after one more term. -/
def Level.addTerm (level : Level) (term : Term) : Level :=
  ⟨level.definitions, term :: level.terms⟩

/-- Ends the definition with one more term. -/
def Level.endDefinition (level : Level) (term : Term) : List Definition :=
  (term :: level.terms).reverse :: level.definitions

/-- The whole list, if `term` is its last. -/
def Level.close (level : Level) (term : Term) : DefinitionsList :=
  (level.endDefinition term).reverse

/-- All of a term before the primary that is read next. -/
structure Lead where
  /-- The factor from which the next one is excepted. -/
  minuend : Option Factor
  comments : List String
  count : Option Nat

/-- The term that ends with the given primary. -/
def Lead.term (lead : Lead) (primary : Primary) : Term :=
  match lead.minuend with
  | none => ⟨⟨lead.comments, lead.count, primary⟩, none⟩
  | some factor => ⟨factor, some ⟨lead.comments, lead.count, primary⟩⟩

/-- A bracket that is open, and what it interrupts. -/
structure Opened where
  bracket : Bracket
  /-- The list that the bracket stands in. -/
  level : Level
  /-- The term that the bracket stands in. -/
  lead : Lead

/-- The spellings of the bracket that closes one of each kind. -/
def Bracket.closers : Bracket → String
  | optional => "']' or '/)'"
  | repeated => "'\x7d' or ':)'"
  | grouped => "')'"

/-- What may come next within a list of definitions. -/
inductive Slot where
  /-- A factor; `minuend` is the factor from which it is excepted. -/
  | factor (minuend : Option Factor)
  /-- The mark after a count. -/
  | star (minuend : Option Factor) (count : Nat)
  /-- A primary after its count. -/
  | primary (minuend : Option Factor) (count : Nat)
  | term (term : Term)

/-- The right side of a rule of which a beginning has been read. -/
structure Body where
  /-- The open brackets, the innermost first. -/
  opened : List Opened
  /-- The innermost list. -/
  level : Level
  /-- What may come next in it. -/
  slot : Slot

/-- The right side of a rule, or the beginning of one. -/
inductive Progress where
  | partly (body : Body)
  | whole (definitions : DefinitionsList)

namespace Body

/-- What is missing where the innermost list can only end. -/
def unfinished (body : Body) : Fault :=
  match body.opened with
  | [] => .expectedTerminator
  | top :: _ => .expectedClosing top.bracket.closers

/-- Reads a token after `term`. -/
def afterTerm (body : Body) (term : Term) : Token → Except Fault Progress
  | .minus =>
    match term.exception with
    | none => .ok (.partly { body with slot := .factor (some term.factor) })
    | some _ => .error body.unfinished
  | .comma =>
    .ok (.partly { body with level := body.level.addTerm term, slot := .factor none })
  | .separator =>
    let level := ⟨body.level.endDefinition term, []⟩
    .ok (.partly { body with level, slot := .factor none })
  | .closing bracket =>
    match body.opened with
    | top :: opened =>
      if bracket = top.bracket then
        let primary := .sequence bracket (body.level.close term)
        .ok (.partly ⟨opened, top.level, .term (top.lead.term primary)⟩)
      else .error body.unfinished
    | [] => .error body.unfinished
  | .terminator =>
    match body.opened with
    | [] => .ok (.whole (body.level.close term))
    | _ :: _ => .error body.unfinished
  | _ => .error body.unfinished

/-- Reads a token where a primary may stand. One that starts none comes after an empty primary. -/
def atPrimary (body : Body) (lead : Lead) : Token → Except Fault Progress
  | .opening bracket =>
    .ok (.partly ⟨⟨bracket, body.level, lead⟩ :: body.opened, {}, .factor none⟩)
  | .special text => .ok (.partly { body with slot := .term (lead.term (.special text)) })
  | .terminal text => .ok (.partly { body with slot := .term (lead.term (.terminal text)) })
  | .name text => .ok (.partly { body with slot := .term (lead.term (.name text)) })
  | .unclosed => .error .unexpectedEnd
  | token => body.afterTerm (lead.term .empty) token

/-- Reads a token of the right side of a rule. The comments are those that wait for a factor; those
that still wait afterwards come with the answer. -/
def step (body : Body) (comments : List String) (token : Token) :
    Except Fault (List String × Progress) :=
  match body.slot, token with
  | .factor minuend, .count n =>
    if n < countBound then .ok (comments, .partly { body with slot := .star minuend n })
    else .error .countTooLarge
  | .factor minuend, token => (body.atPrimary ⟨minuend, comments, none⟩ token).map (Prod.mk [])
  | .star minuend n, .star => .ok (comments, .partly { body with slot := .primary minuend n })
  | .star _ _, _ => .error .expectedRepetition
  | .primary minuend n, token =>
    (body.atPrimary ⟨minuend, comments, some n⟩ token).map (Prod.mk [])
  | .term term, token => (body.afterTerm term token).map (Prod.mk comments)

end Body

/-- Where in a grammar the reading has come to. -/
inductive Place where
  /-- Before a rule, or at the end. -/
  | between
  | named (rule : RuleContext)
  /-- On the right side of a rule, whose comments are known. -/
  | within (rule : RuleContext) (comments : List String) (body : Body)

/-- A grammar of which a beginning has been read. -/
structure State where
  rules : List Rule
  /-- The comments that wait for a rule or a factor. -/
  pending : List String
  /-- Where the reading has come to. -/
  place : Place

namespace State

/-- The state after one more lexeme. -/
def step (state : State) (lexeme : Lexeme Token) : Except Fault State :=
  let pending := state.pending ++ lexeme.comments
  match state.place with
  | .between =>
    match lexeme.token with
    | .name text => .ok ⟨state.rules, pending, .named ⟨text, lexeme.start.line⟩⟩
    | _ => .error .expectedName
  | .named rule =>
    match lexeme.token with
    | .defining => .ok ⟨state.rules, [], .within rule pending ⟨[], {}, .factor none⟩⟩
    | _ => .error .expectedDefining
  | .within rule comments body =>
    match body.step pending lexeme.token with
    | .ok (pending, .partly body) => .ok ⟨state.rules, pending, .within rule comments body⟩
    | .ok (pending, .whole definitions) =>
      .ok ⟨⟨rule.name, rule.line, comments, definitions⟩ :: state.rules, pending, .between⟩
    | .error fault => .error fault

/-- The grammar, if the text may end here: after a rule, of which there must be one. -/
def finish (state : State) (comments : List String) : Option Grammar :=
  match state.place, state.rules with
  | .between, _ :: _ => some ⟨state.rules.reverse, state.pending ++ comments⟩
  | _, _ => none

/-- The rule that is being read. -/
def rule? (state : State) : Option RuleContext :=
  match state.place with
  | .between => none
  | .named rule => some rule
  | .within rule _ _ => some rule

end State

/-- The reader of ISO grammars. -/
def reader : Reader Token State Grammar where
  initial := ⟨[], [], .between⟩
  step := State.step
  finish := State.finish
  rule? state _ := state.rule?

/-- Reads a text as an ISO grammar. -/
def Grammar.parse (text : String) : Except Diagnostic Grammar :=
  reader.run (lexicon.read text.toList)

end GrammarText.Iso
