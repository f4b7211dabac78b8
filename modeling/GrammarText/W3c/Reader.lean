import GrammarText.Lexis.Reader
import GrammarText.W3c.Joining
import GrammarText.W3c.Token

/-!
# Reading W3C grammars

Items written side by side bind tighter than bars. A parenthesis suspends the expression that is
being read until it closes; what is suspended is kept on a stack. A rule ends where the next one
starts, or with the text.
-/

namespace GrammarText.W3c

/-- An expression of which a beginning has been read. What was read last stands first. -/
structure Level where
  /-- The arms that are complete. -/
  arms : List Expression := []
  /-- The complete items of the arm that is not. -/
  items : List Expression := []

/-- The arm that is being read goes on after one more item. -/
def Level.addItem (level : Level) (item : Expression) : Level :=
  ⟨level.arms, item :: level.items⟩

/-- Ends the arm that is being read with one more item. -/
def Level.endArm (level : Level) (item : Expression) : List Expression :=
  Expression.sequence (item :: level.items).reverse :: level.arms

/-- The whole expression, if `item` is its last. -/
def Level.close (level : Level) (item : Expression) : Expression :=
  Expression.choice (level.endArm item).reverse

/-- A parenthesis that is open, and what it interrupts. -/
structure Opened where
  /-- The expression that the parenthesis stands in. -/
  level : Level
  /-- The expression from which the parenthesis is excepted. -/
  minuend : Option Expression

/-- What may come next within an expression. -/
inductive Slot where
  /-- An operand; `minuend` is the one from which it is excepted. -/
  | operand (minuend : Option Expression)
  /-- Something after an operand. A mark for repetition belongs to the operand if it has none
  yet. -/
  | item (minuend : Option Expression) (operand : Expression) (marked : Bool)

/-- The right side of a rule of which a beginning has been read. -/
structure Body where
  /-- The open parentheses, the innermost first. -/
  opened : List Opened
  /-- The innermost expression. -/
  level : Level
  /-- What may come next in it. -/
  slot : Slot

/-- The right side of a rule, or the beginning of one. -/
inductive Progress where
  | partly (body : Body)
  /-- The rule has ended before the token. -/
  | whole (expression : Expression)

/-- What an operand comes to, with the operand it is excepted from. -/
def endItem : Option Expression → Expression → Expression
  | none, operand => operand
  | some minuend, operand => .ofContent (.exception minuend operand)

namespace Body

/-- Reads a token where an operand must start. -/
def atOperand (body : Body) (minuend : Option Expression) : Token → Except Fault Progress
  | .opening => .ok (.partly ⟨⟨body.level, minuend⟩ :: body.opened, {}, .operand none⟩)
  | .literal text =>
    .ok (.partly { body with slot := .item minuend (.ofContent (.literal text)) false })
  | .symbol name _ =>
    .ok (.partly { body with slot := .item minuend (.ofContent (.symbol name)) false })
  | .characterSet => .error (.unsupported "character set")
  | .unclosed => .error .unexpectedEnd
  | _ => .error .expectedExpression

/-- Reads a token that comes after a complete item. -/
def afterItem (body : Body) (item : Expression) : Token → Except Fault Progress
  | .closing =>
    match body.opened with
    | top :: opened =>
      let inner := (body.level.close item).parenthesized
      .ok (.partly ⟨opened, top.level, .item top.minuend inner false⟩)
    | [] => .ok (.whole (body.level.close item))
  | .symbol _ true =>
    match body.opened with
    | [] => .ok (.whole (body.level.close item))
    | _ :: _ => .error (.expectedClosing "')'")
  | .bar =>
    .ok (.partly { body with level := ⟨body.level.endArm item, []⟩, slot := .operand none })
  | token => Body.atOperand { body with level := body.level.addItem item } none token

/-- Reads a token of the right side of a rule. `glued` says that there is no gap before it. -/
def step (body : Body) (glued : Bool) (token : Token) : Except Fault Progress :=
  match body.slot with
  | .operand minuend => body.atOperand minuend token
  | .item minuend operand marked =>
    match token, glued, marked with
    | .suffix occurrence, true, false =>
      .ok (.partly { body with slot := .item minuend (operand.withOccurrence occurrence) true })
    | token, _, _ =>
      match token, minuend with
      | .minus, none => .ok (.partly { body with slot := .operand (some operand) })
      | token, minuend => body.afterItem (endItem minuend operand) token

/-- The right side, if the text may end here. -/
def finish (body : Body) : Option Expression :=
  match body.opened, body.slot with
  | [], .item minuend operand _ => some (body.level.close (endItem minuend operand))
  | _, _ => none

end Body

/-- Where in a grammar the reading has come to. -/
inductive Place where
  /-- Before a rule, or at the end. -/
  | between
  | named (rule : RuleContext)
  | within (rule : RuleContext) (body : Body)

/-- A grammar of which a beginning has been read. -/
structure State where
  rules : List Rule
  /-- Where the reading has come to. -/
  place : Place

namespace State

/-- Reads a token where a rule must start. -/
def startRule (rules : List Rule) (lexeme : Lexeme Token) : Except Fault State :=
  match lexeme.token with
  | .symbol name _ => .ok ⟨rules, .named ⟨name, lexeme.start.line⟩⟩
  | _ => .error .expectedSymbol

/-- The state after one more lexeme. -/
def step (state : State) (lexeme : Lexeme Token) : Except Fault State :=
  match state.place with
  | .between => startRule state.rules lexeme
  | .named rule =>
    match lexeme.token with
    | .defining => .ok ⟨state.rules, .within rule ⟨[], {}, .operand none⟩⟩
    | _ => .error .expectedDefining
  | .within rule body =>
    match body.step lexeme.glued lexeme.token with
    | .ok (.partly body) => .ok ⟨state.rules, .within rule body⟩
    | .ok (.whole expression) =>
      startRule (⟨rule.name, rule.line, expression⟩ :: state.rules) lexeme
    | .error fault => .error fault

/-- The grammar, if the text may end here. -/
def finish (state : State) : Option Grammar :=
  match state.place with
  | .between => some ⟨state.rules.reverse⟩
  | .named _ => none
  | .within rule body =>
    body.finish.map fun expression =>
      ⟨(⟨rule.name, rule.line, expression⟩ :: state.rules).reverse⟩

/-- The rule in which a fault lies. Where a rule must start, the one before it has ended. -/
def rule? (state : State) (fault : Fault) : Option RuleContext :=
  match state.place, fault with
  | .between, _ => none
  | _, .expectedSymbol => none
  | .named rule, _ => some rule
  | .within rule _, _ => some rule

end State

/-- The reader of W3C grammars. -/
def reader : Reader Token State Grammar where
  initial := ⟨[], .between⟩
  step := State.step
  finish state _ := state.finish
  rule? := State.rule?

/-- Reads a text as a W3C grammar. A text without rules is one. -/
def Grammar.parse (text : String) : Except Diagnostic Grammar := reader.run (lexemes text.toList)

end GrammarText.W3c
