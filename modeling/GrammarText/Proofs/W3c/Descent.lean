import GrammarText.Proofs.Descent.Basic
import GrammarText.Proofs.W3c.Scan

/-!
# A descent into W3C grammars

Each construct has a program that reads it, and only a parenthesis leads back, to a whole
expression. Where an expression ends is found out by looking ahead, for a closing parenthesis or for
the head of the next rule.
-/

namespace GrammarText.W3c

/-- The mark for repetition that comes next. -/
def suffixAt? : List Char → Option Occurrence
  | '?' :: _ => some .optional
  | '*' :: _ => some .zeroOrMore
  | '+' :: _ => some .oneOrMore
  | _ => none

namespace Descend

open GrammarText.Descent

/-- Passes the blanks that come next and a comment after them. -/
def gapRound (_ : Unit) : Descent Unit (Round Unit Unit) := do
  skipBlanks
  read blockComment (fun _ => return .again ()) (return .leave ())

/-- Passes blanks and comments. -/
def gap (fuel : Nat) : Descent Unit Unit := loop gapRound fuel ()

/-- Tells whether the head of a rule comes next. -/
def atRuleStart (fuel : Nat) : Descent Unit Bool := speculate do
  read word (fun _ => do
    if ← succeeds (gap fuel) then eatOne [[':', ':', '=']] else return false) (return false)

/-! ## Operands and items -/

/-- Reads a mark for repetition right after an operand. -/
def suffix (operand : Expression) : Descent Unit Expression := do
  let here ← scanner
  match suffixAt? here.rest with
  | some occurrence =>
    let _ ← act Scanner.bump
    return operand.withOccurrence occurrence
  | none => return operand

def leaf : Descent Unit Expression :=
  read quotedText (fun text => return .ofContent (.literal text)) <|
  read word (fun name => return .ofContent (.symbol name)) <|
  fail (·.expected .expectedExpression)

section Nested

variable (nested : Descent Unit Expression) (fuel : Nat)

/-- Reads an expression in parentheses. -/
def group : Descent Unit Expression := do
  let _ ← act Scanner.bump
  let inner ← nested
  gap fuel
  require [[')']] (.expectedClosing "')'")
  return inner.parenthesized

/-- Reads an operand without its mark for repetition. -/
def unmarked : Descent Unit Expression := do
  let here ← scanner
  match here.rest.head? with
  | some '(' => group nested fuel
  | some '[' | some '#' => fail (·.diagnose (.unsupported "character set"))
  | _ => leaf

def operand : Descent Unit Expression := do
  gap fuel
  suffix (← unmarked nested fuel)

def item : Descent Unit Expression := do
  let first ← operand nested fuel
  gap fuel
  if ← eatOne [['-']] then
    let second ← operand nested fuel
    gap fuel
    return .ofContent (.exception first second)
  else
    return first

/-! ## Expressions -/

/-- Reads one more item after complete arms and after the complete items of one that is not. -/
def expressionRound (before : List Expression × List Expression) :
    Descent Unit (Round (List Expression × List Expression) Expression) := do
  let next ← item nested fuel
  let items := before.2 ++ [next]
  let arms := before.1 ++ [.sequence items]
  let here ← scanner
  match here.rest.head? with
  | none | some ')' => return .leave (.choice arms)
  | some '|' =>
    let _ ← act Scanner.bump
    return .again (arms, [])
  | some _ =>
    if ← atRuleStart fuel then return .leave (.choice arms) else return .again (before.1, items)

/-- Reads an expression. What stands in parentheses is read by `nested`. -/
def expressionWith : Descent Unit Expression := loop (expressionRound nested fuel) fuel ([], [])

end Nested

/-- Reads an expression. -/
def expression : Nat → Descent Unit Expression
  | 0 => halt .exhausted
  | fuel + 1 => do
    let start ← scanner
    expressionWith (beyond start (expression fuel)) (fuel + 1)

/-! ## Rules -/

section Rules

variable (fuel : Nat)

/-- Reads what follows the name of a rule. -/
def ruleBody (rule : RuleContext) : Descent Unit Rule := do
  gap fuel
  require [[':', ':', '=']] .expectedDefining
  return ⟨rule.name, rule.line, ← expression fuel⟩

def rule : Descent Unit Rule := do
  let start ← scanner
  read word
    (fun name => inRule ⟨name, start.position.line⟩ (ruleBody fuel ⟨name, start.position.line⟩))
    (fail (·.expected .expectedSymbol))

/-- Reads one more rule, if the text does not end. -/
def grammarRound (rules : List Rule) : Descent Unit (Round (List Rule) Grammar) := do
  gap fuel
  let here ← scanner
  if here.isAtEnd then
    return .leave ⟨rules⟩
  else
    return .again (rules ++ [← rule fuel])

def grammar : Descent Unit Grammar := loop (grammarRound fuel) fuel []

end Rules

end Descend

end GrammarText.W3c
