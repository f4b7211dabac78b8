import GrammarText.Iso.Reader
import GrammarText.Proofs.Descent.Comment

/-!
# A descent into ISO grammars

Each construct has a program that reads it, and the programs call each other as the constructs hold
each other. Only a bracket leads back, to a whole list of definitions. The comments that wait are
kept beside the scanner.
-/

namespace GrammarText.Iso.Descend

open GrammarText.Descent

/-- A comment, if there is one, waits from now on. -/
def hold (body? : Option String) : Descent (List String) Unit := fun (s, pending) =>
  .ok ((), s, pending ++ body?.toList)

/-- The comments that have waited. -/
def takeComments : Descent (List String) (List String) := fun (s, pending) =>
  .ok (pending, s, [])

/-- Passes the next comment and the blanks before it. -/
def gapRound (fuel : Nat) (_ : Unit) : Descent (List String) (Round Unit Unit) := do
  let here ← scanner
  if here.atComment then
    skipBlanks
    hold (← Descent.comment fuel)
    return .again ()
  else
    return .leave ()

/-- Passes blanks and comments. -/
def gap (fuel : Nat) : Descent (List String) Unit := do
  loop (gapRound fuel) fuel ()
  skipBlanks

/-! ## Primaries -/

/-- The spellings of the bracket that opens one of each kind, the longer ones first. -/
def openings : Bracket → List (List Char)
  | .optional => [['(', '/'], ['[']]
  | .repeated => [['(', ':'], ['\x7b']]
  | .grouped => [['(']]

def closings : Bracket → List (List Char)
  | .optional => [[']'], ['/', ')']]
  | .repeated => [['\x7d'], [':', ')']]
  | .grouped => [[')']]

/-- The bracket that opens where a text starts. -/
def opening? : List Char → Option Bracket
  | '[' :: _ => some .optional
  | '(' :: '/' :: _ => some .optional
  | '\x7b' :: _ => some .repeated
  | '(' :: ':' :: _ => some .repeated
  | '(' :: _ => some .grouped
  | _ => none

section Nested

variable (nested : Descent (List String) DefinitionsList) (fuel : Nat)

/-- Reads a list of definitions in brackets. -/
def sequence (bracket : Bracket) : Descent (List String) Primary := do
  let _ ← eatOne (openings bracket)
  let definitions ← nested
  gap fuel
  require (closings bracket) (.expectedClosing bracket.closers)
  return .sequence bracket definitions

/-- Reads a primary without brackets, which may be empty. -/
def leaf : Descent (List String) Primary :=
  read specialSequence (fun text => return .special text) <|
  read quotedText (fun text => return .terminal text) <|
  read metaName (fun text => return .name text) <|
  return .empty

def primary : Descent (List String) Primary := do
  let here ← scanner
  match opening? here.rest with
  | some bracket => sequence nested fuel bracket
  | none => leaf

/-! ## Factors, terms and definitions -/

/-- Reads the mark after a count. -/
def starAfter : Option Nat → Descent (List String) Unit
  | none => return ()
  | some _ => do
    gap fuel
    require [['*']] .expectedRepetition
    gap fuel

def factor : Descent (List String) Factor := do
  gap fuel
  let repetitions ← attempt Scanner.count
  starAfter fuel repetitions
  let comments ← takeComments
  let primary ← primary nested fuel
  return ⟨comments, repetitions, primary⟩

def term : Descent (List String) Term := do
  let first ← factor nested fuel
  gap fuel
  if ← eatOne [['-']] then
    let exception ← factor nested fuel
    return ⟨first, some exception⟩
  else
    return ⟨first, none⟩

/-- Reads one more term after a comma. -/
def definitionRound (terms : List Term) : Descent (List String) (Round (List Term) Definition) := do
  gap fuel
  if ← eatOne [[',']] then
    let next ← term nested fuel
    return .again (terms ++ [next])
  else
    return .leave terms

def definition : Descent (List String) Definition := do
  let first ← term nested fuel
  loop (definitionRound nested fuel) fuel [first]

/-- A mark between two definitions comes next. A slash before a parenthesis closes a bracket. -/
def atSeparator : List Char → Bool
  | '|' :: _ => true
  | '!' :: _ => true
  | '/' :: more => more.head? != some ')'
  | _ => false

/-- Reads one more definition after a separator. -/
def definitionsRound (definitions : List Definition) :
    Descent (List String) (Round (List Definition) DefinitionsList) := do
  gap fuel
  let here ← scanner
  if atSeparator here.rest then
    let _ ← act Scanner.bump
    let next ← definition nested fuel
    return .again (definitions ++ [next])
  else
    return .leave definitions

/-- Reads a list of definitions. What stands in brackets is read by `nested`. -/
def definitionsWith : Descent (List String) DefinitionsList := do
  let first ← definition nested fuel
  loop (definitionsRound nested fuel) fuel [first]

end Nested

/-- Reads a list of definitions. -/
def definitionsList : Nat → Descent (List String) DefinitionsList
  | 0 => halt .exhausted
  | fuel + 1 => do
    let start ← scanner
    definitionsWith (beyond start (definitionsList fuel)) (fuel + 1)

/-! ## Rules -/

section Rules

variable (fuel : Nat)

/-- Reads what follows the name of a rule. -/
def ruleBody (rule : RuleContext) : Descent (List String) Rule := do
  gap fuel
  let comments ← takeComments
  require [['=']] .expectedDefining
  let definitions ← definitionsList fuel
  gap fuel
  require [[';'], ['.']] .expectedTerminator
  return ⟨rule.name, rule.line, comments, definitions⟩

def rule : Descent (List String) Rule := do
  gap fuel
  let start ← scanner
  read metaName
    (fun name => inRule ⟨name, start.position.line⟩ (ruleBody fuel ⟨name, start.position.line⟩))
    (fail (·.expected .expectedName))

/-- Reads one more rule, if the text does not end. -/
def grammarRound (rules : List Rule) : Descent (List String) (Round (List Rule) (List Rule)) := do
  gap fuel
  let here ← scanner
  if here.isAtEnd then
    return .leave rules
  else
    let next ← rule fuel
    return .again (rules ++ [next])

def grammar : Descent (List String) Grammar := do
  gap fuel
  let first ← rule fuel
  let rules ← loop (grammarRound fuel) fuel [first]
  let comments ← takeComments
  return ⟨rules, comments⟩

end Rules

end GrammarText.Iso.Descend
