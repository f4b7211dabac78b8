import GrammarText.Text.Position

/-!
# Diagnostics

What keeps a text from being read as a grammar, where that is, and within which rule.
-/

namespace GrammarText

/-- Why a text is not a grammar. -/
inductive Fault where
  /-- The text ends where more of it is needed. -/
  | unexpectedEnd
  /-- No letter where the name of a rule must start. -/
  | expectedName
  /-- No defining symbol after the name of a rule. -/
  | expectedDefining
  /-- No terminator where a rule can only end. -/
  | expectedTerminator
  /-- No repetition symbol after a count. -/
  | expectedRepetition
  /-- No bracket where a bracketed list can only end; `spellings` names those that would do. -/
  | expectedClosing (spellings : String)
  /-- A count that takes more than 64 bits. -/
  | countTooLarge
  /-- No word where a rule must start. -/
  | expectedSymbol
  /-- Nothing that starts an expression where one is needed. -/
  | expectedExpression
  /-- A construct that the notation has and this library does not read. -/
  | unsupported (construct : String)
deriving DecidableEq, Repr

/-- The wording of a fault. -/
def Fault.message : Fault → String
  | unexpectedEnd => "unexpected end of input"
  | expectedName => "expected a letter to start a meta identifier"
  | expectedDefining => "expected defining symbol"
  | expectedTerminator => "expected terminator symbol ';' or '.'"
  | expectedRepetition => "expected repetition symbol '*'"
  | expectedClosing spellings => "expected closing bracket " ++ spellings
  | countTooLarge => "integer does not fit in a usize"
  | expectedSymbol => "expected a symbol"
  | expectedExpression => "expected the start of an expression"
  | unsupported construct => construct ++ " expressions are not supported"

/-- The rule that was being read: its name and the line it starts on. -/
structure RuleContext where
  name : String
  /-- The line of the first character of the name. -/
  line : Nat
deriving DecidableEq, Repr

/-- A fault together with the place where it shows. -/
structure Diagnostic where
  fault : Fault
  position : Position
  /-- The rule it belongs to, if its name had been read. -/
  rule : Option RuleContext := none
deriving DecidableEq, Repr

namespace Diagnostic

/-- Names the rule in which the fault lies; the innermost rule, which is named first, stays. -/
def inRule (d : Diagnostic) (rule : RuleContext) : Diagnostic :=
  { d with rule := d.rule <|> some rule }

/-- The text shown to a person. -/
def message (d : Diagnostic) : String :=
  let place := s!"{d.fault.message} at line {d.position.line}, offset {d.position.offset}"
  match d.rule with
  | none => place
  | some rule => s!"failed parsing rule {rule.name} starting at line {rule.line}: {place}"

end Diagnostic

end GrammarText
