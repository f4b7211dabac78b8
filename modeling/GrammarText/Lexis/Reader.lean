import GrammarText.Diagnostic
import GrammarText.Lexis.Lexicon

/-!
# Reading lexemes

A reader goes through the lexemes of a text once, from left to right, and keeps in a state what it
has read. The first lexeme that does not fit ends the reading; the place of the fault is the place
of that lexeme, or the end of the text if what is wrong is that the text ends.
-/

namespace GrammarText

/-- How the lexemes of a notation are put together. -/
structure Reader (Token State Result : Type) where
  initial : State
  step : State → Lexeme Token → Except Fault State
  /-- The result, if the text may end here. The comments are those after the last lexeme. -/
  finish : State → List String → Option Result
  /-- The rule in which a fault that shows in this state lies. -/
  rule? : State → Fault → Option RuleContext

namespace Reader

variable {Token State Result : Type} (R : Reader Token State Result)

/-- The diagnostic for a fault that shows in `state` at the place `here` of a text that ends at
`stop`. -/
def diagnostic (state : State) (fault : Fault) (here stop : Position) : Diagnostic :=
  { fault, position := if fault = .unexpectedEnd then stop else here, rule := R.rule? state fault }

/-- The state after one more lexeme of a text that ends at `stop`. -/
def advance (stop : Position) (state : State) (lexeme : Lexeme Token) : Except Diagnostic State :=
  (R.step state lexeme).mapError fun fault => R.diagnostic state fault lexeme.start stop

/-- The result of a text whose lexemes have led to `state`. A text that ends within a comment has
none. -/
def conclude (stop : Position) (trailing : Option (List String)) (state : State) :
    Except Diagnostic Result :=
  match trailing.bind (R.finish state) with
  | some result => .ok result
  | none => .error (R.diagnostic state .unexpectedEnd stop stop)

/-- Reads the lexemes of a text. -/
def run (lexed : Lexed Token) : Except Diagnostic Result := do
  let state ← lexed.lexemes.foldlM (R.advance lexed.stop) R.initial
  R.conclude lexed.stop lexed.trailing state

end Reader

end GrammarText
