import GrammarText.W3c.Tree

/-!
# Joining expressions into one

Operands written side by side become one list, operands with bars between them one choice. An
operand that is itself such a list or choice, and comes once, gives its own operands: parentheses
alone do not keep it apart, a mark for repetition does. A single operand stays what it is.
-/

namespace GrammarText.W3c.Expression

/-- What an expression contributes to the list it stands in. -/
def items : Expression → List Expression
  | ⟨.list items, .once, _⟩ => items
  | e => [e]

/-- What an expression contributes to the choice it stands in. -/
def arms : Expression → List Expression
  | ⟨.alternate arms, .once, _⟩ => arms
  | e => [e]

/-- The given expressions one after the other. -/
def sequence : List Expression → Expression
  | [e] => e
  | es => ofContent (.list (es.flatMap items))

/-- Any one of the given expressions. -/
def choice : List Expression → Expression
  | [e] => e
  | es => ofContent (.alternate (es.flatMap arms))

end GrammarText.W3c.Expression
