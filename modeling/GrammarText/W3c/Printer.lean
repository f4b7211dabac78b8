import GrammarText.W3c.Tree

/-!
# Printing W3C grammars

Parentheses are printed where an expression carries them, and nowhere else.
-/

namespace GrammarText.W3c

/-- The mark for how often an expression comes. -/
def Occurrence.suffix : Occurrence → List Char
  | once => []
  | optional => ['?']
  | zeroOrMore => ['*']
  | oneOrMore => ['+']

/-- A literal in single quotes, or in double ones if it holds a single quote. -/
def literalChars (text : List Char) : List Char :=
  let quote := if text.contains '\'' then '"' else '\''
  quote :: text ++ [quote]

mutual

/-- The characters of an expression. -/
def Expression.chars : Expression → List Char
  | ⟨content, occurrence, false⟩ => content.chars ++ occurrence.suffix
  | ⟨content, occurrence, true⟩ => '(' :: content.chars ++ ')' :: occurrence.suffix

/-- The characters of what an expression is made of. -/
def Content.chars : Content → List Char
  | .literal text => literalChars text.toList
  | .symbol name => name.toList
  | .characterSet text => text.toList
  | .list items => Expression.listChars items
  | .alternate arms => Expression.choiceChars arms
  | .exception minuend subtrahend => minuend.chars ++ ' ' :: '-' :: ' ' :: subtrahend.chars

/-- The characters of expressions side by side. -/
def Expression.listChars : List Expression → List Char
  | [] => []
  | [e] => e.chars
  | e :: more => e.chars ++ ' ' :: Expression.listChars more

/-- The characters of expressions with bars between them. -/
def Expression.choiceChars : List Expression → List Char
  | [] => []
  | [e] => e.chars
  | e :: more => e.chars ++ ' ' :: '|' :: ' ' :: Expression.choiceChars more

end

/-- The characters of a rule. -/
def Rule.chars (rule : Rule) : List Char :=
  rule.symbol.toList ++ ' ' :: ':' :: ':' :: '=' :: ' ' :: rule.expression.chars

/-- The characters of a grammar. Every rule ends its line. -/
def Grammar.chars (grammar : Grammar) : List Char :=
  grammar.rules.flatMap fun rule => rule.chars ++ ['\n']

/-- The printed text of an expression. -/
def Expression.print (e : Expression) : String := String.ofList e.chars

/-- The printed text of a rule. -/
def Rule.print (rule : Rule) : String := String.ofList rule.chars

/-- The printed text of a grammar. -/
def Grammar.print (grammar : Grammar) : String := String.ofList grammar.chars

end GrammarText.W3c
