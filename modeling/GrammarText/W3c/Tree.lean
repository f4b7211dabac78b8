/-!
# Grammars in the notation of the XML recommendations

A grammar is a list of rules, and the right side of a rule is one expression. Sequences and choices
are nodes with any number of operands. Every expression can carry a mark for how often it comes, and
knows whether it is written in parentheses.
-/

namespace GrammarText.W3c

/-- How often an expression comes. -/
inductive Occurrence where
  | once
  | optional
  | zeroOrMore
  | oneOrMore
deriving DecidableEq, Repr

mutual

/-- An expression: what it is made of, how often that comes, and whether it is written in
parentheses. -/
structure Expression where
  content : Content
  occurrence : Occurrence
  grouped : Bool

/-- What an expression is made of. -/
inductive Content where
  /-- The text itself. -/
  | literal (text : String)
  /-- A reference to the rule of that name. -/
  | symbol (name : String)
  /-- A set of characters, as it is written. -/
  | characterSet (text : String)
  /-- The operands one after the other. -/
  | list (items : List Expression)
  /-- Any one of the operands. -/
  | alternate (arms : List Expression)
  /-- What the first operand matches and the second does not. -/
  | exception (minuend subtrahend : Expression)

end

/-- A production rule. -/
structure Rule where
  symbol : String
  /-- The line of the first character of the name. -/
  line : Nat
  expression : Expression

/-- A grammar. -/
structure Grammar where
  rules : List Rule

namespace Expression

/-- An expression that comes once and stands in no parentheses. -/
def ofContent (content : Content) : Expression := ⟨content, .once, false⟩

/-- The expression, to come as often as is said. What was said before is lost. -/
def withOccurrence (e : Expression) (occurrence : Occurrence) : Expression := { e with occurrence }

/-- The expression in parentheses. -/
def parenthesized (e : Expression) : Expression := { e with grouped := true }

end Expression

/-! ## Equality -/

mutual

/-- Whether two expressions are equal. -/
def Expression.same : Expression → Expression → Bool
  | ⟨a, o, g⟩, ⟨b, p, h⟩ => a.same b && o == p && g == h

/-- Whether two contents are equal. -/
def Content.same : Content → Content → Bool
  | .literal s, .literal t => s == t
  | .symbol s, .symbol t => s == t
  | .characterSet s, .characterSet t => s == t
  | .list l, .list m => Expression.sameAll l m
  | .alternate l, .alternate m => Expression.sameAll l m
  | .exception a b, .exception c d => a.same c && b.same d
  | _, _ => false

/-- Whether two lists of expressions are equal. -/
def Expression.sameAll : List Expression → List Expression → Bool
  | [], [] => true
  | a :: l, b :: m => a.same b && Expression.sameAll l m
  | _, _ => false

end

/-- Whether two rules are equal, their lines included. -/
def Rule.same (r s : Rule) : Bool :=
  r.symbol == s.symbol && r.line == s.line && r.expression.same s.expression

/-- Whether two grammars are equal, the lines of their rules included. -/
def Grammar.same (g h : Grammar) : Bool :=
  g.rules.length == h.rules.length && (g.rules.zip h.rules).all fun (r, s) => r.same s

end GrammarText.W3c
