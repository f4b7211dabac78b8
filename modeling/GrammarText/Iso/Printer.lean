import GrammarText.Iso.Tree

/-!
# Printing ISO grammars

One spelling is chosen for everything that has several, and every token stands apart by one blank.
An empty primary prints nothing, so the blanks around it meet.
-/

namespace GrammarText.Iso

/-- The opening bracket of each kind. -/
def Bracket.opening : Bracket → Char
  | optional => '['
  | repeated => '\x7b'
  | grouped => '('

/-- The closing bracket of each kind. -/
def Bracket.closing : Bracket → Char
  | optional => ']'
  | repeated => '\x7d'
  | grouped => ')'

/-- Comments, each in its marks and with a blank after it. -/
def commentChars : List String → List Char
  | [] => []
  | comment :: more =>
    '(' :: '*' :: ' ' :: comment.toList ++ ' ' :: '*' :: ')' :: ' ' :: commentChars more

/-- A terminal in double quotes, or in single ones if it holds a double quote. -/
def terminalChars (text : List Char) : List Char :=
  let quote := if text.contains '"' then '\'' else '"'
  quote :: text ++ [quote]

mutual

/-- The characters of a term. -/
def Term.chars : Term → List Char
  | ⟨factor, none⟩ => factor.chars
  | ⟨factor, some exception⟩ => factor.chars ++ ' ' :: '-' :: ' ' :: exception.chars

/-- The characters of a factor. -/
def Factor.chars : Factor → List Char
  | ⟨comments, none, primary⟩ => commentChars comments ++ primary.chars
  | ⟨comments, some n, primary⟩ =>
    commentChars comments ++ Nat.toDigits 10 n ++ ' ' :: '*' :: ' ' :: primary.chars

/-- The characters of a primary. -/
def Primary.chars : Primary → List Char
  | .sequence bracket definitions =>
    bracket.opening :: ' ' :: DefinitionsList.chars definitions ++ [' ', bracket.closing]
  | .special text => '?' :: ' ' :: text.toList ++ [' ', '?']
  | .name text => text.toList
  | .terminal text => terminalChars text.toList
  | .empty => []

/-- The characters of a list of definitions. -/
def DefinitionsList.chars : List (List Term) → List Char
  | [] => []
  | [definition] => Definition.chars definition
  | definition :: more =>
    Definition.chars definition ++ ' ' :: '|' :: ' ' :: DefinitionsList.chars more

/-- The characters of a definition. -/
def Definition.chars : List Term → List Char
  | [] => []
  | [term] => term.chars
  | term :: more => term.chars ++ ' ' :: ',' :: ' ' :: Definition.chars more

end

/-- The characters of a rule. -/
def Rule.chars (rule : Rule) : List Char :=
  commentChars rule.comments ++ rule.name.toList ++
    ' ' :: '=' :: ' ' :: DefinitionsList.chars rule.definitions ++ [' ', ';']

/-- The characters of rules, a line for each. -/
def rulesChars : List Rule → List Char
  | [] => []
  | [rule] => rule.chars
  | rule :: more => rule.chars ++ '\n' :: rulesChars more

/-- The characters of a grammar. Comments after the last rule have a line of their own. -/
def Grammar.chars (grammar : Grammar) : List Char :=
  rulesChars grammar.rules ++
    match grammar.trailingComments with
    | [] => []
    | comments => '\n' :: commentChars comments

/-- The printed text of a term. -/
def Term.print (term : Term) : String := String.ofList term.chars

/-- The printed text of a factor. -/
def Factor.print (factor : Factor) : String := String.ofList factor.chars

/-- The printed text of a primary. -/
def Primary.print (primary : Primary) : String := String.ofList primary.chars

/-- The printed text of a definition. -/
def Definition.print (definition : Definition) : String :=
  String.ofList (Definition.chars definition)

/-- The printed text of a list of definitions. -/
def DefinitionsList.print (definitions : DefinitionsList) : String :=
  String.ofList (DefinitionsList.chars definitions)

/-- The printed text of a rule. -/
def Rule.print (rule : Rule) : String := String.ofList rule.chars

/-- The printed text of a grammar. -/
def Grammar.print (grammar : Grammar) : String := String.ofList grammar.chars

end GrammarText.Iso
