import GrammarText.Json.Record
import GrammarText.W3c.Tree

/-!
# W3C grammars as JSON

An expression is an object with one field for what it is made of, and one more field with the value
true for its mark for repetition and for its parentheses. Decoding refuses lists and choices without
operands.
-/

namespace GrammarText.W3c

/-! ## Encoding -/

/-- The field for how often an expression comes. -/
def Occurrence.field : Occurrence → List (String × Json)
  | once => []
  | optional => [("optional", .bool true)]
  | oneOrMore => [("oneOrMore", .bool true)]
  | zeroOrMore => [("zeroOrMore", .bool true)]

/-- The field for parentheses. -/
def groupedField : Bool → List (String × Json)
  | false => []
  | true => [("grouped", .bool true)]

mutual

/-- Encodes an expression. -/
def Expression.toJson : Expression → Json
  | ⟨content, occurrence, grouped⟩ =>
    .object (content.field :: (occurrence.field ++ groupedField grouped))

/-- The field for what an expression is made of. -/
def Content.field : Content → String × Json
  | .literal text => ("literal", .string text)
  | .symbol name => ("symbol", .string name)
  | .characterSet text => ("characterSet", .string text)
  | .list items => ("list", .array (Expression.toJsons items))
  | .alternate arms => ("alternate", .array (Expression.toJsons arms))
  | .exception minuend subtrahend =>
    ("exception", .object [("match", minuend.toJson), ("except", subtrahend.toJson)])

/-- Encodes operands. -/
def Expression.toJsons : List Expression → List Json
  | [] => []
  | e :: more => e.toJson :: Expression.toJsons more

end

/-- Encodes a rule. -/
def Rule.toJson (rule : Rule) : Json :=
  .object [("symbol", .string rule.symbol), ("line", .ofNat rule.line),
    ("expression", rule.expression.toJson)]

/-- Encodes a grammar. -/
def Grammar.toJson (grammar : Grammar) : Json :=
  .object [("rules", .array (grammar.rules.map Rule.toJson))]

/-! ## Decoding -/

/-- The occurrence that at most one of three flags names. -/
def Occurrence.ofFlags? : Bool → Bool → Bool → Option Occurrence
  | false, false, false => some once
  | true, false, false => some optional
  | false, true, false => some oneOrMore
  | false, false, true => some zeroOrMore
  | _, _, _ => none

/-- What the fields of an expression say. -/
structure ExpressionFields where
  /-- All that the expression is said to be made of. -/
  contents : List Content
  occurrence : Option Occurrence
  grouped : Bool

/-- Whether an operand is missing: a list or a choice has none. -/
def Content.lacksOperand : Content → Bool
  | .list [] => true
  | .alternate [] => true
  | _ => false

/-- The expression that its fields describe. -/
def ExpressionFields.expression (fields : ExpressionFields) : Except DecodeError Expression :=
  match fields.contents with
  | [content] =>
    if content.lacksOperand then .error .noOperand
    else
      match fields.occurrence with
      | some occurrence => .ok ⟨content, occurrence, fields.grouped⟩
      | none => .error .manyOccurrences
  | contents => .error (.notOneContent contents.length)

mutual

/-- Decodes an expression. -/
def Expression.ofJson (json : Json) : Except DecodeError Expression := do
  let fields ← RecordKind.conclude ⟨"ExpressionRepr", 10⟩ json <|
    (fun literal symbol characterSet list alternate exception
        optional oneOrMore zeroOrMore grouped =>
      { contents :=
          [literal.map Content.literal, symbol.map .symbol, characterSet.map .characterSet,
            list.map .list, alternate.map .alternate, exception].filterMap id
        occurrence := Occurrence.ofFlags? optional oneOrMore zeroOrMore
        grouped := grouped : ExpressionFields })
      <$> json.optional 0 "literal" (fun value => value.1.asString)
      <*> json.optional 1 "symbol" (fun value => value.1.asString)
      <*> json.optional 2 "characterSet" (fun value => value.1.asString)
      <*> json.optional 3 "list" (fun value => Expression.rowOfJson value)
      <*> json.optional 4 "alternate" (fun value => Expression.rowOfJson value)
      <*> json.optional 5 "exception" (fun value => Content.exceptionOfJson value)
      <*> json.withStandard 6 "optional" false (fun value => value.1.asBool)
      <*> json.withStandard 7 "oneOrMore" false (fun value => value.1.asBool)
      <*> json.withStandard 8 "zeroOrMore" false (fun value => value.1.asBool)
      <*> json.withStandard 9 "grouped" false (fun value => value.1.asBool)
  fields.expression
termination_by sizeOf json
decreasing_by all_goals exact value.2

/-- Decodes an exception. -/
def Content.exceptionOfJson (json : Json) : Except DecodeError Content :=
  RecordKind.conclude ⟨"ExceptionRepr", 2⟩ json <|
    Content.exception
      <$> json.required 0 "match" (fun value => Expression.ofJson value)
      <*> json.required 1 "except" (fun value => Expression.ofJson value)
termination_by sizeOf json
decreasing_by all_goals exact value.2

/-- Decodes a row of operands. -/
def Expression.rowOfJson (json : Json) : Except DecodeError (List Expression) :=
  match json with
  | .array items => Expression.ofJsons items
  | json => .error (.wrongType json .sequence)
termination_by sizeOf json

/-- Decodes operands. -/
def Expression.ofJsons (items : List Json) : Except DecodeError (List Expression) :=
  match items with
  | [] => .ok []
  | item :: more => do
    let e ← Expression.ofJson item
    let es ← Expression.ofJsons more
    return e :: es
termination_by sizeOf items

end

/-- Decodes a rule. -/
def Rule.ofJson (json : Json) : Except DecodeError Rule :=
  RecordKind.conclude ⟨"Rule", 3⟩ json <|
    Rule.mk
      <$> json.required 0 "symbol" (fun value => value.1.asString)
      <*> json.required 1 "line" (fun value => value.1.asNat)
      <*> json.required 2 "expression" (fun value => Expression.ofJson value)

/-- Decodes a grammar. -/
def Grammar.ofJson (json : Json) : Except DecodeError Grammar :=
  RecordKind.conclude ⟨"Syntax", 1⟩ json <|
    Grammar.mk <$> json.required 0 "rules" (fun value => do (← value.1.asArray).mapM Rule.ofJson)

end GrammarText.W3c
