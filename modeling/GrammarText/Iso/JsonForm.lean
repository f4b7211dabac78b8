import GrammarText.Iso.Tree
import GrammarText.Json.Record

/-!
# ISO grammars as JSON

Every node is an object whose fields are written in a fixed order; a field that would say nothing is
left out. A primary is an object with one field, which tells its kind. Decoding refuses lists of
definitions and definitions that are empty.
-/

namespace GrammarText.Iso

/-! ## Encoding -/

/-- The field for comments, if there are any. -/
def commentsField (key : String) : List String → List (String × Json)
  | [] => []
  | comments => [(key, .ofStrings comments)]

/-- The field for a count, if there is one. -/
def repetitionsField : Option Nat → List (String × Json)
  | none => []
  | some n => [("repetitions", .ofNat n)]

/-- The name of the field for a bracket of each kind. -/
def Bracket.key : Bracket → String
  | optional => "optionalSequence"
  | repeated => "repeatedSequence"
  | grouped => "groupedSequence"

mutual

/-- Encodes a term. -/
def Term.toJson : Term → Json
  | ⟨factor, none⟩ => .object [("factor", factor.toJson)]
  | ⟨factor, some exception⟩ =>
    .object [("factor", factor.toJson), ("exception", exception.toJson)]

/-- Encodes a factor. -/
def Factor.toJson : Factor → Json
  | ⟨comments, repetitions, primary⟩ =>
    .object (commentsField "comments" comments ++ repetitionsField repetitions ++
      [("primary", primary.toJson)])

/-- Encodes a primary. -/
def Primary.toJson : Primary → Json
  | .sequence bracket definitions =>
    .object [(bracket.key, .array (DefinitionsList.toJsons definitions))]
  | .special text => .object [("specialSequence", .string text)]
  | .name text => .object [("metaIdentifier", .string text)]
  | .terminal text => .object [("terminal", .string text)]
  | .empty => .object [("empty", .bool true)]

/-- Encodes the definitions of a list. -/
def DefinitionsList.toJsons : List (List Term) → List Json
  | [] => []
  | definition :: more => .array (Definition.toJsons definition) :: DefinitionsList.toJsons more

/-- Encodes the terms of a definition. -/
def Definition.toJsons : List Term → List Json
  | [] => []
  | term :: more => term.toJson :: Definition.toJsons more

end

/-- Encodes a list of definitions. -/
def DefinitionsList.toJson (definitions : DefinitionsList) : Json :=
  .array (DefinitionsList.toJsons definitions)

/-- Encodes a definition. -/
def Definition.toJson (definition : Definition) : Json := .array (Definition.toJsons definition)

/-- Encodes a rule. -/
def Rule.toJson (rule : Rule) : Json :=
  .object ([("metaIdentifier", .string rule.name), ("line", .ofNat rule.line)] ++
    commentsField "comments" rule.comments ++
    [("definitionsList", DefinitionsList.toJson rule.definitions)])

/-- Encodes a grammar. -/
def Grammar.toJson (grammar : Grammar) : Json :=
  .object (("rules", .array (grammar.rules.map Rule.toJson)) ::
    commentsField "trailingComments" grammar.trailingComments)

/-! ## Decoding -/

mutual

/-- Decodes a term. -/
def Term.ofJson (json : Json) : Except DecodeError Term :=
  RecordKind.conclude ⟨"Term", 2⟩ json <|
    Term.mk
      <$> json.required 0 "factor" (fun value => Factor.ofJson value)
      <*> json.optional 1 "exception" (fun value => Factor.ofJson value)
termination_by sizeOf json
decreasing_by all_goals exact value.2

/-- Decodes a factor. -/
def Factor.ofJson (json : Json) : Except DecodeError Factor :=
  RecordKind.conclude ⟨"Factor", 3⟩ json <|
    Factor.mk
      <$> json.withStandard 0 "comments" [] (fun value => value.1.asStrings)
      <*> json.optional 1 "repetitions" (fun value => value.1.asNat)
      <*> json.required 2 "primary" (fun value => Primary.ofJson value)
termination_by sizeOf json
decreasing_by exact value.2

/-- Decodes a primary. -/
def Primary.ofJson (json : Json) : Except DecodeError Primary := do
  let found ← RecordKind.conclude ⟨"PrimaryRepr", 7⟩ json <|
    (fun optional repeated special grouped name terminal empty =>
      [optional.map (Primary.sequence .optional), repeated.map (.sequence .repeated),
        special.map .special, grouped.map (.sequence .grouped), name.map .name,
        terminal.map .terminal, if empty then some .empty else none].filterMap id)
      <$> json.optional 0 "optionalSequence" (fun value => DefinitionsList.ofJson value)
      <*> json.optional 1 "repeatedSequence" (fun value => DefinitionsList.ofJson value)
      <*> json.optional 2 "specialSequence" (fun value => value.1.asString)
      <*> json.optional 3 "groupedSequence" (fun value => DefinitionsList.ofJson value)
      <*> json.optional 4 "metaIdentifier" (fun value => value.1.asString)
      <*> json.optional 5 "terminal" (fun value => value.1.asString)
      <*> json.withStandard 6 "empty" false (fun value => value.1.asBool)
  match found with
  | [primary] => .ok primary
  | found => .error (.notOnePrimary found.length)
termination_by sizeOf json
decreasing_by all_goals exact value.2

/-- Decodes a list of definitions, which is not empty. -/
def DefinitionsList.ofJson (json : Json) : Except DecodeError (List (List Term)) :=
  match json with
  | .array [] => .error .noDefinition
  | .array items => DefinitionsList.ofJsons items
  | json => .error (.wrongType json .sequence)
termination_by sizeOf json

/-- Decodes definitions. -/
def DefinitionsList.ofJsons (items : List Json) : Except DecodeError (List (List Term)) :=
  match items with
  | [] => .ok []
  | item :: more => do
    let definition ← Definition.ofJson item
    let definitions ← DefinitionsList.ofJsons more
    return definition :: definitions
termination_by sizeOf items

/-- Decodes a definition, which is not empty. -/
def Definition.ofJson (json : Json) : Except DecodeError (List Term) :=
  match json with
  | .array [] => .error .noTerm
  | .array items => Definition.ofJsons items
  | json => .error (.wrongType json .sequence)
termination_by sizeOf json

/-- Decodes terms. -/
def Definition.ofJsons (items : List Json) : Except DecodeError (List Term) :=
  match items with
  | [] => .ok []
  | item :: more => do
    let term ← Term.ofJson item
    let terms ← Definition.ofJsons more
    return term :: terms
termination_by sizeOf items

end

/-- Decodes a rule. -/
def Rule.ofJson (json : Json) : Except DecodeError Rule :=
  RecordKind.conclude ⟨"Rule", 4⟩ json <|
    Rule.mk
      <$> json.required 0 "metaIdentifier" (fun value => value.1.asString)
      <*> json.required 1 "line" (fun value => value.1.asNat)
      <*> json.withStandard 2 "comments" [] (fun value => value.1.asStrings)
      <*> json.required 3 "definitionsList" (fun value => DefinitionsList.ofJson value)

/-- Decodes a grammar. -/
def Grammar.ofJson (json : Json) : Except DecodeError Grammar :=
  RecordKind.conclude ⟨"Syntax", 2⟩ json <|
    Grammar.mk
      <$> json.required 0 "rules" (fun value => do (← value.1.asArray).mapM Rule.ofJson)
      <*> json.withStandard 1 "trailingComments" [] (fun value => value.1.asStrings)

end GrammarText.Iso
