import GrammarText.Json.Writer
import GrammarText.Lexis.Word
import GrammarText.Text.Escaped

/-!
# Why a JSON value is not a tree

The causes, and their wording.
-/

namespace GrammarText

/-- What a decoder asks of a JSON value. -/
inductive Wanted where
  | string
  | boolean
  | sequence
  /-- A number that is a line or a count. -/
  | natural
  | record (name : String)

/-- The wording of what is asked. -/
def Wanted.message : Wanted → String
  | string => "a string"
  | boolean => "a boolean"
  | sequence => "a sequence"
  | natural => "usize"
  | record name => "struct " ++ name

/-- A short text that tells a value apart from others. Rows and objects are named without what they
hold. -/
def Json.describe : Json → String
  | null => "null"
  | bool b => "boolean `" ++ toString b ++ "`"
  | integer n => "integer `" ++ toString n ++ "`"
  | float x => "floating point `" ++ floatText x ++ "`"
  | string text => "string " ++ quoteInMessage text
  | array _ => "sequence"
  | object _ => "map"

/-- Why a JSON value is not a tree. -/
inductive DecodeError where
  /-- The value is of another kind. -/
  | wrongType (found : Json) (wanted : Wanted)
  /-- A line or a count is below zero, or takes more than 64 bits. -/
  | outOfRange (n : Int)
  | missingField (key : String)
  /-- A row that stands for a record ends before a field without which the record cannot be. -/
  | tooShort (length : Nat) (record : String) (size : Nat)
  /-- A row that stands for a record goes on after the last field. -/
  | tooLong (length : Nat)
  /-- A primary is not exactly one thing. -/
  | notOnePrimary (found : Nat)
  | noDefinition
  | noTerm
  /-- An expression is not exactly one thing. -/
  | notOneContent (found : Nat)
  /-- A list or a choice is empty. -/
  | noOperand
  /-- An expression has two or three marks for how often it comes. -/
  | manyOccurrences

/-- The wording of an error. -/
def DecodeError.message : DecodeError → String
  | wrongType found wanted => "invalid type: " ++ found.describe ++ ", expected " ++ wanted.message
  | outOfRange n =>
    "invalid value: " ++ (Json.integer n).describe ++ ", expected " ++ Wanted.natural.message
  | missingField key => "missing field `" ++ key ++ "`"
  | tooShort length record size =>
    "invalid length " ++ toString length ++ ", expected " ++ (Wanted.record record).message ++
      " with " ++ toString size ++ (if size = 1 then " element" else " elements")
  | tooLong length => "invalid length " ++ toString length ++ ", expected fewer elements in array"
  | notOnePrimary found => "primary must populate exactly one variant, found " ++ toString found
  | noDefinition => "definitions list must hold at least one definition"
  | noTerm => "definition must hold at least one term"
  | notOneContent found => "expression must populate exactly one kind, found " ++ toString found
  | noOperand => "list and alternate must hold at least one expression"
  | manyOccurrences => "expression has more than one repetition suffix"

namespace Json

/-- Decodes a text. -/
def asString : Json → Except DecodeError String
  | string text => .ok text
  | json => .error (.wrongType json .string)

/-- Decodes a truth value. -/
def asBool : Json → Except DecodeError Bool
  | bool b => .ok b
  | json => .error (.wrongType json .boolean)

/-- Decodes a line or a count. -/
def asNat : Json → Except DecodeError Nat
  | integer (.ofNat n) => if n < countBound then .ok n else .error (.outOfRange n)
  | integer n => .error (.outOfRange n)
  | json => .error (.wrongType json .natural)

/-- Decodes a row of values, which are left as they are. -/
def asArray : Json → Except DecodeError (List Json)
  | array items => .ok items
  | json => .error (.wrongType json .sequence)

/-- Decodes a row of texts. -/
def asStrings (json : Json) : Except DecodeError (List String) := do
  let items ← json.asArray
  items.mapM asString

end Json

end GrammarText
