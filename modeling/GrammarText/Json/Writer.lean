import GrammarText.Decimal.Shortest
import GrammarText.Json.Value

/-!
# Writing JSON

The compact form has no blanks. The pretty form has a line for every element, each level indented by
two blanks; an empty array or object stays on its line.
-/

namespace GrammarText

/-- A digit of base sixteen, in lower case. -/
def hexDigit (n : Nat) : Char := Nat.digitChar n

/-- A character of a JSON string. Quotes, backslashes and control characters are escaped. -/
def escapeInJson (c : Char) : List Char :=
  match c with
  | '"' => ['\\', '"']
  | '\\' => ['\\', '\\']
  | '\x08' => ['\\', 'b']
  | '\x0c' => ['\\', 'f']
  | '\n' => ['\\', 'n']
  | '\r' => ['\\', 'r']
  | '\t' => ['\\', 't']
  | c =>
    if c.toNat < 0x20 then
      ['\\', 'u', '0', '0', hexDigit (c.toNat / 16), hexDigit (c.toNat % 16)]
    else [c]

/-- A text as a JSON string. -/
def quoteInJson (text : String) : String :=
  String.ofList ('"' :: text.toList.flatMap escapeInJson ++ ['"'])

/-- An exponent of ten, which always has a sign. -/
def exponentText (n : Int) : List Char :=
  'e' :: (if n < 0 then '-' else '+') :: Nat.toDigits 10 n.natAbs

/-- A decimal as it is written in JSON: with a point if the point stands at most sixteen digits from
the start or four before it, otherwise with an exponent. There is always a digit after a point. -/
def Decimal.text (d : Decimal) : List Char :=
  let digits := Nat.toDigits 10 d.digits
  let point := digits.length + d.exponent
  if 0 ≤ d.exponent ∧ point ≤ 16 then
    digits ++ List.replicate d.exponent.toNat '0' ++ ['.', '0']
  else if 0 < point ∧ point ≤ 16 then digits.take point.toNat ++ '.' :: digits.drop point.toNat
  else if -5 < point ∧ point ≤ 0 then '0' :: '.' :: List.replicate (-point).toNat '0' ++ digits
  else
    let fraction := if digits.length = 1 then [] else '.' :: digits.drop 1
    digits.take 1 ++ fraction ++ exponentText (point - 1)

/-- A finite floating-point number with the fewest digits that read back. -/
def floatText (x : Float) : String :=
  let sign := if 0x8000000000000000 ≤ x.toBits then ['-'] else []
  String.ofList (sign ++ if x == 0 then ['0', '.', '0'] else (Decimal.shortest x).text)

namespace Json

mutual

/-- Writes the compact form of a value after `out`. -/
def writeCompact (out : String) : Json → String
  | null => out ++ "null"
  | bool b => out ++ toString b
  | integer n => out ++ toString n
  | float x => out ++ floatText x
  | string text => out ++ quoteInJson text
  | array items => (writeCompactItems (out.push '[') items).push ']'
  | object fields => (writeCompactFields (out.push '\x7b') fields).push '\x7d'

/-- Writes values with commas between them. -/
def writeCompactItems (out : String) : List Json → String
  | [] => out
  | [item] => writeCompact out item
  | item :: more => writeCompactItems ((writeCompact out item).push ',') more

/-- Writes named values with commas between them. -/
def writeCompactFields (out : String) : List (String × Json) → String
  | [] => out
  | [(name, value)] => writeCompact (out ++ quoteInJson name ++ ":") value
  | (name, value) :: more =>
    writeCompactFields ((writeCompact (out ++ quoteInJson name ++ ":") value).push ',') more

end

/-- Starts a new line at the given depth. -/
def newLine (depth : Nat) (out : String) : String := (out.push '\n').pushn ' ' (2 * depth)

mutual

/-- Writes the pretty form of a value, which stands at the given depth, after `out`. -/
def writePretty (depth : Nat) (out : String) : Json → String
  | null => out ++ "null"
  | bool b => out ++ toString b
  | integer n => out ++ toString n
  | float x => out ++ floatText x
  | string text => out ++ quoteInJson text
  | array [] => out ++ "[]"
  | array items => (newLine depth (writePrettyItems (depth + 1) (out.push '[') items)).push ']'
  | object [] => (out.push '\x7b').push '\x7d'
  | object fields =>
    (newLine depth (writePrettyFields (depth + 1) (out.push '\x7b') fields)).push '\x7d'

/-- Writes values, each on a line of its own. -/
def writePrettyItems (depth : Nat) (out : String) : List Json → String
  | [] => out
  | [item] => writePretty depth (newLine depth out) item
  | item :: more =>
    writePrettyItems depth ((writePretty depth (newLine depth out) item).push ',') more

/-- Writes named values, each on a line of its own. -/
def writePrettyFields (depth : Nat) (out : String) : List (String × Json) → String
  | [] => out
  | [(name, value)] => writePretty depth (newLine depth out ++ quoteInJson name ++ ": ") value
  | (name, value) :: more =>
    writePrettyFields depth
      ((writePretty depth (newLine depth out ++ quoteInJson name ++ ": ") value).push ',') more

end

/-- The compact form of a value. -/
def compact (json : Json) : String := json.writeCompact ""

/-- The pretty form of a value. -/
def pretty (json : Json) : String := json.writePretty 0 ""

end Json

end GrammarText
