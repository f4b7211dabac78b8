import GrammarText.Iso.JsonForm
import GrammarText.Iso.Printer
import GrammarText.Iso.Reader
import GrammarText.W3c.JsonForm
import GrammarText.W3c.Printer
import GrammarText.W3c.Reader

/-!
# Grammars in either notation

A dialect is chosen by its name. What is done with the grammar afterwards does not depend on the
choice.
-/

namespace GrammarText

/-- A notation for grammars. -/
inductive Dialect where
  /-- The notation of ISO/IEC 14977. -/
  | iso
  /-- The notation of the XML recommendations. -/
  | w3c
deriving DecidableEq, Repr

/-- A name that is not the name of a dialect. -/
structure UnknownDialect where
  /-- The name, in lower case. -/
  name : String
deriving DecidableEq, Repr

/-- The text shown to a person. -/
def UnknownDialect.message (unknown : UnknownDialect) : String :=
  "unknown dialect: " ++ unknown.name

namespace Dialect

/-- The name of a dialect. -/
def name : Dialect → String
  | iso => "iso"
  | w3c => "w3c"

/-- The dialect of that name, in which the case of ASCII letters does not count. -/
def ofName (name : String) : Except UnknownDialect Dialect :=
  match name.map Char.toLower with
  | "iso" => .ok iso
  | "w3c" => .ok w3c
  | lower => .error ⟨lower⟩

end Dialect

/-- A grammar in either notation. -/
inductive Grammar where
  | iso (grammar : Iso.Grammar)
  | w3c (grammar : W3c.Grammar)

namespace Grammar

/-- Reads a text as a grammar in the given notation. -/
def parse (dialect : Dialect) (text : String) : Except Diagnostic Grammar :=
  match dialect with
  | .iso => (Iso.Grammar.parse text).map iso
  | .w3c => (W3c.Grammar.parse text).map w3c

/-- The printed text of a grammar. -/
def print : Grammar → String
  | iso grammar => grammar.print
  | w3c grammar => grammar.print

/-- Encodes a grammar. -/
def toJson : Grammar → Json
  | iso grammar => grammar.toJson
  | w3c grammar => grammar.toJson

/-- Whether two grammars are equal, the lines of their rules included. -/
def same : Grammar → Grammar → Bool
  | iso g, iso h => g.same h
  | w3c g, w3c h => g.same h
  | _, _ => false

end Grammar

end GrammarText
