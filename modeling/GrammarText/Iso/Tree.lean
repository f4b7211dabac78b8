/-!
# Grammars in the notation of ISO/IEC 14977

A grammar is a list of rules. The right side of a rule is a list of definitions, of which any may be
chosen; a definition is a sequence of terms. Comments belong to the rule or the factor that they
stand before.
-/

namespace GrammarText.Iso

/-- The three kinds of brackets around a list of definitions. -/
inductive Bracket where
  /-- What stands inside may be left out. -/
  | optional
  /-- What stands inside may be left out or come any number of times. -/
  | repeated
  /-- What stands inside comes once. -/
  | grouped
deriving DecidableEq, Repr

mutual

/-- A factor, less whatever the exception matches. -/
structure Term where
  factor : Factor
  exception : Option Factor

/-- A primary, perhaps to be repeated a fixed number of times. -/
structure Factor where
  /-- The comments before the factor, and those around its count. -/
  comments : List String
  /-- The written count. A count of zero is not the same as no count. -/
  repetitions : Option Nat
  primary : Primary

/-- The smallest part of a definition. -/
inductive Primary where
  /-- A list of definitions in brackets. -/
  | sequence (bracket : Bracket) (definitions : List (List Term))
  /-- Text whose meaning is given outside the grammar. -/
  | special (text : String)
  /-- A reference to the rule of that name. -/
  | name (text : String)
  /-- The text itself. -/
  | terminal (text : String)
  | empty

end

/-- A sequence of terms, one after the other. -/
abbrev Definition := List Term

/-- Definitions of which any may be chosen. -/
abbrev DefinitionsList := List Definition

/-- A production rule. -/
structure Rule where
  /-- The name, without blanks. -/
  name : String
  /-- The line of the first character of the name. -/
  line : Nat
  /-- The comments before the rule, and those between the name and the defining symbol. -/
  comments : List String
  definitions : DefinitionsList

/-- A grammar. -/
structure Grammar where
  rules : List Rule
  /-- The comments after the last rule. -/
  trailingComments : List String

/-- A factor without comments and without a count. -/
def Factor.ofPrimary (primary : Primary) : Factor := ⟨[], none, primary⟩

/-! ## Equality -/

mutual

/-- Whether two terms are equal. -/
def Term.same : Term → Term → Bool
  | ⟨f, none⟩, ⟨g, none⟩ => f.same g
  | ⟨f, some e⟩, ⟨g, some d⟩ => f.same g && e.same d
  | _, _ => false

/-- Whether two factors are equal. -/
def Factor.same : Factor → Factor → Bool
  | ⟨cs, n, p⟩, ⟨ds, m, q⟩ => cs == ds && n == m && p.same q

/-- Whether two primaries are equal. -/
def Primary.same : Primary → Primary → Bool
  | .sequence a l, .sequence b m => a == b && DefinitionsList.same l m
  | .special s, .special t => s == t
  | .name s, .name t => s == t
  | .terminal s, .terminal t => s == t
  | .empty, .empty => true
  | _, _ => false

/-- Whether two lists of definitions are equal. -/
def DefinitionsList.same : List (List Term) → List (List Term) → Bool
  | [], [] => true
  | a :: l, b :: m => Definition.same a b && DefinitionsList.same l m
  | _, _ => false

/-- Whether two definitions are equal. -/
def Definition.same : List Term → List Term → Bool
  | [], [] => true
  | s :: l, t :: m => s.same t && Definition.same l m
  | _, _ => false

end

/-- Whether two rules are equal, their lines included. -/
def Rule.same (r s : Rule) : Bool :=
  r.name == s.name && r.line == s.line && r.comments == s.comments &&
    DefinitionsList.same r.definitions s.definitions

/-- Whether two grammars are equal, the lines of their rules included. -/
def Grammar.same (g h : Grammar) : Bool :=
  g.rules.length == h.rules.length && (g.rules.zip h.rules).all (fun (r, s) => r.same s) &&
    g.trailingComments == h.trailingComments

end GrammarText.Iso
