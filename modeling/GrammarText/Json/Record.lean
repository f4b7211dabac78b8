import GrammarText.Json.DecodeError

/-!
# Decoding records

A record is written as an object, or as the array of its fields in their order. All fields are
decoded, and of what is wrong with them one thing is reported: in an object first what is wrong with
a value that is there, the least key first, then a field that is missing; in an array whatever comes
first.
-/

namespace GrammarText

/-- What is wrong with one field of a record. -/
structure FieldFault where
  /-- The place of the field among the fields of the record. -/
  index : Nat
  key : String
  /-- Why its value cannot be decoded, or `none` if there is no value. -/
  cause : Option DecodeError

/-- Whether what is wrong with `a` is told rather than what is wrong with `b`, where both belong to
one object. -/
def FieldFault.leads (a b : FieldFault) : Bool :=
  match a.cause, b.cause with
  | some _, some _ => a.key < b.key
  | some _, none => true
  | none, some _ => false
  | none, none => a.index < b.index

/-- What some fields of a record come to: their values, or what is wrong with at least one of them.
The faults stand in the order of the fields. -/
inductive Fields (α : Type) where
  | decoded (value : α)
  | faulty (first : FieldFault) (more : List FieldFault)

namespace Fields

variable {α β : Type}

/-- Applies a function to the values. -/
def map (f : α → β) : Fields α → Fields β
  | decoded value => decoded (f value)
  | faulty first more => faulty first more

/-- Puts the values of more fields to those of some. -/
def seq : Fields (α → β) → Fields α → Fields β
  | decoded f, fields => fields.map f
  | faulty first more, decoded _ => faulty first more
  | faulty first more, faulty next others => faulty first (more ++ next :: others)

instance : Applicative Fields where
  pure := decoded
  map := map
  seq f fields := seq f (fields ())

@[simp] theorem map_decoded (f : α → β) (value : α) :
    f <$> decoded value = decoded (f value) := rfl

@[simp] theorem decoded_seq (f : α → β) (value : α) :
    decoded f <*> decoded value = decoded (f value) := rfl

/-- One field, from what decoding its value gives. -/
def ofExcept (index : Nat) (key : String) : Except DecodeError α → Fields α
  | .ok value => decoded value
  | .error e => faulty ⟨index, key, some e⟩ []

end Fields

namespace Json

variable {α : Type}

/-- A field without which the record cannot be. -/
def required (json : Json) (index : Nat) (key : String)
    (decode : json.Inner → Except DecodeError α) : Fields α :=
  match json.part? index key with
  | some value => .ofExcept index key (decode value)
  | none => .faulty ⟨index, key, none⟩ []

/-- A field that has the value `standard` where it is left out. -/
def withStandard (json : Json) (index : Nat) (key : String) (standard : α)
    (decode : json.Inner → Except DecodeError α) : Fields α :=
  match json.part? index key with
  | some value => .ofExcept index key (decode value)
  | none => .decoded standard

/-- A field that may be left out or null. -/
def optional (json : Json) (index : Nat) (key : String)
    (decode : json.Inner → Except DecodeError α) : Fields (Option α) :=
  match json.part? index key with
  | some ⟨null, _⟩ => .decoded none
  | some value => .ofExcept index key (some <$> decode value)
  | none => .decoded none

end Json

/-- A kind of record. -/
structure RecordKind where
  name : String
  /-- The number of its fields. -/
  size : Nat

/-- The record that `json` is, from what its fields come to. -/
def RecordKind.conclude {α : Type} (kind : RecordKind) (json : Json) (fields : Fields α) :
    Except DecodeError α :=
  match json, fields with
  | .object _, .decoded value => .ok value
  | .object _, .faulty first more =>
    let fault := more.foldl (fun a b => if b.leads a then b else a) first
    .error (fault.cause.getD (.missingField fault.key))
  | .array items, .decoded value =>
    if items.length ≤ kind.size then .ok value else .error (.tooLong items.length)
  | .array _, .faulty first _ =>
    .error (first.cause.getD (.tooShort first.index kind.name kind.size))
  | json, _ => .error (.wrongType json (.record kind.name))

end GrammarText
