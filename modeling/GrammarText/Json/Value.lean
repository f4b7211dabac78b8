/-!
# JSON values

Objects keep the order in which their fields are written.
-/

namespace GrammarText

/-- A JSON value. -/
inductive Json where
  | null
  | bool (b : Bool)
  /-- A number written without a point and without an exponent. -/
  | integer (n : Int)
  /-- Any other number. -/
  | float (x : Float)
  | string (text : String)
  | array (items : List Json)
  | object (fields : List (String × Json))

namespace Json

/-- A natural number. -/
def ofNat (n : Nat) : Json := integer n

/-- A row of texts. -/
def ofStrings (texts : List String) : Json := array (texts.map string)

/-- The field of that name in a list of fields. -/
def lookup (key : String) : List (String × Json) → Option Json
  | [] => none
  | (name, value) :: more => if name = key then some value else lookup key more

/-- The part of a record that comes at that place in an array, or has that name in an object. -/
def member? (index : Nat) (key : String) : Json → Option Json
  | object fields => lookup key fields
  | array items => items[index]?
  | _ => none

theorem sizeOf_lt_of_lookup {key : String} {fields : List (String × Json)} {value : Json}
    (h : lookup key fields = some value) : sizeOf value < sizeOf fields := by
  induction fields with
  | nil => cases h
  | cons field more ih =>
    obtain ⟨name, v⟩ := field
    simp only [lookup] at h
    split at h
    · cases h; simp +arith
    · have := ih h; simp; omega

theorem sizeOf_lt_of_member? {index : Nat} {key : String} {json value : Json}
    (h : json.member? index key = some value) : sizeOf value < sizeOf json := by
  cases json with
  | object fields => have := sizeOf_lt_of_lookup h; simp; omega
  | array items => have := List.sizeOf_lt_of_mem (List.mem_of_getElem? h); simp; omega
  | _ => cases h

/-- A value that is smaller than `json`, as every value within it is. -/
abbrev Inner (json : Json) : Type := { value : Json // sizeOf value < sizeOf json }

/-- The part of a record that comes at that place in an array, or has that name in an object,
together with the fact that it is smaller than the record. -/
def part? (json : Json) (index : Nat) (key : String) : Option json.Inner :=
  match h : json.member? index key with
  | some value => some ⟨value, sizeOf_lt_of_member? h⟩
  | none => none

theorem part?_eq_some {json : Json} {index : Nat} {key : String} {value : Json}
    (h : json.member? index key = some value) :
    json.part? index key = some ⟨value, sizeOf_lt_of_member? h⟩ := by
  unfold part?
  split
  · next h' => cases h.symm.trans h'; rfl
  · next h' => cases h.symm.trans h'

theorem part?_eq_none {json : Json} {index : Nat} {key : String}
    (h : json.member? index key = none) : json.part? index key = none := by
  unfold part?
  split
  · next h' => cases h.symm.trans h'
  · rfl

end Json

end GrammarText
