import GrammarText.Json.Record

/-!
# Fields of a record

What a record comes to follows from what its fields come to, and a record that is decoded has fields
that are. Both are said for one field at a time, whatever decodes its value.
-/

namespace GrammarText

/-! ## From the record to its fields -/

namespace Fields

variable {α β : Type}

theorem map_eq_decoded_iff {f : α → β} {fields : Fields α} {b : β} :
    f <$> fields = decoded b ↔ ∃ a, fields = decoded a ∧ f a = b := by
  cases fields with
  | decoded a => simp
  | faulty first more => exact ⟨(nomatch ·), fun ⟨_, h, _⟩ => nomatch h⟩

theorem decoded_seq_eq (f : α → β) (fields : Fields α) : decoded f <*> fields = f <$> fields := rfl

theorem seq_eq_decoded_iff {functions : Fields (α → β)} {fields : Fields α} {b : β} :
    functions <*> fields = decoded b ↔
      ∃ f a, functions = decoded f ∧ fields = decoded a ∧ f a = b := by
  cases functions with
  | decoded f =>
    rw [decoded_seq_eq, map_eq_decoded_iff]
    simp
  | faulty first more =>
    refine ⟨fun h => ?_, fun ⟨_, _, h, _⟩ => nomatch h⟩
    cases fields <;> cases h

theorem ofExcept_eq_decoded_iff {index : Nat} {key : String} {x : Except DecodeError α} {a : α} :
    ofExcept index key x = decoded a ↔ x = .ok a := by
  cases x <;> simp [ofExcept]

@[simp] theorem ofExcept_ok (index : Nat) (key : String) (value : α) :
    ofExcept index key (.ok value) = decoded value := rfl

@[simp] theorem ofExcept_error (index : Nat) (key : String) (e : DecodeError) :
    (ofExcept index key (.error e) : Fields α) = faulty ⟨index, key, some e⟩ [] := rfl

@[simp] theorem ofExcept_map (index : Nat) (key : String) (f : α → β) (x : Except DecodeError α) :
    ofExcept index key (f <$> x) = f <$> ofExcept index key x := by
  cases x <;> rfl

theorem map_seq_decoded {γ : Type} (f : α → β → γ) (fields : Fields α) (value : β) :
    f <$> fields <*> decoded value = (fun a => f a value) <$> fields := by
  cases fields <;> rfl

/-! A field that is faulty makes the record faulty. -/

@[simp] theorem map_faulty (f : α → β) (first : FieldFault) (more : List FieldFault) :
    f <$> faulty first more = faulty first more := rfl

@[simp] theorem decoded_seq_faulty (f : α → β) (first : FieldFault) (more : List FieldFault) :
    decoded f <*> faulty first more = faulty first more := rfl

@[simp] theorem faulty_seq_decoded (value : α) (first : FieldFault) (more : List FieldFault) :
    (faulty first more : Fields (α → β)) <*> decoded value = faulty first more := rfl

end Fields

namespace RecordKind

variable {α : Type} {kind : RecordKind}

theorem eq_decoded_of_conclude {json : Json} {fields : Fields α} {value : α}
    (h : kind.conclude json fields = .ok value) : fields = .decoded value := by
  unfold conclude at h
  split at h
  · cases h; rfl
  · cases h
  · split at h
    · cases h; rfl
    · cases h
  · cases h
  · cases h

@[simp] theorem conclude_object_decoded (members : List (String × Json)) (value : α) :
    kind.conclude (.object members) (.decoded value) = .ok value := rfl

@[simp] theorem conclude_object_faulty (members : List (String × Json)) (index : Nat)
    (key : String) (e : DecodeError) :
    kind.conclude (.object members) (.faulty ⟨index, key, some e⟩ [] : Fields α) = .error e := rfl

end RecordKind

namespace Json

variable {α : Type} {json : Json} {index : Nat} {key : String}
  {decode : json.Inner → Except DecodeError α}

theorem exists_of_required {a : α} (h : json.required index key decode = .decoded a) :
    ∃ value, decode value = .ok a := by
  unfold required at h
  split at h
  · next value _ => exact ⟨value, Fields.ofExcept_eq_decoded_iff.1 h⟩
  · cases h

/-- What a field holds that may be left out has been decoded from some value. -/
theorem exists_of_optional {a? : Option α} (h : json.optional index key decode = .decoded a?) :
    ∀ a ∈ a?, ∃ value, decode value = .ok a := by
  unfold optional at h
  split at h
  · cases h; simp
  · next value _ _ =>
    have hs := Fields.ofExcept_eq_decoded_iff.1 h
    cases hv : decode value with
    | error e => rw [hv] at hs; cases hs
    | ok a =>
      rw [hv] at hs
      cases hs
      rintro _ ⟨⟩
      exact ⟨value, hv⟩
  · cases h; simp

/-! ## From the fields to the record -/

section Members

variable {v : Json}

theorem required_of_member? (h : json.member? index key = some v) :
    json.required index key decode =
      .ofExcept index key (decode ⟨v, sizeOf_lt_of_member? h⟩) := by
  rw [required, part?_eq_some h]

theorem withStandard_of_member? {standard : α} (h : json.member? index key = some v) :
    json.withStandard index key standard decode =
      .ofExcept index key (decode ⟨v, sizeOf_lt_of_member? h⟩) := by
  rw [withStandard, part?_eq_some h]

theorem withStandard_of_absent {standard : α} (h : json.member? index key = none) :
    json.withStandard index key standard decode = .decoded standard := by
  rw [withStandard, part?_eq_none h]

theorem optional_of_member? (h : json.member? index key = some v) (hn : v ≠ .null) :
    json.optional index key decode =
      .ofExcept index key (some <$> decode ⟨v, sizeOf_lt_of_member? h⟩) := by
  rw [optional, part?_eq_some h]
  split
  · next hv => cases hv; exact absurd rfl hn
  · next hv => cases hv; rfl
  · next hv => cases hv

theorem optional_of_absent (h : json.member? index key = none) :
    json.optional index key decode = .decoded none := by
  rw [optional, part?_eq_none h]

end Members

end Json

end GrammarText
