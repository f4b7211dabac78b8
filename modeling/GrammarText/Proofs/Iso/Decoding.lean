import GrammarText.Iso.JsonForm
import GrammarText.Proofs.Json.ReadBack
import GrammarText.Proofs.Lexis.Run

/-!
# Decoding what has been encoded

A tree is filled if no list of definitions and no definition in it is empty, and bounded if its
lines and counts take at most 64 bits. A tree that is both is decoded from what it is encoded to,
any other is refused, and whatever is decoded is filled and bounded.
-/

namespace GrammarText.Iso

/-! ## Filled trees -/

mutual

/-- No list of definitions and no definition in the term is empty. -/
def Term.isFilled : Term → Bool
  | ⟨factor, none⟩ => factor.isFilled
  | ⟨factor, some exception⟩ => factor.isFilled && exception.isFilled

def Factor.isFilled : Factor → Bool
  | ⟨_, _, primary⟩ => primary.isFilled

def Primary.isFilled : Primary → Bool
  | .sequence _ definitions => !definitions.isEmpty && DefinitionsList.allFilled definitions
  | .special _ | .name _ | .terminal _ | .empty => true

def DefinitionsList.allFilled : List (List Term) → Bool
  | [] => true
  | definition :: more =>
    !definition.isEmpty && Definition.allFilled definition && DefinitionsList.allFilled more

def Definition.allFilled : List Term → Bool
  | [] => true
  | term :: more => term.isFilled && Definition.allFilled more

end

def Definition.isFilled (definition : Definition) : Bool :=
  !definition.isEmpty && Definition.allFilled definition

def DefinitionsList.isFilled (definitions : DefinitionsList) : Bool :=
  !definitions.isEmpty && DefinitionsList.allFilled definitions

def Rule.isFilled (rule : Rule) : Bool := DefinitionsList.isFilled rule.definitions

def Grammar.isFilled (grammar : Grammar) : Bool := grammar.rules.all Rule.isFilled

/-! ## Bounded trees -/

mutual

/-- The counts in the term take at most 64 bits. -/
def Term.isBounded : Term → Bool
  | ⟨factor, none⟩ => factor.isBounded
  | ⟨factor, some exception⟩ => factor.isBounded && exception.isBounded

def Factor.isBounded : Factor → Bool
  | ⟨_, count, primary⟩ => count.all (· < countBound) && primary.isBounded

def Primary.isBounded : Primary → Bool
  | .sequence _ definitions => DefinitionsList.isBounded definitions
  | .special _ | .name _ | .terminal _ | .empty => true

def DefinitionsList.isBounded : List (List Term) → Bool
  | [] => true
  | definition :: more => Definition.isBounded definition && DefinitionsList.isBounded more

def Definition.isBounded : List Term → Bool
  | [] => true
  | term :: more => term.isBounded && Definition.isBounded more

end

def Rule.isBounded (rule : Rule) : Bool :=
  decide (rule.line < countBound) && DefinitionsList.isBounded rule.definitions

def Grammar.isBounded (grammar : Grammar) : Bool := grammar.rules.all Rule.isBounded

/-- The reason why there is no tree is that a list in it would be empty. -/
def NamesEmpty (e : DecodeError) : Prop := e = .noDefinition ∨ e = .noTerm

/-! ## Fields -/

section Fields

variable {key : String} {index : Nat} {before after : List (String × Json)}

theorem lookup_append : Json.lookup key (before ++ after) =
    (Json.lookup key before).or (Json.lookup key after) := by
  induction before with
  | nil => rfl
  | cons field more ih =>
    simp only [List.cons_append, Json.lookup]
    split
    · rfl
    · exact ih

theorem asStrings_ofStrings (texts : List String) :
    (Json.ofStrings texts).asStrings = .ok texts := by
  change (texts.map Json.string).mapM Json.asString = .ok texts
  induction texts with
  | nil => rfl
  | cons text more ih => rw [List.map_cons, List.mapM_cons, ih]; rfl

/-- Comments are there if the field for them is left out, namely none. -/
theorem withStandard_comments (before : List (String × Json)) (comments : List String)
    (after : List (String × Json)) (hb : Json.lookup key before = none)
    (ha : Json.lookup key after = none) :
    (Json.object (before ++ (commentsField key comments ++ after))).withStandard index key []
      (fun value => value.1.asStrings) = .decoded comments := by
  have hm : (Json.object (before ++ (commentsField key comments ++ after))).member? index key =
      Json.lookup key (commentsField key comments) := by
    rw [Json.member?, lookup_append, lookup_append, hb, ha, Option.none_or, Option.or_none]
  cases comments with
  | nil => exact Json.withStandard_of_absent hm
  | cons comment more =>
    have hs : Json.lookup key (commentsField key (comment :: more)) =
        some (.ofStrings (comment :: more)) := if_pos rfl
    rw [Json.withStandard_of_member? (hm.trans hs)]
    exact Fields.ofExcept_eq_decoded_iff.2 (asStrings_ofStrings (comment :: more))

theorem lookup_commentsField {other : String} (h : other ≠ key) (comments : List String) :
    Json.lookup key (commentsField other comments) = none := by
  cases comments with
  | nil => rfl
  | cons => exact if_neg h

theorem lookup_repetitionsField (h : "repetitions" ≠ key) (count : Option Nat) :
    Json.lookup key (repetitionsField count) = none := by
  cases count with
  | none => rfl
  | some => exact if_neg h

/-- A count of zero is written, no count is not. -/
theorem optional_repetitions (index : Nat) (before : List (String × Json)) (count : Option Nat)
    (after : List (String × Json)) (hb : Json.lookup "repetitions" before = none)
    (ha : Json.lookup "repetitions" after = none) :
    ∃ counted, ReadBack NamesEmpty true (count.all (· < countBound)) count counted ∧
      (Json.object (before ++ (repetitionsField count ++ after))).optional index "repetitions"
        (fun value => value.1.asNat) = .ofExcept index "repetitions" counted := by
  have hm : (Json.object (before ++ (repetitionsField count ++ after))).member? index
      "repetitions" = Json.lookup "repetitions" (repetitionsField count) := by
    rw [Json.member?, lookup_append, lookup_append, hb, ha, Option.none_or, Option.or_none]
  cases count with
  | none => exact ⟨.ok none, .read rfl rfl, Json.optional_of_absent hm⟩
  | some n =>
    exact ⟨some <$> (Json.ofNat n).asNat, (ReadBack.number n).map some,
      Json.optional_of_member? hm (nomatch ·)⟩

/-- Of the fields of a primary there is one. -/
theorem optional_single {α : Type} {name : String} {v : Json} {f : Json → Except DecodeError α}
    (hv : v ≠ .null) :
    (Json.object [(name, v)]).optional index key (fun value => f value.1) =
      if name = key then .ofExcept index key (some <$> f v) else .decoded none := by
  have hm : (Json.object [(name, v)]).member? index key = if name = key then some v else none := rfl
  split
  · next h => exact Json.optional_of_member? (hm.trans (if_pos h)) hv
  · next h => exact Json.optional_of_absent (hm.trans (if_neg h))

end Fields

/-! ## Encoding and decoding -/

theorem Factor.toJson_eq (comments : List String) (count : Option Nat) (primary : Primary) :
    toJson ⟨comments, count, primary⟩ =
      .object (commentsField "comments" comments ++
        (repetitionsField count ++ [("primary", primary.toJson)])) := by
  rw [toJson.eq_def, ← List.append_assoc]

theorem Factor.toJson_ne_null (factor : Factor) : factor.toJson ≠ .null := by
  obtain ⟨comments, count, primary⟩ := factor
  rw [toJson_eq]
  exact (nomatch ·)

theorem Factor.ofJson_toJson_eq (comments : List String) (count : Option Nat)
    (primary : Primary) :
    ∃ counted, ReadBack NamesEmpty true (count.all (· < countBound)) count counted ∧
      ofJson (toJson ⟨comments, count, primary⟩) =
        RecordKind.conclude ⟨"Factor", 3⟩ (toJson ⟨comments, count, primary⟩)
          (Factor.mk comments <$> .ofExcept 1 "repetitions" counted <*>
            .ofExcept 2 "primary" (Primary.ofJson primary.toJson)) := by
  have hc {key : String} (hk : "comments" ≠ key) := lookup_commentsField hk comments
  have hr {key : String} (hk : "repetitions" ≠ key) := lookup_repetitionsField hk count
  have hp : (toJson ⟨comments, count, primary⟩).member? 2 "primary" = some primary.toJson := by
    rw [toJson_eq, Json.member?, lookup_append, lookup_append, hc (by decide), hr (by decide)]
    rfl
  obtain ⟨counted, hcounted, hn⟩ := optional_repetitions 1
    (commentsField "comments" comments) count [("primary", primary.toJson)] (hc (by decide)) rfl
  rw [← toJson_eq] at hn
  have hs : (toJson ⟨comments, count, primary⟩).withStandard 0 "comments" []
      (fun value => value.1.asStrings) = .decoded comments := by
    rw [toJson_eq]
    refine withStandard_comments [] comments _ rfl ?_
    rw [lookup_append, hr (by decide)]
    rfl
  refine ⟨counted, hcounted, ?_⟩
  rw [ofJson, Json.required_of_member? hp, hn, hs]
  rfl

theorem Primary.ofJson_toJson_sequence (bracket : Bracket) (definitions : List (List Term)) :
    ofJson (toJson (.sequence bracket definitions)) =
      sequence bracket <$>
        DefinitionsList.ofJson (.array (DefinitionsList.toJsons definitions)) := by
  have ho (index : Nat) (key : String) :
      (toJson (.sequence bracket definitions)).optional index key
          (fun value => DefinitionsList.ofJson value.1) =
        if bracket.key = key then .ofExcept index key
          (some <$> DefinitionsList.ofJson (.array (DefinitionsList.toJsons definitions)))
        else .decoded none := by
    rw [toJson]
    exact optional_single (nomatch ·)
  rw [ofJson, ho, ho, ho, toJson]
  cases bracket <;> cases DefinitionsList.ofJson (.array (DefinitionsList.toJsons definitions)) <;>
    rfl

theorem DefinitionsList.ofJson_toJson_eq (definitions : List (List Term)) :
    ofJson (.array (toJsons definitions)) =
      if definitions.isEmpty then .error .noDefinition else ofJsons (toJsons definitions) := by
  cases definitions with
  | nil => rw [toJsons, ofJson, List.isEmpty_nil, if_pos rfl]
  | cons definition more =>
    rw [toJsons, ofJson, List.isEmpty_cons, if_neg Bool.false_ne_true]
    exact List.cons_ne_nil _ _

theorem Definition.ofJson_toJson_eq (definition : List Term) :
    ofJson (.array (toJsons definition)) =
      if definition.isEmpty then .error .noTerm else ofJsons (toJsons definition) := by
  cases definition with
  | nil => rw [toJsons, ofJson, List.isEmpty_nil, if_pos rfl]
  | cons term more =>
    rw [toJsons, ofJson, List.isEmpty_cons, if_neg Bool.false_ne_true]
    exact List.cons_ne_nil _ _

/-! A tree that is read back is filled and bounded, any other is refused. -/

mutual

theorem Term.ofJson_toJson : (term : Term) →
    ReadBack NamesEmpty term.isFilled term.isBounded term (Term.ofJson term.toJson)
  | ⟨factor, none⟩ => by
    rw [Term.ofJson, Json.required_of_member? (v := factor.toJson) rfl,
      Json.optional_of_absent rfl, Fields.map_seq_decoded, Term.isFilled, Term.isBounded]
    exact (Factor.ofJson_toJson factor).field (Term.mk · none)
  | ⟨factor, some exception⟩ => by
    rw [Term.ofJson, Json.required_of_member? (v := factor.toJson) rfl,
      Json.optional_of_member? (v := exception.toJson) rfl exception.toJson_ne_null, Term.isFilled,
      Term.isBounded]
    exact (Factor.ofJson_toJson factor).fields Term.mk
      ((Factor.ofJson_toJson exception).map some)

theorem Factor.ofJson_toJson : (factor : Factor) →
    ReadBack NamesEmpty factor.isFilled factor.isBounded factor (Factor.ofJson factor.toJson)
  | ⟨comments, count, primary⟩ => by
    obtain ⟨counted, hc, he⟩ := Factor.ofJson_toJson_eq comments count primary
    rw [he, Factor.toJson_eq, Factor.isFilled, Factor.isBounded]
    exact hc.fields (Factor.mk comments) (Primary.ofJson_toJson primary)

theorem Primary.ofJson_toJson : (primary : Primary) →
    ReadBack NamesEmpty primary.isFilled primary.isBounded primary (Primary.ofJson primary.toJson)
  | .sequence bracket definitions => by
    rw [Primary.ofJson_toJson_sequence, DefinitionsList.ofJson_toJson_eq, Primary.isFilled,
      Primary.isBounded]
    have hd := DefinitionsList.ofJsons_toJsons definitions
    cases definitions with
    | nil => exact .notFilled rfl (.inl rfl)
    | cons definition more => exact hd.map (Primary.sequence bracket)
  | .special _ | .name _ | .terminal _ | .empty => by
    rw [Primary.ofJson]
    exact .read rfl rfl

theorem DefinitionsList.ofJsons_toJsons : (definitions : List (List Term)) →
    ReadBack NamesEmpty (DefinitionsList.allFilled definitions)
      (DefinitionsList.isBounded definitions) definitions
      (DefinitionsList.ofJsons (DefinitionsList.toJsons definitions))
  | [] => by
    rw [DefinitionsList.toJsons, DefinitionsList.ofJsons]
    exact .read rfl rfl
  | definition :: more => by
    rw [DefinitionsList.toJsons, DefinitionsList.ofJsons, DefinitionsList.allFilled,
      DefinitionsList.isBounded, Definition.ofJson_toJson_eq]
    have hd := Definition.ofJsons_toJsons definition
    cases definition with
    | nil => exact .notFilled rfl (.inr rfl)
    | cons term terms => exact hd.cons (DefinitionsList.ofJsons_toJsons more)

theorem Definition.ofJsons_toJsons : (definition : List Term) →
    ReadBack NamesEmpty (Definition.allFilled definition) (Definition.isBounded definition)
      definition (Definition.ofJsons (Definition.toJsons definition))
  | [] => by
    rw [Definition.toJsons, Definition.ofJsons]
    exact .read rfl rfl
  | term :: more => by
    rw [Definition.toJsons, Definition.ofJsons, Definition.allFilled, Definition.isBounded]
    exact (Term.ofJson_toJson term).cons (Definition.ofJsons_toJsons more)

end

theorem DefinitionsList.ofJson_toJson (definitions : DefinitionsList) :
    ReadBack NamesEmpty (isFilled definitions) (isBounded definitions) definitions
      (ofJson (toJson definitions)) := by
  rw [toJson, ofJson_toJson_eq, isFilled]
  cases definitions with
  | nil => exact .notFilled rfl (.inl rfl)
  | cons definition more => exact ofJsons_toJsons (definition :: more)

theorem Definition.ofJson_toJson (definition : Definition) :
    ReadBack NamesEmpty (isFilled definition) (isBounded definition) definition
      (ofJson (toJson definition)) := by
  rw [toJson, ofJson_toJson_eq, isFilled]
  cases definition with
  | nil => exact .notFilled rfl (.inr rfl)
  | cons term more => exact ofJsons_toJsons (term :: more)

theorem Rule.ofJson_toJson (rule : Rule) :
    ReadBack NamesEmpty rule.isFilled rule.isBounded rule (ofJson rule.toJson) := by
  have hd : rule.toJson.member? 3 "definitionsList" =
      some (DefinitionsList.toJson rule.definitions) := by
    rw [toJson, Json.member?, lookup_append, lookup_append, lookup_commentsField (by decide)]
    rfl
  have hc : rule.toJson.withStandard 2 "comments" [] (fun value => value.1.asStrings) =
      .decoded rule.comments := by
    rw [toJson, List.append_assoc]
    exact withStandard_comments _ rule.comments _ rfl rfl
  have hn : rule.toJson.required 0 "metaIdentifier" (fun value => value.1.asString) =
      .decoded rule.name := Json.required_of_member? (v := .string rule.name) rfl
  have hl : rule.toJson.required 1 "line" (fun value => value.1.asNat) =
      .ofExcept 1 "line" (Json.ofNat rule.line).asNat := Json.required_of_member? rfl
  rw [ofJson, hn, hl, hc, Json.required_of_member? hd, Fields.map_decoded,
    Fields.decoded_seq_eq, Fields.map_seq_decoded]
  exact (ReadBack.number rule.line).fields (Rule.mk rule.name · rule.comments ·)
    (DefinitionsList.ofJson_toJson rule.definitions)

theorem Rule.mapM_ofJson_toJson (rules : List Rule) :
    ReadBack NamesEmpty (rules.all isFilled) (rules.all isBounded) rules
      ((rules.map toJson).mapM ofJson) := by
  induction rules with
  | nil => exact .read rfl rfl
  | cons rule more ih =>
    rw [List.map_cons, List.mapM_cons, List.all_cons]
    exact (ofJson_toJson rule).cons ih

theorem Grammar.ofJson_toJson (grammar : Grammar) :
    ReadBack NamesEmpty grammar.isFilled grammar.isBounded grammar (ofJson grammar.toJson) := by
  have hg : grammar.toJson = .object ([("rules", .array (grammar.rules.map Rule.toJson))] ++
      (commentsField "trailingComments" grammar.trailingComments ++ [])) := by
    rw [toJson, List.append_nil]
    rfl
  have hc : grammar.toJson.withStandard 1 "trailingComments" []
      (fun value => value.1.asStrings) = .decoded grammar.trailingComments := by
    rw [hg]
    exact withStandard_comments _ grammar.trailingComments [] rfl rfl
  rw [ofJson, Json.required_of_member? (v := .array (grammar.rules.map Rule.toJson)) rfl, hc,
    Fields.map_seq_decoded]
  exact (Rule.mapM_ofJson_toJson grammar.rules).field (Grammar.mk · grammar.trailingComments)

/-! ## Parts that may be left out -/

theorem Factor.toJson_uncounted_ne (comments : List String) (n : Nat) (primary : Primary) :
    toJson ⟨comments, none, primary⟩ ≠ toJson ⟨comments, some n, primary⟩ := by
  simp [toJson_eq, repetitionsField]

theorem Term.toJson_unexcepted_ne (factor exception : Factor) :
    toJson ⟨factor, none⟩ ≠ toJson ⟨factor, some exception⟩ := by
  simp [toJson]

/-! ## What is decoded -/

/-- A primary is what one of its fields holds. -/
theorem Primary.exists_fields_of_ofJson {json : Json} {primary : Primary}
    (h : ofJson json = .ok primary) :
    ∃ (optional repeated grouped : Option (List (List Term)))
        (special name terminal : Option String) (empty : Bool),
      json.optional 0 "optionalSequence" (fun value => DefinitionsList.ofJson value) =
        .decoded optional ∧
      json.optional 1 "repeatedSequence" (fun value => DefinitionsList.ofJson value) =
        .decoded repeated ∧
      json.optional 3 "groupedSequence" (fun value => DefinitionsList.ofJson value) =
        .decoded grouped ∧
      [optional.map (Primary.sequence .optional), repeated.map (.sequence .repeated),
        special.map .special, grouped.map (.sequence .grouped), name.map .name,
        terminal.map .terminal, if empty then some .empty else none].filterMap id = [primary] := by
  rw [ofJson] at h
  obtain ⟨found, hc, hp⟩ := bind_eq_ok_iff.1 h
  have hf : found = [primary] := by
    split at hp
    · cases hp; rfl
    · cases hp
  subst hf
  have hd := RecordKind.eq_decoded_of_conclude hc
  simp only [Fields.seq_eq_decoded_iff, Fields.map_eq_decoded_iff] at hd
  obtain ⟨_, empty, ⟨_, terminal, ⟨_, name, ⟨_, grouped, ⟨_, special, ⟨_, repeated, ⟨optional, h0,
    rfl⟩, h1, rfl⟩, -, rfl⟩, h3, rfl⟩, -, rfl⟩, -, rfl⟩, -, hs⟩ := hd
  exact ⟨optional, repeated, grouped, special, name, terminal, empty, h0, h1, h3, hs⟩

mutual

theorem Term.filled_bounded_of_ofJson (json : Json) (term : Term)
    (h : Term.ofJson json = .ok term) : term.isFilled ∧ term.isBounded := by
  rw [Term.ofJson] at h
  obtain ⟨_, exception, hd, he, rfl⟩ :=
    Fields.seq_eq_decoded_iff.1 (RecordKind.eq_decoded_of_conclude h)
  obtain ⟨factor, hf, rfl⟩ := Fields.map_eq_decoded_iff.1 hd
  obtain ⟨value, hv⟩ := Json.exists_of_required hf
  have hl := Factor.filled_bounded_of_ofJson value factor hv
  cases exception with
  | none => exact hl
  | some exception =>
    obtain ⟨other, ho⟩ := Json.exists_of_optional he exception rfl
    simp [Term.isFilled, Term.isBounded, hl, Factor.filled_bounded_of_ofJson other exception ho]
termination_by sizeOf json
decreasing_by
  · exact value.2
  · exact other.2

theorem Factor.filled_bounded_of_ofJson (json : Json) (factor : Factor)
    (h : Factor.ofJson json = .ok factor) : factor.isFilled ∧ factor.isBounded := by
  rw [Factor.ofJson] at h
  obtain ⟨_, primary, h2, hp, rfl⟩ :=
    Fields.seq_eq_decoded_iff.1 (RecordKind.eq_decoded_of_conclude h)
  obtain ⟨_, count, h1, hn, rfl⟩ := Fields.seq_eq_decoded_iff.1 h2
  obtain ⟨comments, -, rfl⟩ := Fields.map_eq_decoded_iff.1 h1
  obtain ⟨value, hv⟩ := Json.exists_of_required hp
  have hc : count.all (· < countBound) = true := by
    cases count with
    | none => rfl
    | some n =>
      obtain ⟨_, hcount⟩ := Json.exists_of_optional hn n rfl
      simpa using Json.lt_of_asNat hcount
  have hprimary := Primary.filled_bounded_of_ofJson value primary hv
  rw [Factor.isFilled, Factor.isBounded, hc]
  exact hprimary
termination_by sizeOf json
decreasing_by exact value.2

theorem Primary.filled_bounded_of_ofJson (json : Json) (primary : Primary)
    (h : Primary.ofJson json = .ok primary) : primary.isFilled ∧ primary.isBounded := by
  obtain ⟨optional, repeated, grouped, special, name, terminal, empty, h0, h1, h3, hs⟩ :=
    Primary.exists_fields_of_ofJson h
  have hm : primary ∈ [optional.map (Primary.sequence .optional),
      repeated.map (.sequence .repeated), special.map .special, grouped.map (.sequence .grouped),
      name.map .name, terminal.map .terminal, if empty then some .empty else none].filterMap id := by
    rw [hs]; exact List.mem_singleton_self _
  simp only [List.mem_filterMap, List.mem_cons, List.not_mem_nil, or_false, id, exists_eq_right,
    eq_comm (a := some primary), Option.map_eq_some_iff] at hm
  obtain ⟨ds, hd, rfl⟩ | ⟨ds, hd, rfl⟩ | ⟨_, -, rfl⟩ | ⟨ds, hd, rfl⟩ | ⟨_, -, rfl⟩ | ⟨_, -, rfl⟩ |
    he := hm
  · obtain ⟨value, hv⟩ := Json.exists_of_optional h0 ds hd
    exact DefinitionsList.filled_bounded_of_ofJson value ds hv
  · obtain ⟨value, hv⟩ := Json.exists_of_optional h1 ds hd
    exact DefinitionsList.filled_bounded_of_ofJson value ds hv
  · exact ⟨rfl, rfl⟩
  · obtain ⟨value, hv⟩ := Json.exists_of_optional h3 ds hd
    exact DefinitionsList.filled_bounded_of_ofJson value ds hv
  · exact ⟨rfl, rfl⟩
  · exact ⟨rfl, rfl⟩
  · cases empty <;> cases he
    exact ⟨rfl, rfl⟩
termination_by sizeOf json
decreasing_by all_goals exact value.2

theorem DefinitionsList.filled_bounded_of_ofJson (json : Json) (definitions : List (List Term))
    (h : DefinitionsList.ofJson json = .ok definitions) :
    DefinitionsList.isFilled definitions ∧ DefinitionsList.isBounded definitions := by
  match json with
  | .array [] => simp [DefinitionsList.ofJson] at h
  | .array (item :: more) =>
    rw [DefinitionsList.ofJson] at h
    · have hf := DefinitionsList.filled_bounded_of_ofJsons (item :: more) definitions h
      rw [DefinitionsList.ofJsons] at h
      obtain ⟨definition, -, hb⟩ := bind_eq_ok_iff.1 h
      obtain ⟨rest, -, hp⟩ := bind_eq_ok_iff.1 hb
      cases hp
      exact hf
    · exact (nomatch ·)
  | .null | .bool _ | .integer _ | .float _ | .string _ | .object _ =>
    simp [DefinitionsList.ofJson] at h
termination_by sizeOf json

theorem DefinitionsList.filled_bounded_of_ofJsons (items : List Json)
    (definitions : List (List Term)) (h : DefinitionsList.ofJsons items = .ok definitions) :
    DefinitionsList.allFilled definitions ∧ DefinitionsList.isBounded definitions := by
  cases items with
  | nil =>
    rw [DefinitionsList.ofJsons] at h
    cases h
    exact ⟨rfl, rfl⟩
  | cons item more =>
    rw [DefinitionsList.ofJsons] at h
    obtain ⟨definition, hd, hb⟩ := bind_eq_ok_iff.1 h
    obtain ⟨rest, hr, hp⟩ := bind_eq_ok_iff.1 hb
    cases hp
    obtain ⟨hf, hb⟩ := Definition.filled_bounded_of_ofJson item definition hd
    rw [Definition.isFilled] at hf
    rw [DefinitionsList.allFilled, DefinitionsList.isBounded, hf, hb]
    exact DefinitionsList.filled_bounded_of_ofJsons more rest hr
termination_by sizeOf items

theorem Definition.filled_bounded_of_ofJson (json : Json) (definition : List Term)
    (h : Definition.ofJson json = .ok definition) :
    Definition.isFilled definition ∧ Definition.isBounded definition := by
  match json with
  | .array [] => simp [Definition.ofJson] at h
  | .array (item :: more) =>
    rw [Definition.ofJson] at h
    · have hf := Definition.filled_bounded_of_ofJsons (item :: more) definition h
      rw [Definition.ofJsons] at h
      obtain ⟨term, -, hb⟩ := bind_eq_ok_iff.1 h
      obtain ⟨rest, -, hp⟩ := bind_eq_ok_iff.1 hb
      cases hp
      exact hf
    · exact (nomatch ·)
  | .null | .bool _ | .integer _ | .float _ | .string _ | .object _ =>
    simp [Definition.ofJson] at h
termination_by sizeOf json

theorem Definition.filled_bounded_of_ofJsons (items : List Json) (definition : List Term)
    (h : Definition.ofJsons items = .ok definition) :
    Definition.allFilled definition ∧ Definition.isBounded definition := by
  cases items with
  | nil =>
    rw [Definition.ofJsons] at h
    cases h
    exact ⟨rfl, rfl⟩
  | cons item more =>
    rw [Definition.ofJsons] at h
    obtain ⟨term, ht, hb⟩ := bind_eq_ok_iff.1 h
    obtain ⟨rest, hr, hp⟩ := bind_eq_ok_iff.1 hb
    cases hp
    obtain ⟨hf, hb⟩ := Term.filled_bounded_of_ofJson item term ht
    rw [Definition.allFilled, Definition.isBounded, hf, hb]
    exact Definition.filled_bounded_of_ofJsons more rest hr
termination_by sizeOf items

end

theorem Rule.filled_bounded_of_ofJson {json : Json} {rule : Rule} (h : ofJson json = .ok rule) :
    rule.isFilled ∧ rule.isBounded := by
  obtain ⟨_, definitions, h3, hd, rfl⟩ :=
    Fields.seq_eq_decoded_iff.1 (RecordKind.eq_decoded_of_conclude h)
  obtain ⟨_, _, h2, -, rfl⟩ := Fields.seq_eq_decoded_iff.1 h3
  obtain ⟨_, line, h1, hl, rfl⟩ := Fields.seq_eq_decoded_iff.1 h2
  obtain ⟨_, -, rfl⟩ := Fields.map_eq_decoded_iff.1 h1
  obtain ⟨value, hv⟩ := Json.exists_of_required hd
  obtain ⟨_, hline⟩ := Json.exists_of_required hl
  obtain ⟨hf, hb⟩ := DefinitionsList.filled_bounded_of_ofJson value definitions hv
  exact ⟨hf, by simp [Rule.isBounded, Json.lt_of_asNat hline, hb]⟩

theorem Rule.filled_bounded_of_mapM {items : List Json} {rules : List Rule}
    (h : items.mapM ofJson = .ok rules) : rules.all isFilled ∧ rules.all isBounded := by
  induction items generalizing rules with
  | nil => cases h; exact ⟨rfl, rfl⟩
  | cons item more ih =>
    rw [List.mapM_cons] at h
    obtain ⟨rule, hr, hb⟩ := bind_eq_ok_iff.1 h
    obtain ⟨rest, hm, hp⟩ := bind_eq_ok_iff.1 hb
    cases hp
    obtain ⟨hf, hb⟩ := filled_bounded_of_ofJson hr
    rw [List.all_cons, List.all_cons, hf, hb]
    exact ih hm

theorem Grammar.filled_bounded_of_ofJson {json : Json} {grammar : Grammar}
    (h : ofJson json = .ok grammar) : grammar.isFilled ∧ grammar.isBounded := by
  obtain ⟨_, _, hf, -, rfl⟩ :=
    Fields.seq_eq_decoded_iff.1 (RecordKind.eq_decoded_of_conclude h)
  obtain ⟨rules, hr, rfl⟩ := Fields.map_eq_decoded_iff.1 hf
  obtain ⟨value, hv⟩ := Json.exists_of_required hr
  obtain ⟨items, -, hm⟩ := bind_eq_ok_iff.1 hv
  exact Rule.filled_bounded_of_mapM hm

/-! ## Both ways -/

/-- A tree is decoded from what it is encoded to if it is filled and its numbers bounded, and
otherwise that is refused; what may be left out is not confused with what is there; what is decoded
from any value is filled and bounded. -/
theorem Grammar.encoded_then_decoded :
    ((∀ grammar : Grammar, ReadBack NamesEmpty grammar.isFilled grammar.isBounded grammar
        (ofJson grammar.toJson)) ∧
      (∀ rule : Rule, ReadBack NamesEmpty rule.isFilled rule.isBounded rule
        (Rule.ofJson rule.toJson)) ∧
      (∀ definitions : DefinitionsList, ReadBack NamesEmpty (DefinitionsList.isFilled definitions)
        (DefinitionsList.isBounded definitions) definitions
        (DefinitionsList.ofJson (DefinitionsList.toJson definitions))) ∧
      (∀ definition : Definition, ReadBack NamesEmpty (Definition.isFilled definition)
        (Definition.isBounded definition) definition
        (Definition.ofJson (Definition.toJson definition))) ∧
      (∀ term : Term, ReadBack NamesEmpty term.isFilled term.isBounded term
        (Term.ofJson term.toJson)) ∧
      (∀ factor : Factor, ReadBack NamesEmpty factor.isFilled factor.isBounded factor
        (Factor.ofJson factor.toJson)) ∧
      ∀ primary : Primary, ReadBack NamesEmpty primary.isFilled primary.isBounded primary
        (Primary.ofJson primary.toJson)) ∧
    ((∀ (comments : List String) (n : Nat) (primary : Primary),
        Factor.toJson ⟨comments, none, primary⟩ ≠ Factor.toJson ⟨comments, some n, primary⟩) ∧
      ∀ factor exception : Factor,
        Term.toJson ⟨factor, none⟩ ≠ Term.toJson ⟨factor, some exception⟩) ∧
    (∀ (json : Json) (grammar : Grammar),
        ofJson json = .ok grammar → grammar.isFilled ∧ grammar.isBounded) ∧
      (∀ (json : Json) (rule : Rule),
        Rule.ofJson json = .ok rule → rule.isFilled ∧ rule.isBounded) ∧
      (∀ (json : Json) (definitions : DefinitionsList),
        DefinitionsList.ofJson json = .ok definitions →
          DefinitionsList.isFilled definitions ∧ DefinitionsList.isBounded definitions) ∧
      (∀ (json : Json) (definition : Definition),
        Definition.ofJson json = .ok definition →
          Definition.isFilled definition ∧ Definition.isBounded definition) ∧
      (∀ (json : Json) (term : Term),
        Term.ofJson json = .ok term → term.isFilled ∧ term.isBounded) ∧
      (∀ (json : Json) (factor : Factor),
        Factor.ofJson json = .ok factor → factor.isFilled ∧ factor.isBounded) ∧
      ∀ (json : Json) (primary : Primary),
        Primary.ofJson json = .ok primary → primary.isFilled ∧ primary.isBounded :=
  ⟨⟨Grammar.ofJson_toJson, Rule.ofJson_toJson, DefinitionsList.ofJson_toJson,
      Definition.ofJson_toJson, Term.ofJson_toJson, Factor.ofJson_toJson,
      Primary.ofJson_toJson⟩,
    ⟨Factor.toJson_uncounted_ne, Term.toJson_unexcepted_ne⟩,
    fun _ _ => Grammar.filled_bounded_of_ofJson, fun _ _ => Rule.filled_bounded_of_ofJson,
    DefinitionsList.filled_bounded_of_ofJson, Definition.filled_bounded_of_ofJson,
    Term.filled_bounded_of_ofJson, Factor.filled_bounded_of_ofJson,
    Primary.filled_bounded_of_ofJson⟩

/-! A member that is no field, members that are null, and arrays in place of objects. -/

def notedEmpty : Json := .object [("note", .null), ("terminal", .null), ("empty", .bool true)]

def zeroTimesEmpty : Json := .array [.array [], .integer 0, notedEmpty]

def exceptingZero : Json :=
  .object [("exception", zeroTimesEmpty),
    ("factor", .object [("repetitions", .null), ("primary", notedEmpty)])]

def notedRule : Json :=
  .array [.string "a", .integer 7, .array [], .array [.array [exceptingZero]]]

def zeroEmpty : Factor := ⟨[], some 0, .empty⟩

def termOfExceptingZero : Term := ⟨.ofPrimary .empty, some zeroEmpty⟩

def ruleOfExceptingZero : Rule := ⟨"a", 7, [], [[termOfExceptingZero]]⟩

theorem Grammar.encoded_then_decoded_noted :
    (Primary.ofJson notedEmpty = .ok .empty ∧
      Primary.empty.isFilled ∧ Primary.empty.isBounded) ∧
    (Factor.ofJson zeroTimesEmpty = .ok zeroEmpty ∧
      zeroEmpty.isFilled ∧ zeroEmpty.isBounded) ∧
    (Term.ofJson exceptingZero = .ok termOfExceptingZero ∧
      termOfExceptingZero.isFilled ∧ termOfExceptingZero.isBounded) ∧
    (Definition.ofJson (.array [exceptingZero]) = .ok [termOfExceptingZero] ∧
      Definition.isFilled [termOfExceptingZero] ∧ Definition.isBounded [termOfExceptingZero]) ∧
    (DefinitionsList.ofJson (.array [.array [exceptingZero]]) = .ok [[termOfExceptingZero]] ∧
      DefinitionsList.isFilled [[termOfExceptingZero]] ∧
        DefinitionsList.isBounded [[termOfExceptingZero]]) ∧
    (Rule.ofJson notedRule = .ok ruleOfExceptingZero ∧
      ruleOfExceptingZero.isFilled ∧ ruleOfExceptingZero.isBounded) ∧
    Grammar.ofJson (.object [("note", .null), ("rules", .array [notedRule])]) =
        .ok ⟨[ruleOfExceptingZero], []⟩ ∧
      Grammar.isFilled ⟨[ruleOfExceptingZero], []⟩ ∧
        Grammar.isBounded ⟨[ruleOfExceptingZero], []⟩ := by
  obtain ⟨-, -, hg, hr, hl, hd, ht, hf, hp⟩ := Grammar.encoded_then_decoded
  have primary : Primary.ofJson notedEmpty = .ok .empty := by
    rw [Primary.ofJson]
    rfl
  have zero : Factor.ofJson zeroTimesEmpty = .ok zeroEmpty := by
    rw [Factor.ofJson, Json.required_of_member? (v := notedEmpty) rfl, primary]
    rfl
  have factor : Factor.ofJson (.object [("repetitions", .null), ("primary", notedEmpty)]) =
      .ok (.ofPrimary .empty) := by
    rw [Factor.ofJson, Json.required_of_member? (v := notedEmpty) rfl, primary]
    rfl
  have term : Term.ofJson exceptingZero = .ok termOfExceptingZero := by
    rw [Term.ofJson, Json.required_of_member? (v := .object _) rfl,
      Json.optional_of_member? (v := zeroTimesEmpty) rfl (nomatch ·), factor, zero]
    rfl
  have definition : Definition.ofJson (.array [exceptingZero]) = .ok [termOfExceptingZero] := by
    rw [Definition.ofJson, Definition.ofJsons, Definition.ofJsons, term]
    · rfl
    · exact (nomatch ·)
  have definitions : DefinitionsList.ofJson (.array [.array [exceptingZero]]) =
      .ok [[termOfExceptingZero]] := by
    rw [DefinitionsList.ofJson, DefinitionsList.ofJsons, DefinitionsList.ofJsons, definition]
    · rfl
    · exact (nomatch ·)
  have rule : Rule.ofJson notedRule = .ok ruleOfExceptingZero := by
    have hm : Json.member? 3 "definitionsList" notedRule =
        some (.array [.array [exceptingZero]]) := rfl
    rw [Rule.ofJson, Json.required_of_member? hm, definitions]
    rfl
  have grammar : Grammar.ofJson (.object [("note", .null), ("rules", .array [notedRule])]) =
      .ok ⟨[ruleOfExceptingZero], []⟩ := by
    rw [Grammar.ofJson, Json.required_of_member? (v := .array [notedRule]) rfl]
    change RecordKind.conclude _ _ (_ <$> Fields.ofExcept _ _ (List.mapM _ [_]) <*> _) = _
    rw [List.mapM_cons, rule]
    rfl
  exact ⟨⟨primary, hp _ _ primary⟩, ⟨zero, hf _ _ zero⟩, ⟨term, ht _ _ term⟩,
    ⟨definition, hd _ _ definition⟩, ⟨definitions, hl _ _ definitions⟩, ⟨rule, hr _ _ rule⟩,
    grammar, hg _ _ grammar⟩

end GrammarText.Iso
