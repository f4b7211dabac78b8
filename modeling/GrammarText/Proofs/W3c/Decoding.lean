import GrammarText.Proofs.Json.ReadBack
import GrammarText.Proofs.Lexis.Run
import GrammarText.W3c.JsonForm

/-!
# Decoding what has been encoded

An expression is filled if no list and no choice in it is empty, and a rule is bounded if its line
takes at most 64 bits. A tree that is filled and bounded is decoded from what it is encoded to, any
other is refused, and whatever is decoded is filled and bounded.
-/

namespace GrammarText.W3c

/-! ## Filled trees -/

mutual

/-- No list and no choice in the expression is empty. -/
def Expression.isFilled : Expression → Bool
  | ⟨content, _, _⟩ => content.isFilled

def Content.isFilled : Content → Bool
  | .literal _ | .symbol _ | .characterSet _ => true
  | .list items => !items.isEmpty && Expression.allFilled items
  | .alternate arms => !arms.isEmpty && Expression.allFilled arms
  | .exception minuend subtrahend => minuend.isFilled && subtrahend.isFilled

def Expression.allFilled : List Expression → Bool
  | [] => true
  | e :: more => e.isFilled && Expression.allFilled more

end

def Rule.isFilled (rule : Rule) : Bool := rule.expression.isFilled

def Grammar.isFilled (grammar : Grammar) : Bool := grammar.rules.all Rule.isFilled

def Rule.isBounded (rule : Rule) : Bool := rule.line < countBound

def Grammar.isBounded (grammar : Grammar) : Bool := grammar.rules.all Rule.isBounded

/-- The reason why there is no tree is that a list or a choice in it would be empty. -/
def NamesEmpty (e : DecodeError) : Prop := e = .noOperand

/-! ## The fields of an encoded expression -/

section Members

variable {α : Type} {key : String} {index : Nat} {content : Content} {occurrence : Occurrence}
  {grouped : Bool}

/-- The names of the fields for what an expression is made of. -/
def contentKeys : List String :=
  ["literal", "symbol", "characterSet", "list", "alternate", "exception"]

theorem member?_content (hk : key ∈ contentKeys) :
    (Expression.toJson ⟨content, occurrence, grouped⟩).member? index key =
      if content.field.1 = key then some content.field.2 else none := by
  have hflags : Json.lookup key (occurrence.field ++ groupedField grouped) = none := by
    simp only [contentKeys, List.mem_cons, List.not_mem_nil, or_false] at hk
    rcases hk with rfl | rfl | rfl | rfl | rfl | rfl <;> cases occurrence <;> cases grouped <;> rfl
  rw [Expression.toJson, Json.member?, Json.lookup, hflags]

theorem member?_flag (hk : key ∉ contentKeys) :
    (Expression.toJson ⟨content, occurrence, grouped⟩).member? index key =
      Json.lookup key (occurrence.field ++ groupedField grouped) := by
  have hne : content.field.1 ≠ key := by
    rintro rfl
    exact hk (by cases content <;> simp [Content.field, contentKeys])
  rw [Expression.toJson, Json.member?, Json.lookup, if_neg hne]

/-- Of the fields for what an expression is made of, there is the one for its content. -/
theorem optional_content {f : Json → Except DecodeError α} (hk : key ∈ contentKeys) :
    (Expression.toJson ⟨content, occurrence, grouped⟩).optional index key (fun value => f value.1) =
      if content.field.1 = key then .ofExcept index key (some <$> f content.field.2)
      else .decoded none := by
  have hm : (Expression.toJson ⟨content, occurrence, grouped⟩).member? index key = _ :=
    member?_content hk
  split
  · next hc =>
    rw [if_pos hc] at hm
    exact Json.optional_of_member? hm (by cases content <;> simp [Content.field])
  · next hc => exact Json.optional_of_absent (hm.trans (if_neg hc))

theorem lookup_occurrence {flag : Occurrence} (hf : flag.field = [(key, .bool true)]) :
    Json.lookup key (occurrence.field ++ groupedField grouped) =
      if occurrence = flag then some (.bool true) else none := by
  cases flag <;> cases hf <;> cases occurrence <;> cases grouped <;> rfl

theorem withStandard_occurrence (flag : Occurrence) (hf : flag.field = [(key, .bool true)]) :
    (Expression.toJson ⟨content, occurrence, grouped⟩).withStandard index key false
      (fun value => value.1.asBool) = .decoded (occurrence == flag) := by
  have hk : key ∉ contentKeys := by cases flag <;> cases hf <;> decide
  have hm : (Expression.toJson ⟨content, occurrence, grouped⟩).member? index key = _ :=
    (member?_flag hk).trans (lookup_occurrence hf)
  by_cases ho : occurrence = flag
  · rw [if_pos ho] at hm
    rw [Json.withStandard_of_member? hm, beq_iff_eq.2 ho]
    rfl
  · rw [if_neg ho] at hm
    rw [Json.withStandard_of_absent hm, beq_eq_false_iff_ne.2 ho]

theorem lookup_grouped : Json.lookup "grouped" (occurrence.field ++ groupedField grouped) =
    if grouped then some (.bool true) else none := by
  cases occurrence <;> cases grouped <;> rfl

theorem withStandard_grouped :
    (Expression.toJson ⟨content, occurrence, grouped⟩).withStandard index "grouped" false
      (fun value => value.1.asBool) = .decoded grouped := by
  have hm : (Expression.toJson ⟨content, occurrence, grouped⟩).member? index "grouped" = _ :=
    (member?_flag (by decide)).trans lookup_grouped
  cases grouped with
  | false => exact Json.withStandard_of_absent hm
  | true => exact Json.withStandard_of_member? hm

end Members

/-! ## Encoding and decoding -/

/-- What decoding makes of the field for what an expression is made of. -/
def Content.reread : Content → Except DecodeError Content
  | .list items => .list <$> Expression.ofJsons (Expression.toJsons items)
  | .alternate arms => .alternate <$> Expression.ofJsons (Expression.toJsons arms)
  | .exception minuend subtrahend =>
    Content.exceptionOfJson (.object [("match", minuend.toJson), ("except", subtrahend.toJson)])
  | content => .ok content

theorem Occurrence.ofFlags?_beq (occurrence : Occurrence) :
    ofFlags? (occurrence == optional) (occurrence == oneOrMore) (occurrence == zeroOrMore) =
      some occurrence := by
  cases occurrence <;> rfl

/-- An encoded expression has one field for what it is made of, and says how often that comes. -/
theorem Expression.ofJson_toJson_eq (content : Content) (occurrence : Occurrence) (grouped : Bool) :
    ofJson (toJson ⟨content, occurrence, grouped⟩) =
      content.reread >>= fun reread =>
        ExpressionFields.expression ⟨[reread], some occurrence, grouped⟩ := by
  rw [ofJson, optional_content (f := Json.asString) (by decide),
    optional_content (f := Json.asString) (by decide),
    optional_content (f := Json.asString) (by decide),
    optional_content (f := rowOfJson) (by decide), optional_content (f := rowOfJson) (by decide),
    optional_content (f := Content.exceptionOfJson) (by decide),
    withStandard_occurrence .optional rfl, withStandard_occurrence .oneOrMore rfl,
    withStandard_occurrence .zeroOrMore rfl, withStandard_grouped, toJson]
  cases content with
  | literal text => simp [Content.field, Content.reread, Json.asString, Occurrence.ofFlags?_beq]
  | symbol name => simp [Content.field, Content.reread, Json.asString, Occurrence.ofFlags?_beq]
  | characterSet text =>
    simp [Content.field, Content.reread, Json.asString, Occurrence.ofFlags?_beq]
  | list items =>
    simp only [Content.field, Content.reread, rowOfJson]
    cases ofJsons (toJsons items) <;> simp [Occurrence.ofFlags?_beq]
  | alternate arms =>
    simp only [Content.field, Content.reread, rowOfJson]
    cases ofJsons (toJsons arms) <;> simp [Occurrence.ofFlags?_beq]
  | exception minuend subtrahend =>
    simp only [Content.field, Content.reread]
    cases Content.exceptionOfJson
        (.object [("match", minuend.toJson), ("except", subtrahend.toJson)]) <;>
      simp [Occurrence.ofFlags?_beq]

/-- The tree if it is filled, and a refusal if not. -/
def ifFilled {α : Type} (tree : α) (filled : Bool) : Except DecodeError α :=
  if filled then .ok tree else .error .noOperand

/-- An expression that lacks an operand is told in the same way wherever it stands. -/
theorem Content.exceptionOfJson_object {minuend subtrahend : Expression}
    (hm : Expression.ofJson minuend.toJson = ifFilled minuend minuend.isFilled)
    (hs : Expression.ofJson subtrahend.toJson = ifFilled subtrahend subtrahend.isFilled) :
    exceptionOfJson (.object [("match", minuend.toJson), ("except", subtrahend.toJson)]) =
      ifFilled (.exception minuend subtrahend) (minuend.isFilled && subtrahend.isFilled) := by
  rw [exceptionOfJson, Json.required_of_member? (v := minuend.toJson) rfl,
    Json.required_of_member? (v := subtrahend.toJson) rfl, hm, hs]
  cases minuend.isFilled <;> cases subtrahend.isFilled <;> rfl

mutual

theorem Expression.ofJson_toJson : (e : Expression) →
    Expression.ofJson e.toJson = ifFilled e e.isFilled
  | ⟨content, occurrence, grouped⟩ => by
    rw [Expression.ofJson_toJson_eq, Expression.isFilled]
    exact Content.reread_expression content occurrence grouped

theorem Content.reread_expression : (content : Content) → (occurrence : Occurrence) →
    (grouped : Bool) →
    (content.reread >>= fun reread =>
        ExpressionFields.expression ⟨[reread], some occurrence, grouped⟩) =
      ifFilled ⟨content, occurrence, grouped⟩ content.isFilled
  | .literal _, _, _ | .symbol _, _, _ | .characterSet _, _, _ => rfl
  | .list items, _, _ => by
    rw [Content.reread, Content.isFilled, Expression.ofJsons_toJsons items]
    cases Expression.allFilled items <;> cases items <;> rfl
  | .alternate arms, _, _ => by
    rw [Content.reread, Content.isFilled, Expression.ofJsons_toJsons arms]
    cases Expression.allFilled arms <;> cases arms <;> rfl
  | .exception minuend subtrahend, _, _ => by
    rw [Content.reread, Content.isFilled, Content.exceptionOfJson_object
      (Expression.ofJson_toJson minuend) (Expression.ofJson_toJson subtrahend)]
    cases minuend.isFilled && subtrahend.isFilled <;> rfl

theorem Expression.ofJsons_toJsons : (es : List Expression) →
    Expression.ofJsons (Expression.toJsons es) = ifFilled es (Expression.allFilled es)
  | [] => by rw [Expression.toJsons, Expression.ofJsons, Expression.allFilled]; rfl
  | e :: more => by
    rw [Expression.toJsons, Expression.ofJsons, Expression.allFilled, Expression.ofJson_toJson e,
      Expression.ofJsons_toJsons more]
    cases e.isFilled <;> cases Expression.allFilled more <;> rfl

end

theorem Expression.readBack (e : Expression) :
    ReadBack NamesEmpty e.isFilled true e (ofJson e.toJson) := by
  rw [ofJson_toJson]
  cases hf : e.isFilled with
  | true => exact .read rfl rfl
  | false => exact .notFilled rfl rfl

theorem Rule.ofJson_toJson (rule : Rule) :
    ReadBack NamesEmpty rule.isFilled rule.isBounded rule (ofJson rule.toJson) := by
  have hs : rule.toJson.required 0 "symbol" (fun value => value.1.asString) =
      .decoded rule.symbol := Json.required_of_member? (v := .string rule.symbol) rfl
  have hl : rule.toJson.required 1 "line" (fun value => value.1.asNat) =
      .ofExcept 1 "line" (Json.ofNat rule.line).asNat := Json.required_of_member? rfl
  have hb : rule.isBounded = (decide (rule.line < countBound) && true) := (Bool.and_true _).symm
  rw [ofJson, hs, hl, Json.required_of_member? (v := rule.expression.toJson) rfl,
    Fields.map_decoded, Fields.decoded_seq_eq, hb]
  exact (ReadBack.number rule.line).fields (Rule.mk rule.symbol) rule.expression.readBack

theorem Rule.mapM_ofJson_toJson (rules : List Rule) :
    ReadBack NamesEmpty (rules.all isFilled) (rules.all isBounded) rules
      ((rules.map toJson).mapM ofJson) := by
  induction rules with
  | nil => exact .read rfl rfl
  | cons rule more ih =>
    rw [List.map_cons, List.mapM_cons, List.all_cons, List.all_cons]
    exact (ofJson_toJson rule).cons ih

theorem Grammar.ofJson_toJson (grammar : Grammar) :
    ReadBack NamesEmpty grammar.isFilled grammar.isBounded grammar (ofJson grammar.toJson) := by
  rw [ofJson, Json.required_of_member? (v := .array (grammar.rules.map Rule.toJson)) rfl]
  exact (Rule.mapM_ofJson_toJson grammar.rules).field Grammar.mk

/-! ## What is decoded -/

theorem ExpressionFields.content_of_expression {fields : ExpressionFields} {e : Expression}
    (h : fields.expression = .ok e) :
    fields.contents = [e.content] ∧ e.content.lacksOperand = false := by
  unfold ExpressionFields.expression at h
  split at h
  · next content hc =>
    split at h
    · cases h
    · next hl =>
      split at h <;> cases h
      exact ⟨hc, eq_false_of_ne_true hl⟩
  · cases h

/-- What an expression is made of comes from one of the fields for that. -/
theorem Expression.exists_fields_of_ofJson {json : Json} {e : Expression}
    (h : ofJson json = .ok e) :
    ∃ (literal symbol characterSet : Option String) (list alternate : Option (List Expression))
        (exception : Option Content),
      json.optional 3 "list" (fun value => rowOfJson value) = .decoded list ∧
      json.optional 4 "alternate" (fun value => rowOfJson value) = .decoded alternate ∧
      json.optional 5 "exception" (fun value => Content.exceptionOfJson value) =
        .decoded exception ∧
      [literal.map Content.literal, symbol.map .symbol, characterSet.map .characterSet,
        list.map .list, alternate.map .alternate, exception].filterMap id = [e.content] ∧
      e.content.lacksOperand = false := by
  rw [ofJson] at h
  obtain ⟨fields, hc, he⟩ := bind_eq_ok_iff.1 h
  obtain ⟨hs, hl⟩ := ExpressionFields.content_of_expression he
  have hd := RecordKind.eq_decoded_of_conclude hc
  simp only [Fields.seq_eq_decoded_iff, Fields.map_eq_decoded_iff] at hd
  obtain ⟨_, _, ⟨_, _, ⟨_, _, ⟨_, _, ⟨_, exception, ⟨_, alternate, ⟨_, list, ⟨_, characterSet,
    ⟨_, symbol, ⟨literal, -, rfl⟩, -, rfl⟩, -, rfl⟩, h3, rfl⟩, h4, rfl⟩, h5, rfl⟩, -, rfl⟩, -, rfl⟩,
    -, rfl⟩, -, rfl⟩ := hd
  exact ⟨literal, symbol, characterSet, list, alternate, exception, h3, h4, h5, hs, hl⟩

mutual

theorem Expression.isFilled_of_ofJson (json : Json) (e : Expression)
    (h : Expression.ofJson json = .ok e) : e.isFilled = true := by
  obtain ⟨literal, symbol, characterSet, list, alternate, exception, h3, h4, h5, hs, hl⟩ :=
    Expression.exists_fields_of_ofJson h
  obtain ⟨content, occurrence, grouped⟩ := e
  rw [Expression.isFilled]
  have hm : content ∈ [literal.map Content.literal, symbol.map .symbol,
      characterSet.map .characterSet, list.map .list, alternate.map .alternate,
      exception].filterMap id := by
    rw [hs]; exact List.mem_singleton_self _
  simp only [List.mem_filterMap, List.mem_cons, List.not_mem_nil, or_false, id, exists_eq_right,
    eq_comm (a := some content), Option.map_eq_some_iff] at hm
  obtain ⟨_, -, rfl⟩ | ⟨_, -, rfl⟩ | ⟨_, -, rfl⟩ | ⟨items, hi, rfl⟩ | ⟨arms, ha, rfl⟩ | he := hm
  · rfl
  · rfl
  · rfl
  · obtain ⟨value, hv⟩ := Json.exists_of_optional h3 items hi
    have hf := Expression.allFilled_of_rowOfJson value items hv
    cases items with
    | nil => cases hl
    | cons => rw [Content.isFilled, hf]; rfl
  · obtain ⟨value, hv⟩ := Json.exists_of_optional h4 arms ha
    have hf := Expression.allFilled_of_rowOfJson value arms hv
    cases arms with
    | nil => cases hl
    | cons => rw [Content.isFilled, hf]; rfl
  · obtain ⟨value, hv⟩ := Json.exists_of_optional h5 content he
    exact Content.isFilled_of_exceptionOfJson value content hv
termination_by sizeOf json
decreasing_by all_goals exact value.2

theorem Content.isFilled_of_exceptionOfJson (json : Json) (content : Content)
    (h : Content.exceptionOfJson json = .ok content) : content.isFilled = true := by
  rw [Content.exceptionOfJson] at h
  obtain ⟨_, subtrahend, hd, hs, rfl⟩ :=
    Fields.seq_eq_decoded_iff.1 (RecordKind.eq_decoded_of_conclude h)
  obtain ⟨minuend, hm, rfl⟩ := Fields.map_eq_decoded_iff.1 hd
  obtain ⟨left, hl⟩ := Json.exists_of_required hm
  obtain ⟨right, hr⟩ := Json.exists_of_required hs
  rw [Content.isFilled, Expression.isFilled_of_ofJson left minuend hl,
    Expression.isFilled_of_ofJson right subtrahend hr]
  rfl
termination_by sizeOf json
decreasing_by
  · exact left.2
  · exact right.2

theorem Expression.allFilled_of_rowOfJson (json : Json) (es : List Expression)
    (h : Expression.rowOfJson json = .ok es) : Expression.allFilled es = true := by
  cases json with
  | array items =>
    rw [Expression.rowOfJson] at h
    exact Expression.allFilled_of_ofJsons items es h
  | _ => simp [Expression.rowOfJson] at h
termination_by sizeOf json

theorem Expression.allFilled_of_ofJsons (items : List Json) (es : List Expression)
    (h : Expression.ofJsons items = .ok es) : Expression.allFilled es = true := by
  cases items with
  | nil =>
    rw [Expression.ofJsons] at h
    cases h
    rfl
  | cons item more =>
    rw [Expression.ofJsons] at h
    obtain ⟨e, he, hb⟩ := bind_eq_ok_iff.1 h
    obtain ⟨rest, hr, hp⟩ := bind_eq_ok_iff.1 hb
    cases hp
    rw [Expression.allFilled, Expression.isFilled_of_ofJson item e he,
      Expression.allFilled_of_ofJsons more rest hr]
    rfl
termination_by sizeOf items

end

theorem Rule.filled_bounded_of_ofJson {json : Json} {rule : Rule} (h : ofJson json = .ok rule) :
    rule.isFilled ∧ rule.isBounded := by
  obtain ⟨_, e, h2, he, rfl⟩ := Fields.seq_eq_decoded_iff.1 (RecordKind.eq_decoded_of_conclude h)
  obtain ⟨_, line, h1, hl, rfl⟩ := Fields.seq_eq_decoded_iff.1 h2
  obtain ⟨_, -, rfl⟩ := Fields.map_eq_decoded_iff.1 h1
  obtain ⟨value, hv⟩ := Json.exists_of_required he
  obtain ⟨_, hline⟩ := Json.exists_of_required hl
  exact ⟨Expression.isFilled_of_ofJson value e hv, decide_eq_true (Json.lt_of_asNat hline)⟩

theorem Rule.filled_bounded_of_mapM {items : List Json} {rules : List Rule}
    (h : items.mapM ofJson = .ok rules) : rules.all isFilled ∧ rules.all isBounded := by
  induction items generalizing rules with
  | nil => cases h; exact ⟨rfl, rfl⟩
  | cons item more ih =>
    rw [List.mapM_cons] at h
    obtain ⟨rule, hr, hb⟩ := bind_eq_ok_iff.1 h
    obtain ⟨rest, hm, hp⟩ := bind_eq_ok_iff.1 hb
    cases hp
    obtain ⟨hf, hb⟩ := filled_bounded_of_ofJson hr
    rw [List.all_cons, List.all_cons, hf, hb]
    exact ih hm

theorem Grammar.filled_bounded_of_ofJson {json : Json} {grammar : Grammar}
    (h : ofJson json = .ok grammar) : grammar.isFilled ∧ grammar.isBounded := by
  obtain ⟨rules, hr, rfl⟩ := Fields.map_eq_decoded_iff.1 (RecordKind.eq_decoded_of_conclude h)
  obtain ⟨value, hv⟩ := Json.exists_of_required hr
  obtain ⟨items, -, hm⟩ := bind_eq_ok_iff.1 hv
  exact Rule.filled_bounded_of_mapM hm

/-! ## Both ways -/

/-- A tree is decoded from what it is encoded to if it is filled and its lines bounded, and
otherwise that is refused; what is decoded from any value is filled and bounded. -/
theorem Grammar.decoding :
    ((∀ e : Expression, Expression.ofJson e.toJson =
        if e.isFilled then .ok e else .error .noOperand) ∧
      (∀ rule : Rule, ReadBack NamesEmpty rule.isFilled rule.isBounded rule
        (Rule.ofJson rule.toJson)) ∧
      ∀ grammar : Grammar, ReadBack NamesEmpty grammar.isFilled grammar.isBounded grammar
        (Grammar.ofJson grammar.toJson)) ∧
    (∀ (json : Json) (e : Expression), Expression.ofJson json = .ok e → e.isFilled) ∧
      (∀ (json : Json) (rule : Rule),
        Rule.ofJson json = .ok rule → rule.isFilled ∧ rule.isBounded) ∧
      ∀ (json : Json) (grammar : Grammar),
        Grammar.ofJson json = .ok grammar → grammar.isFilled ∧ grammar.isBounded :=
  ⟨⟨Expression.ofJson_toJson, Rule.ofJson_toJson, Grammar.ofJson_toJson⟩,
    Expression.isFilled_of_ofJson, fun _ _ => Rule.filled_bounded_of_ofJson,
    fun _ _ => Grammar.filled_bounded_of_ofJson⟩

/-- Members that are no fields, members that are null, and arrays in place of objects. -/
theorem Grammar.decoding_noted :
    (Expression.ofJson (.object [("note", .null), ("symbol", .null),
          ("list", .array [.array [.null, .string "S"]])]) =
        .ok ⟨.list [⟨.symbol "S", .once, false⟩], .once, false⟩ ∧
      (⟨.list [⟨.symbol "S", .once, false⟩], .once, false⟩ : Expression).isFilled) ∧
    (Rule.ofJson (.array [.string "R", .integer 1, .array [.null, .string "S"]]) =
        .ok ⟨"R", 1, ⟨.symbol "S", .once, false⟩⟩ ∧
      (⟨"R", 1, ⟨.symbol "S", .once, false⟩⟩ : Rule).isFilled ∧
        (⟨"R", 1, ⟨.symbol "S", .once, false⟩⟩ : Rule).isBounded) ∧
    Grammar.ofJson (.array [.array []]) = .ok ⟨[]⟩ ∧
      (⟨[]⟩ : Grammar).isFilled ∧ (⟨[]⟩ : Grammar).isBounded := by
  have hs : Expression.ofJson (.array [.null, .string "S"]) = .ok ⟨.symbol "S", .once, false⟩ := by
    rw [Expression.ofJson]
    rfl
  have he : Expression.ofJson (.object [("note", .null), ("symbol", .null),
      ("list", .array [.array [.null, .string "S"]])]) =
      .ok ⟨.list [⟨.symbol "S", .once, false⟩], .once, false⟩ := by
    have hm : Json.member? 3 "list" (.object [("note", .null), ("symbol", .null),
        ("list", .array [.array [.null, .string "S"]])]) =
        some (.array [.array [.null, .string "S"]]) := rfl
    rw [Expression.ofJson, Json.optional_of_member? hm (nomatch ·), Expression.rowOfJson,
      Expression.ofJsons, Expression.ofJsons, hs]
    rfl
  have hr : Rule.ofJson (.array [.string "R", .integer 1, .array [.null, .string "S"]]) =
      .ok ⟨"R", 1, ⟨.symbol "S", .once, false⟩⟩ := by
    have hm : Json.member? 2 "expression"
        (.array [.string "R", .integer 1, .array [.null, .string "S"]]) =
        some (.array [.null, .string "S"]) := rfl
    rw [Rule.ofJson, Json.required_of_member? hm, hs]
    rfl
  exact ⟨⟨he, Grammar.decoding.2.1 _ _ he⟩, ⟨hr, Grammar.decoding.2.2.1 _ _ hr⟩, rfl,
    Grammar.decoding.2.2.2 (.array [.array []]) _ rfl⟩

end GrammarText.W3c
