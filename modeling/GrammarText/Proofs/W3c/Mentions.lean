import GrammarText.Proofs.W3c.Steps

/-!
# What a W3C grammar mentions

A grammar mentions words and literals, from left to right. Joining expressions keeps what they
mention, and a step of the reading adds what its token mentions.
-/

namespace GrammarText.W3c

/-- A word or a literal. -/
inductive Mention where
  /-- A word that the defining mark follows. -/
  | head (name : String)
  /-- Any other word. -/
  | symbol (name : String)
  | literal (text : String)
deriving DecidableEq, Repr

/-! ## The mentions of a tree -/

mutual

def Expression.mentions : Expression → List Mention
  | ⟨content, _, _⟩ => content.mentions

def Content.mentions : Content → List Mention
  | .literal text => [.literal text]
  | .symbol name => [.symbol name]
  | .characterSet _ => []
  | .list items => Expression.mentionsAll items
  | .alternate arms => Expression.mentionsAll arms
  | .exception minuend subtrahend => minuend.mentions ++ subtrahend.mentions

def Expression.mentionsAll : List Expression → List Mention
  | [] => []
  | e :: more => e.mentions ++ Expression.mentionsAll more

end

def Rule.mentions (rule : Rule) : List Mention := .head rule.symbol :: rule.expression.mentions

def Grammar.mentions (grammar : Grammar) : List Mention := grammar.rules.flatMap Rule.mentions

namespace Expression

theorem mentionsAll_eq_flatMap (es : List Expression) : mentionsAll es = es.flatMap mentions := by
  induction es with
  | nil => rfl
  | cons e es ih => rw [mentionsAll, ih, List.flatMap_cons]

theorem flatMap_mentions_items (e : Expression) : e.items.flatMap mentions = e.mentions := by
  unfold items
  split
  · exact (mentionsAll_eq_flatMap _).symm
  · simp

theorem flatMap_mentions_arms (e : Expression) : e.arms.flatMap mentions = e.mentions := by
  unfold arms
  split
  · exact (mentionsAll_eq_flatMap _).symm
  · simp

theorem mentions_sequence (es : List Expression) : (sequence es).mentions = es.flatMap mentions := by
  unfold sequence
  split
  · simp
  · rw [ofContent, mentions, Content.mentions, mentionsAll_eq_flatMap, List.flatMap_assoc]
    simp only [flatMap_mentions_items]

theorem mentions_choice (es : List Expression) : (choice es).mentions = es.flatMap mentions := by
  unfold choice
  split
  · simp
  · rw [ofContent, mentions, Content.mentions, mentionsAll_eq_flatMap, List.flatMap_assoc]
    simp only [flatMap_mentions_arms]

theorem mentions_withOccurrence (e : Expression) (occurrence : Occurrence) :
    (e.withOccurrence occurrence).mentions = e.mentions := by
  cases e
  rfl

theorem mentions_parenthesized (e : Expression) : e.parenthesized.mentions = e.mentions := by
  cases e
  rfl

end Expression

theorem Grammar.mentions_onLineOne (grammar : Grammar) :
    grammar.onLineOne.mentions = grammar.mentions := by
  rw [mentions, mentions, onLineOne, List.flatMap_map]
  rfl

/-! ## The mentions of a state -/

def Token.mention : Token → List Mention
  | .symbol name true => [.head name]
  | .symbol name false => [.symbol name]
  | .literal text => [.literal text]
  | _ => []

def Level.mentions (level : Level) : List Mention :=
  level.arms.reverse.flatMap Expression.mentions ++ level.items.reverse.flatMap Expression.mentions

@[simp] def minuendMentions : Option Expression → List Mention
  | none => []
  | some e => e.mentions

def Opened.mentions (top : Opened) : List Mention := top.level.mentions ++ minuendMentions top.minuend

@[simp] def Slot.mentions : Slot → List Mention
  | .operand minuend => minuendMentions minuend
  | .item minuend e _ => minuendMentions minuend ++ e.mentions

def Body.mentions (body : Body) : List Mention :=
  body.opened.reverse.flatMap Opened.mentions ++ body.level.mentions ++ body.slot.mentions

@[simp] def Place.mentions : Place → List Mention
  | .between => []
  | .named rule => [.head rule.name]
  | .within rule body => .head rule.name :: body.mentions

def State.mentions (state : State) : List Mention :=
  state.rules.reverse.flatMap Rule.mentions ++ state.place.mentions

section Parts

variable {level : Level} {item : Expression}

theorem mentions_endItem (minuend : Option Expression) (operand : Expression) :
    (endItem minuend operand).mentions = minuendMentions minuend ++ operand.mentions := by
  cases minuend <;> rfl

theorem Level.mentions_addItem : (level.addItem item).mentions = level.mentions ++ item.mentions := by
  simp [mentions, addItem]

theorem Level.mentions_endArm :
    Level.mentions ⟨level.endArm item, []⟩ = level.mentions ++ item.mentions := by
  simp [mentions, endArm, Expression.mentions_sequence]

theorem Level.mentions_close : (level.close item).mentions = level.mentions ++ item.mentions := by
  simp [close, endArm, Level.mentions, Expression.mentions_choice, Expression.mentions_sequence]

end Parts

/-! ## Steps -/

theorem mention_of_leaf? {token : Token} {content : Content} (ht : token.leaf? = some content)
    (hh : token.isHead = false) : (Expression.ofContent content).mentions = token.mention := by
  cases token with
  | symbol name head => cases ht; cases hh; rfl
  | literal => cases ht; rfl
  | _ => cases ht

/-- A step within a rule adds what its token mentions. -/
theorem Body.Step.mentions {body next : Body} {token : Token}
    (h : Body.Step body token (.partly next)) (hh : token.isHead = false) :
    next.mentions = body.mentions ++ token.mention := by
  generalize hp : Progress.partly next = progress at h
  induction h with
  | opening => cases hp; simp [Body.mentions, Opened.mentions, Level.mentions, Token.mention]
  | leaf ht => cases hp; simp [Body.mentions, mention_of_leaf? ht hh]
  | suffix => cases hp; simp [Body.mentions, Token.mention, Expression.mentions_withOccurrence]
  | minus => cases hp; simp [Body.mentions, Token.mention]
  | bar => cases hp; simp [Body.mentions, Token.mention, Level.mentions_endArm, mentions_endItem]
  | closing =>
    cases hp
    simp [Body.mentions, Opened.mentions, Token.mention, Expression.mentions_parenthesized,
      Level.mentions_close, mentions_endItem]
  | next _ _ ih =>
    rw [ih hh hp]
    simp [Body.mentions, Level.mentions_addItem, mentions_endItem]
  | last => cases hp

/-- The token that ends a rule is not a part of it. -/
theorem Body.Step.mentions_whole {body : Body} {token : Token} {e : Expression}
    (h : Body.Step body token (.whole e)) :
    e.mentions = body.mentions ∧ (token = .closing ∨ token.isHead = true) := by
  cases h with
  | next _ h => cases h
  | last ht => exact ⟨by simp [Body.mentions, Level.mentions_close, mentions_endItem], ht⟩

/-! The defining mark is read exactly after the name of a rule. -/

def State.isNamed (state : State) : Bool :=
  match state.place with
  | .named _ => true
  | _ => false

theorem State.Step.isNamed_eq {state next : State} {token : Token}
    (h : State.Step state token next) : state.isNamed = (token == .defining) := by
  cases h with
  | name => rfl
  | defining => rfl
  | within hb => exact (beq_eq_false_iff_ne.2 hb.ne_defining).symm
  | rule => rfl

/-- A step adds what its token mentions, if words are marked as heads exactly where rules begin. -/
theorem State.Step.mentions {state next : State} {token : Token} (h : State.Step state token next)
    (hh : ∀ name head, token = .symbol name head → head = next.isNamed) :
    next.mentions = state.mentions ++ token.mention := by
  cases h with
  | name => cases hh _ _ rfl; simp [State.mentions, State.isNamed, Token.mention]
  | defining => simp [State.mentions, Token.mention, Body.mentions, Level.mentions]
  | within hb =>
    have ht : token.isHead = false := by
      cases token with
      | symbol name head => exact hh name head rfl
      | _ => rfl
    simp [State.mentions, hb.mentions ht]
  | rule hb =>
    cases hh _ _ rfl
    simp [State.mentions, State.isNamed, Token.mention, Rule.mentions, hb.mentions_whole.1]

theorem State.isNamed_of_foldlM {state last : State} {tokens : List Token} {grammar : Grammar}
    (h : tokens.foldlM feed state = .ok last) (hf : last.finish = some grammar) :
    state.isNamed = (tokens.head? == some .defining) := by
  cases tokens with
  | nil =>
    cases h
    obtain ⟨rules, place⟩ := state
    cases place with
    | named => cases hf
    | _ => rfl
  | cons token tokens =>
    obtain ⟨next, hn, -⟩ := foldlM_cons_eq_ok_iff.1 h
    exact (feed_eq_ok_iff.1 hn).isNamed_eq

theorem State.mentions_of_finish {state : State} {grammar : Grammar}
    (h : state.finish = some grammar) : grammar.mentions = state.mentions := by
  have he := Ended.of_finish h
  rw [Grammar.mentions, ← List.reverse_reverse grammar.rules]
  generalize grammar.rules.reverse = rules at he
  cases he with
  | start => simp [mentions]
  | rule => simp [mentions, Rule.mentions, Body.mentions, Level.mentions_close, mentions_endItem]

/-- The mentions of a grammar are those that have been read and those that are left. -/
theorem State.mentions_of_foldlM {tokens : List Token} (ht : ∀ name, .symbol name true ∉ tokens)
    {state last : State} {grammar : Grammar}
    (h : (headed tokens).foldlM feed state = .ok last) (hf : last.finish = some grammar) :
    grammar.mentions = state.mentions ++ (headed tokens).flatMap Token.mention := by
  induction tokens generalizing state with
  | nil => cases h; simpa [headed] using mentions_of_finish hf
  | cons token tokens ih =>
    have ht' : ∀ name, .symbol name true ∉ tokens := fun name hm =>
      ht name (List.mem_cons_of_mem _ hm)
    by_cases hs : ∃ name head, token = .symbol name head
    · obtain ⟨name, head, rfl⟩ := hs
      obtain rfl : head = false := by
        cases head with
        | false => rfl
        | true => exact absurd (by simp) (ht name)
      rw [headed_symbol] at h ⊢
      obtain ⟨next, hn, hl⟩ := foldlM_cons_eq_ok_iff.1 h
      -- The word is marked as a head if the defining mark comes next, and then it is one.
      have hnamed := isNamed_of_foldlM hl hf
      rw [head?_headed_beq] at hnamed
      have hstep := (feed_eq_ok_iff.1 hn).mentions fun _ _ he => by cases he; exact hnamed.symm
      rw [ih ht' hl, hstep, List.flatMap_cons, List.append_assoc]
    · have hs : ∀ name head, token ≠ .symbol name head := fun name head he => hs ⟨name, head, he⟩
      rw [headed_cons hs] at h ⊢
      obtain ⟨next, hn, hl⟩ := foldlM_cons_eq_ok_iff.1 h
      have hstep := (feed_eq_ok_iff.1 hn).mentions fun name head he => absurd he (hs name head)
      rw [ih ht' hl, hstep, List.flatMap_cons, List.append_assoc]

end GrammarText.W3c
