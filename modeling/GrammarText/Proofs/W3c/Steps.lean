import GrammarText.Proofs.W3c.Tokens

/-!
# Steps of reading a W3C grammar

What a token can do, with one constructor for each way to go on.
-/

namespace GrammarText.W3c

/-- The leaf that a token stands for. -/
def Token.leaf? : Token → Option Content
  | .literal text => some (.literal text)
  | .symbol name _ => some (.symbol name)
  | _ => none

/-- The token is the name of the next rule. -/
def Token.isHead : Token → Bool
  | .symbol _ head => head
  | _ => false

/-- The token is read where an operand must start. -/
def Token.startsOperand : Token → Bool
  | .opening | .literal _ | .symbol _ _ => true
  | _ => false

/-- A step within the right side of a rule. -/
inductive Body.Step : Body → Token → Progress → Prop where
  | opening {opened level minuend} : Step ⟨opened, level, .operand minuend⟩ .opening
      (.partly ⟨⟨level, minuend⟩ :: opened, {}, .operand none⟩)
  | leaf {opened level minuend token content} (ht : token.leaf? = some content) :
      Step ⟨opened, level, .operand minuend⟩ token
        (.partly ⟨opened, level, .item minuend (.ofContent content) false⟩)
  | suffix {opened level minuend operand occurrence} :
      Step ⟨opened, level, .item minuend operand false⟩ (.suffix occurrence)
        (.partly ⟨opened, level, .item minuend (operand.withOccurrence occurrence) true⟩)
  | minus {opened level operand marked} : Step ⟨opened, level, .item none operand marked⟩ .minus
      (.partly ⟨opened, level, .operand (some operand)⟩)
  | bar {opened level minuend operand marked} :
      Step ⟨opened, level, .item minuend operand marked⟩ .bar
        (.partly ⟨opened, ⟨level.endArm (endItem minuend operand), []⟩, .operand none⟩)
  | closing {top opened level minuend operand marked} :
      Step ⟨top :: opened, level, .item minuend operand marked⟩ .closing
        (.partly ⟨opened, top.level,
          .item top.minuend (level.close (endItem minuend operand)).parenthesized false⟩)
  | next {opened level minuend operand marked token progress} (ht : token.isHead = false)
      (h : Step ⟨opened, level.addItem (endItem minuend operand), .operand none⟩ token progress) :
      Step ⟨opened, level, .item minuend operand marked⟩ token progress
  | last {level minuend operand marked token} (ht : token = .closing ∨ token.isHead = true) :
      Step ⟨[], level, .item minuend operand marked⟩ token
        (.whole (level.close (endItem minuend operand)))

section Body

variable {opened : List Opened} {level : Level} {minuend : Option Expression} {operand : Expression}
  {marked : Bool} {token : Token} {progress : Progress}

theorem Body.Step.of_atOperand
    (h : Body.atOperand ⟨opened, level, .operand minuend⟩ minuend token = .ok progress) :
    Body.Step ⟨opened, level, .operand minuend⟩ token progress := by
  cases token with
  | opening => cases h; exact .opening
  | literal => cases h; exact .leaf rfl
  | symbol => cases h; exact .leaf rfl
  | _ => cases h

theorem Body.Step.of_afterItem
    (h : Body.afterItem ⟨opened, level, .item minuend operand marked⟩ (endItem minuend operand)
      token = .ok progress) :
    Body.Step ⟨opened, level, .item minuend operand marked⟩ token progress := by
  cases token with
  | closing =>
    cases opened with
    | nil => cases h; exact .last (.inl rfl)
    | cons => cases h; exact .closing
  | symbol name head =>
    cases head with
    | false => exact .next rfl (.of_atOperand h)
    | true =>
      cases opened with
      | nil => cases h; exact .last (.inr rfl)
      | cons => cases h
  | bar => cases h; exact .bar
  | opening => exact .next rfl (.of_atOperand h)
  | literal => exact .next rfl (.of_atOperand h)
  | _ => cases h

theorem Body.Step.of_step {body : Body} (h : body.step true token = .ok progress) :
    Body.Step body token progress := by
  obtain ⟨opened, level, minuend | ⟨minuend, operand, marked⟩⟩ := body
  · exact .of_atOperand h
  · unfold Body.step at h
    split at h
    · next hs => cases hs
    · next hs =>
      cases hs
      split at h
      · next ht => cases h; exact .suffix
      · split at h
        · cases h; exact .minus
        · exact .of_afterItem h

theorem Body.Step.step_eq {body : Body} (h : Body.Step body token progress) :
    body.step true token = .ok progress := by
  cases h with
  | opening => rfl
  | leaf ht => cases token <;> cases ht <;> rfl
  | suffix => rfl
  | minus => rfl
  | @bar _ _ minuend => cases minuend <;> rfl
  | @closing _ _ _ minuend => cases minuend <;> rfl
  | @next _ _ minuend _ _ _ _ ht h =>
    cases h with
    | opening => cases minuend <;> rfl
    | leaf hl => cases token <;> cases hl <;> cases ht <;> cases minuend <;> rfl
  | @last _ minuend _ _ _ ht =>
    rcases ht with rfl | ht
    · cases minuend <;> rfl
    · cases token with
      | symbol => cases ht; cases minuend <;> rfl
      | _ => cases ht

theorem Body.Step.ne_unclosed {body : Body} (h : Body.Step body token progress) :
    token ≠ .unclosed := by
  induction h with
  | leaf ht => rintro rfl; cases ht
  | next _ _ ih => exact ih
  | last ht => rintro rfl; simp [Token.isHead] at ht
  | _ => simp

theorem Body.Step.ne_defining {body : Body} (h : Body.Step body token progress) :
    token ≠ .defining := by
  induction h with
  | leaf ht => rintro rfl; cases ht
  | next _ _ ih => exact ih
  | last ht => rintro rfl; simp [Token.isHead] at ht
  | _ => simp

theorem Body.Step.startsOperand
    (h : Body.Step ⟨opened, level, .operand minuend⟩ token progress) : token.startsOperand := by
  cases h with
  | opening => rfl
  | leaf ht => cases token <;> cases ht <;> rfl

/-- The same body within more parentheses. -/
def Body.nestedIn (body : Body) (outer : List Opened) : Body :=
  { body with opened := body.opened ++ outer }

/-- Reading within a rule does not look at the parentheses outside, as long as it goes on. -/
theorem Body.Step.nestedIn {body next : Body} (h : Body.Step body token (.partly next))
    (outer : List Opened) :
    Body.Step (body.nestedIn outer) token (.partly (next.nestedIn outer)) := by
  cases h with
  | opening => exact .opening
  | leaf ht => exact .leaf ht
  | suffix => exact .suffix
  | minus => exact .minus
  | bar => exact .bar
  | closing => exact .closing
  | next ht h =>
    cases h with
    | opening => exact .next ht .opening
    | leaf hl => exact .next ht (.leaf hl)

/-- Marking heads leaves open whether an operand starts. -/
theorem startsOperand_of_headed {tokens : List Token}
    (h : ∀ token ∈ (headed tokens).head?, token.startsOperand) :
    ∀ token ∈ tokens.head?, token.startsOperand := by
  match tokens, h with
  | [], _ => simp
  | token :: more, h =>
    by_cases hs : ∃ name head, token = .symbol name head
    · obtain ⟨name, head, rfl⟩ := hs
      simp [Token.startsOperand]
    · rw [headed_cons fun name head ht => hs ⟨name, head, ht⟩] at h
      simpa using h

/-! ## Runs within a rule -/

/-- The tokens lead from one body to another. -/
inductive Body.Run : Body → List Token → Body → Prop where
  | nil {body} : Run body [] body
  | cons {first second last token tokens} (h : Body.Step first token (.partly second))
      (hr : Run second tokens last) : Run first (token :: tokens) last

namespace Body.Run

variable {first second last : Body} {tokens more : List Token}

theorem single (h : Body.Step first token (.partly second)) : Run first [token] second :=
  .cons h .nil

theorem append (h : Run first tokens second) (hm : Run second more last) :
    Run first (tokens ++ more) last := by
  induction h with
  | nil => exact hm
  | cons hs _ ih => exact .cons hs (ih hm)

theorem startsOperand (h : Run ⟨opened, level, .operand minuend⟩ tokens last) :
    ∀ token ∈ tokens.head?, token.startsOperand := by
  cases h with
  | nil => simp
  | cons hs _ => simpa using hs.startsOperand

theorem not_mem_unclosed (h : Run first tokens last) : .unclosed ∉ tokens := by
  induction h with
  | nil => simp
  | cons hs _ ih => simpa using ⟨hs.ne_unclosed.symm, ih⟩

theorem not_mem_defining (h : Run first tokens last) : .defining ∉ tokens := by
  induction h with
  | nil => simp
  | cons hs _ ih => simpa using ⟨hs.ne_defining.symm, ih⟩

theorem nestedIn (h : Run first tokens last) (outer : List Opened) :
    Run (first.nestedIn outer) tokens (last.nestedIn outer) := by
  induction h with
  | nil => exact .nil
  | cons hs _ ih => exact .cons (hs.nestedIn outer) ih

/-- What starts an item can come right after another. -/
theorem next {opened' : List Opened} {level' : Level} {minuend' : Option Expression}
    {operand' : Expression} {marked' : Bool} (hh : ∀ token ∈ tokens, token.isHead = false)
    (h : Run ⟨opened, level.addItem (endItem minuend operand), .operand none⟩ tokens
      ⟨opened', level', .item minuend' operand' marked'⟩) :
    Run ⟨opened, level, .item minuend operand marked⟩ tokens
      ⟨opened', level', .item minuend' operand' marked'⟩ := by
  cases h with
  | cons hs hr => exact .cons (.next (hh _ (by simp)) hs) hr

end Body.Run

end Body

/-! ## Whole grammars -/

/-- A step within a grammar. -/
inductive State.Step : State → Token → State → Prop where
  | name {rules name head} :
      Step ⟨rules, .between⟩ (.symbol name head) ⟨rules, .named ⟨name, 1⟩⟩
  | defining {rules rule} :
      Step ⟨rules, .named rule⟩ .defining ⟨rules, .within rule ⟨[], {}, .operand none⟩⟩
  | within {rules rule body token next} (h : Body.Step body token (.partly next)) :
      Step ⟨rules, .within rule body⟩ token ⟨rules, .within rule next⟩
  | rule {rules rule body name head expression}
      (h : Body.Step body (.symbol name head) (.whole expression)) :
      Step ⟨rules, .within rule body⟩ (.symbol name head)
        ⟨⟨rule.name, rule.line, expression⟩ :: rules, .named ⟨name, 1⟩⟩

theorem State.feed_eq_ok_iff {state next : State} {token : Token} :
    state.feed token = .ok next ↔ State.Step state token next := by
  constructor
  · intro h
    obtain ⟨rules, place⟩ := state
    cases place with
    | between => cases token <;> cases h; exact .name
    | named rule => cases token <;> cases h; exact .defining
    | within rule body =>
      simp only [feed, step] at h
      split at h
      · next hs => cases h; exact .within (.of_step hs)
      · next hs => cases token <;> cases h; exact .rule (.of_step hs)
      · cases h
  · intro h
    cases h with
    | name => rfl
    | defining => rfl
    | within h => simp [feed, step, h.step_eq]
    | rule h => simp [feed, step, h.step_eq, startRule, Position.start]

theorem State.Step.ne_unclosed {state next : State} {token : Token}
    (h : State.Step state token next) : token ≠ .unclosed := by
  cases h with
  | within hb => exact hb.ne_unclosed
  | _ => simp

theorem State.not_mem_unclosed_of_foldlM {state last : State} {tokens : List Token}
    (h : tokens.foldlM feed state = .ok last) : .unclosed ∉ tokens :=
  fun hm => forall_mem_of_foldlM h (fun _ _ _ hn => (feed_eq_ok_iff.1 hn).ne_unclosed) _ hm rfl

theorem Body.Run.foldlM_feed {first last : Body} {tokens : List Token} (h : Run first tokens last)
    (rules : List Rule) (rule : RuleContext) :
    tokens.foldlM State.feed ⟨rules, .within rule first⟩ = .ok ⟨rules, .within rule last⟩ := by
  induction h with
  | nil => rfl
  | cons hs _ ih => rw [List.foldlM_cons, State.feed_eq_ok_iff.2 (.within hs), ok_bind, ih]

/-- The number of rules of which at least the name has been read. -/
def State.begun (state : State) : Nat :=
  match state.place with
  | .between => state.rules.length
  | _ => state.rules.length + 1

theorem State.Step.begun_le {state next : State} {token : Token} (h : State.Step state token next) :
    state.begun ≤ next.begun := by
  cases h <;> simp [begun]

theorem State.begun_le_of_foldlM {state last : State} {tokens : List Token}
    (h : tokens.foldlM State.feed state = .ok last) : state.begun ≤ last.begun := by
  induction tokens generalizing state with
  | nil => cases h; exact Nat.le_refl _
  | cons token tokens ih =>
    obtain ⟨next, hn, hl⟩ := foldlM_cons_eq_ok_iff.1 h
    exact Nat.le_trans (feed_eq_ok_iff.1 hn).begun_le (ih hl)

/-- If no rule begins, all tokens are of the rule that is being read. -/
theorem Body.Run.of_foldlM {rules : List Rule} {rule : RuleContext} {body : Body}
    {tokens : List Token} {last : State}
    (h : tokens.foldlM State.feed ⟨rules, .within rule body⟩ = .ok last)
    (hl : last.begun ≤ rules.length + 1) :
    ∃ final, Run body tokens final ∧ last = ⟨rules, .within rule final⟩ := by
  induction tokens generalizing body with
  | nil => cases h; exact ⟨body, .nil, rfl⟩
  | cons token tokens ih =>
    obtain ⟨next, hn, ht⟩ := foldlM_cons_eq_ok_iff.1 h
    cases State.feed_eq_ok_iff.1 hn with
    | within hs =>
      obtain ⟨final, hr, hf⟩ := ih ht
      exact ⟨final, .cons hs hr, hf⟩
    | rule hs =>
      -- The name of a further rule has been read, which is one too many.
      have := State.begun_le_of_foldlM ht
      simp [State.begun] at this hl
      omega

/-- The state in which the text may end. The rules that have been read stand last first. -/
inductive State.Ended : State → List Rule → Prop where
  | start {rules} : Ended ⟨rules, .between⟩ rules
  | rule {rules rule level minuend operand marked} :
      Ended ⟨rules, .within rule ⟨[], level, .item minuend operand marked⟩⟩
        (⟨rule.name, rule.line, level.close (endItem minuend operand)⟩ :: rules)

namespace State.Ended

variable {state : State} {rules : List Rule}

/-- Where the text may end, the next rule may start, and nothing is left of the one before it. -/
theorem step_head (h : Ended state rules) {lexeme : Lexeme Token} {name : String}
    (ht : lexeme.token = .symbol name true) :
    state.step lexeme = .ok ⟨rules, .named ⟨name, lexeme.start.line⟩⟩ := by
  obtain ⟨comments, glued, start, token⟩ := lexeme
  cases ht
  cases h with
  | start => rfl
  | @rule rules rule level minuend operand marked =>
    have hb : Body.step ⟨[], level, .item minuend operand marked⟩ glued (.symbol name true) =
        .ok (.whole (level.close (endItem minuend operand))) := by
      rw [← Body.step_seen, Token.seen_symbol]
      exact (Body.Step.last (.inr rfl)).step_eq
    simp only [State.step, hb, startRule]

theorem feed_head (h : Ended state rules) (name : String) :
    state.feed (.symbol name true) = .ok ⟨rules, .named ⟨name, 1⟩⟩ :=
  h.step_head rfl

theorem finish_eq (h : Ended state rules) : state.finish = some ⟨rules.reverse⟩ := by
  cases h <;> rfl

theorem begun_eq (h : Ended state rules) : state.begun = rules.length := by
  cases h <;> rfl

theorem of_finish {grammar : Grammar} (h : state.finish = some grammar) :
    Ended state grammar.rules.reverse := by
  obtain ⟨rules, place⟩ := state
  cases place with
  | between =>
    cases h
    rw [List.reverse_reverse]
    exact .start
  | named rule => cases h
  | within rule body =>
    obtain ⟨opened, level, slot⟩ := body
    obtain ⟨e, he, rfl⟩ := Option.map_eq_some_iff.1 h
    rw [List.reverse_reverse]
    cases slot with
    | operand => cases opened <;> cases he
    | item =>
      cases opened with
      | nil => cases he; exact .rule
      | cons => cases he

theorem of_whole {rule : RuleContext} {body : Body} {token : Token} {expression : Expression}
    (h : Body.Step body token (.whole expression)) (rules : List Rule) :
    Ended ⟨rules, .within rule body⟩ (⟨rule.name, rule.line, expression⟩ :: rules) := by
  cases h with
  | next _ h => cases h
  | last => exact .rule

/-- A rule starts only where the text might end. -/
theorem of_step {next : State} {lexeme : Lexeme Token} {rule : RuleContext}
    (h : state.step lexeme = .ok next) (hp : next.place = .named rule) :
    Ended state next.rules ∧
      ∃ head, lexeme.token = .symbol rule.name head ∧ lexeme.start.line = rule.line := by
  obtain ⟨rules, place⟩ := state
  obtain ⟨comments, glued, start, token⟩ := lexeme
  cases place with
  | between => cases token <;> cases h; cases hp; exact ⟨.start, _, rfl, rfl⟩
  | named => cases token <;> cases h; cases hp
  | within rule body =>
    simp only [State.step] at h
    rw [← Body.step_seen] at h
    split at h
    · cases h; cases hp
    · next hs =>
      cases token <;> cases h
      cases hp
      exact ⟨of_whole (.of_step hs) rules, _, rfl, rfl⟩
    · cases h

end State.Ended

end GrammarText.W3c
