import GrammarText.Proofs.Iso.Entries

/-!
# Steps of reading an ISO grammar

What a comment or a token can do, with one constructor for each way to go on.
-/

namespace GrammarText.Iso

/-- A token that can stand right after a term, and so ends an empty primary. -/
def Token.endsTerm : Token → Bool
  | .minus | .comma | .separator | .closing _ | .terminator => true
  | _ => false

/-- The primary that a token alone makes up. -/
def Token.leaf? : Token → Option Primary
  | .special text => some (.special text)
  | .terminal text => some (.terminal text)
  | .name text => some (.name text)
  | _ => none

/-- Where the primary of a factor may stand. -/
def Lead.slot : Lead → Slot
  | ⟨minuend, _, none⟩ => .factor minuend
  | ⟨minuend, _, some n⟩ => .primary minuend n

/-! ## Within a rule -/

/-- A step within the right side of a rule. The first comments wait before the token, the second
ones wait after it. -/
inductive Body.Step : Body → List String → Token → List String → Progress → Prop where
  | count {opened level minuend comments n} (hn : n < countBound) :
      Step ⟨opened, level, .factor minuend⟩ comments (.count n) comments
        (.partly ⟨opened, level, .star minuend n⟩)
  | star {opened level minuend n comments} :
      Step ⟨opened, level, .star minuend n⟩ comments .star comments
        (.partly ⟨opened, level, .primary minuend n⟩)
  | opening {opened level bracket} {lead : Lead} :
      Step ⟨opened, level, lead.slot⟩ lead.comments (.opening bracket) []
        (.partly ⟨⟨bracket, level, lead⟩ :: opened, {}, .factor none⟩)
  | leaf {opened level token primary} {lead : Lead} (ht : token.leaf? = some primary) :
      Step ⟨opened, level, lead.slot⟩ lead.comments token []
        (.partly ⟨opened, level, .term (lead.term primary)⟩)
  | empty {opened level token progress} {lead : Lead}
      (h : Step ⟨opened, level, .term (lead.term .empty)⟩ [] token [] progress) :
      Step ⟨opened, level, lead.slot⟩ lead.comments token [] progress
  | minus {opened level factor comments} :
      Step ⟨opened, level, .term ⟨factor, none⟩⟩ comments .minus comments
        (.partly ⟨opened, level, .factor (some factor)⟩)
  | comma {opened level term comments} :
      Step ⟨opened, level, .term term⟩ comments .comma comments
        (.partly ⟨opened, level.addTerm term, .factor none⟩)
  | separator {opened level term comments} :
      Step ⟨opened, level, .term term⟩ comments .separator comments
        (.partly ⟨opened, ⟨level.endDefinition term, []⟩, .factor none⟩)
  | closing {top opened level term comments} :
      Step ⟨top :: opened, level, .term term⟩ comments (.closing top.bracket) comments
        (.partly ⟨opened, top.level,
          .term (top.lead.term (.sequence top.bracket (level.close term)))⟩)
  | terminator {level term comments} :
      Step ⟨[], level, .term term⟩ comments .terminator comments (.whole (level.close term))

section Body

variable {body : Body} {opened : List Opened} {level : Level} {slot : Slot} {lead : Lead}
  {term : Term} {token : Token} {comments left : List String} {progress : Progress}

theorem step_slot (ht : ∀ n, token ≠ .count n) :
    Body.step ⟨opened, level, lead.slot⟩ lead.comments token =
      (Body.atPrimary ⟨opened, level, lead.slot⟩ lead token).map (Prod.mk []) := by
  obtain ⟨minuend, comments, _ | n⟩ := lead
  · cases token with
    | count n => exact absurd rfl (ht n)
    | _ => rfl
  · rfl

/-- Before a token that ends a term, no primary is as good as an empty one. -/
theorem step_slot_of_endsTerm (ht : token.endsTerm = true) :
    Body.step ⟨opened, level, lead.slot⟩ lead.comments token =
      Body.step ⟨opened, level, .term (lead.term .empty)⟩ [] token := by
  rw [step_slot (by rintro n rfl; cases ht)]
  cases token with
  | minus | comma | separator | closing | terminator => rfl
  | _ => cases ht

theorem Body.Step.of_afterTerm
    (h : Body.afterTerm ⟨opened, level, slot⟩ term token = .ok progress) :
    Body.Step ⟨opened, level, .term term⟩ comments token comments progress := by
  cases token with
  | minus =>
    obtain ⟨factor, _ | exception⟩ := term
    · cases h; exact .minus
    · cases h
  | comma => cases h; exact .comma
  | separator => cases h; exact .separator
  | closing bracket =>
    cases opened with
    | nil => cases h
    | cons top opened =>
      simp only [afterTerm] at h
      split at h
      · next hb => cases h; subst hb; exact .closing
      · cases h
  | terminator =>
    cases opened with
    | nil => cases h; exact .terminator
    | cons => cases h
  | _ => cases h

theorem Body.Step.of_atPrimary
    (h : Body.atPrimary ⟨opened, level, slot⟩ lead token = .ok progress) :
    Body.Step ⟨opened, level, lead.slot⟩ lead.comments token [] progress := by
  cases token with
  | opening => cases h; exact .opening
  | special => cases h; exact .leaf rfl
  | terminal => cases h; exact .leaf rfl
  | name => cases h; exact .leaf rfl
  | unclosed => cases h
  | _ => exact .empty (.of_afterTerm h)

theorem map_mk_eq_ok_iff {α β ε : Type} {x : Except ε β} {a b : α} {c : β} :
    x.map (Prod.mk a) = .ok (b, c) ↔ x = .ok c ∧ a = b := by
  cases x <;> simp [Except.map, and_comm]

theorem Body.Step.of_step (h : body.step comments token = .ok (left, progress)) :
    Body.Step body comments token left progress := by
  obtain ⟨opened, level, slot⟩ := body
  cases slot with
  | factor minuend =>
    by_cases ht : ∃ n, token = .count n
    · obtain ⟨n, rfl⟩ := ht
      simp only [step] at h
      split at h
      · next hn => cases h; exact .count hn
      · cases h
    · have hs := @step_slot opened level ⟨minuend, comments, none⟩ token fun n hn => ht ⟨n, hn⟩
      obtain ⟨hp, rfl⟩ := map_mk_eq_ok_iff.1 (hs.symm.trans h)
      exact .of_atPrimary hp
  | star minuend n =>
    cases token with
    | star => cases h; exact .star
    | _ => cases h
  | primary minuend n =>
    obtain ⟨hp, rfl⟩ := map_mk_eq_ok_iff.1 h
    exact @of_atPrimary opened level _ ⟨minuend, comments, some n⟩ token progress hp
  | term term =>
    obtain ⟨hp, rfl⟩ := map_mk_eq_ok_iff.1 h
    exact .of_afterTerm hp

theorem Lead.slot_ne_term (lead : Lead) (term : Term) : lead.slot ≠ .term term := by
  obtain ⟨minuend, comments, _ | n⟩ := lead <;> simp [slot]

theorem Body.Step.endsTerm
    (h : Body.Step ⟨opened, level, .term term⟩ comments token left progress) :
    token.endsTerm = true := by
  generalize hb : (⟨opened, level, .term term⟩ : Body) = body at h
  cases h with
  | count => cases hb
  | star => cases hb
  | opening => exact absurd (congrArg Body.slot hb).symm (Lead.slot_ne_term _ _)
  | leaf => exact absurd (congrArg Body.slot hb).symm (Lead.slot_ne_term _ _)
  | empty => exact absurd (congrArg Body.slot hb).symm (Lead.slot_ne_term _ _)
  | _ => rfl

theorem Body.Step.step_eq (h : Body.Step body comments token left progress) :
    body.step comments token = .ok (left, progress) := by
  induction h with
  | count hn => exact if_pos hn
  | star => rfl
  | opening => exact step_slot (by simp)
  | @leaf _ _ token _ _ ht =>
    rw [step_slot (by rintro n rfl; cases ht)]
    cases token <;> cases ht <;> rfl
  | empty h ih => rw [step_slot_of_endsTerm h.endsTerm, ih]
  | minus => rfl
  | comma => rfl
  | separator => rfl
  | closing => simp [step, afterTerm, Except.map]
  | terminator => rfl

end Body

/-! ## Whole grammars -/

/-- A step within a grammar. -/
inductive State.Step : State → Entry Token → State → Prop where
  | comment {rules pending place body} :
      Step ⟨rules, pending, place⟩ (.comment body) ⟨rules, pending ++ [body], place⟩
  | name {rules pending text} :
      Step ⟨rules, pending, .between⟩ (.token (.name text)) ⟨rules, pending, .named ⟨text, 1⟩⟩
  | defining {rules pending rule} :
      Step ⟨rules, pending, .named rule⟩ (.token .defining)
        ⟨rules, [], .within rule pending ⟨[], {}, .factor none⟩⟩
  | within {rules pending left rule comments body token next}
      (h : Body.Step body pending token left (.partly next)) :
      Step ⟨rules, pending, .within rule comments body⟩ (.token token)
        ⟨rules, left, .within rule comments next⟩
  | rule {rules pending left rule comments body token definitions}
      (h : Body.Step body pending token left (.whole definitions)) :
      Step ⟨rules, pending, .within rule comments body⟩ (.token token)
        ⟨⟨rule.name, rule.line, comments, definitions⟩ :: rules, left, .between⟩

theorem State.feed_eq_ok_iff {state next : State} {entry : Entry Token} :
    state.feed entry = .ok next ↔ State.Step state entry next := by
  constructor
  · intro h
    obtain ⟨rules, pending, place⟩ := state
    cases entry with
    | comment body => cases h; exact .comment
    | token token =>
      cases place with
      | between => cases token <;> cases h; simpa [Position.start] using Step.name
      | named rule => cases token <;> cases h; simpa using Step.defining
      | within rule comments body =>
        simp only [feed, step, List.append_nil] at h
        split at h
        · next hs => cases h; exact .within (.of_step hs)
        · next hs => cases h; exact .rule (.of_step hs)
        · cases h
  · intro h
    cases h with
    | comment => rfl
    | name => simp [feed, step, Position.start]
    | defining => simp [feed, step]
    | within h => simp [feed, step, h.step_eq]
    | rule h => simp [feed, step, h.step_eq]

theorem State.finish_eq_some_iff {state : State} {comments : List String} {grammar : Grammar} :
    state.finish comments = some grammar ↔ state.place = .between ∧ state.rules ≠ [] ∧
      grammar = ⟨state.rules.reverse, state.pending ++ comments⟩ := by
  obtain ⟨rules, pending, place⟩ := state
  cases place with
  | between => cases rules <;> simp [finish, eq_comm]
  | named => simp [finish]
  | within => simp [finish]

end GrammarText.Iso
