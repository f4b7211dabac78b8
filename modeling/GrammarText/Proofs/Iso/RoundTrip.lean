import GrammarText.Proofs.Iso.Printable
import GrammarText.Proofs.Iso.Steps

/-!
# Printing and reading ISO grammars

What is printed of a printable tree is read as that tree. An empty primary leaves no token, so what
a part of a rule leads to can be told only at the token after it: `LeadsTo` compares the two states
from there on.
-/

namespace GrammarText.Iso

/-- After the entries the reading goes on as from `t`, if the next token ends a term. -/
def LeadsTo (s : State) (entries : List (Entry Token)) (t : State) : Prop :=
  ∀ token rest, token.endsTerm = true →
    (entries ++ .token token :: rest).foldlM State.feed s =
      (.token token :: rest).foldlM State.feed t

section LeadsTo

variable {s t u v : State} {entries after : List (Entry Token)} {entry : Entry Token} {token : Token}

theorem LeadsTo.cons (hs : s.feed entry = .ok t) (h : LeadsTo t entries u) :
    LeadsTo s (entry :: entries) u := by
  intro token rest ht
  rw [List.cons_append, List.foldlM_cons, hs, ok_bind, h token rest ht]

theorem LeadsTo.nil : LeadsTo s [] s := fun _ _ _ => rfl

theorem LeadsTo.append (h : LeadsTo s entries t) (he : token.endsTerm = true)
    (ht : t.feed (.token token) = .ok u) (hu : LeadsTo u after v) :
    LeadsTo s (entries ++ .token token :: after) v := by
  intro next rest hn
  rw [List.append_assoc, List.cons_append, h token _ he, List.foldlM_cons, ht, ok_bind,
    hu next rest hn]

theorem LeadsTo.comments (comments : List String)
    (h : LeadsTo { s with pending := s.pending ++ comments } entries t) :
    LeadsTo s (comments.map .comment ++ entries) t := by
  intro token rest ht
  rw [List.append_assoc, List.foldlM_append, State.foldlM_feed_comments, ok_bind, h token rest ht]

end LeadsTo

/-! ## Steps within a rule -/

section Steps

variable {rules : List Rule} {rule : RuleContext} {comments pending : List String}
  {opened : List Opened} {level : Level} {lead : Lead} {term : Term} {token : Token}

/-- A state on the right side of a rule. -/
def inside (rules : List Rule) (rule : RuleContext) (comments pending : List String) (body : Body) :
    State :=
  ⟨rules, pending, .within rule comments body⟩

/-- The factor as a term of its own, or as what is excepted from another. -/
def exceptedFrom : Option Factor → Factor → Term
  | none, factor => ⟨factor, none⟩
  | some minuend, factor => ⟨minuend, some factor⟩

theorem Lead.term_eq (minuend : Option Factor) (comments : List String) (count : Option Nat)
    (primary : Primary) :
    Lead.term ⟨minuend, comments, count⟩ primary =
      exceptedFrom minuend ⟨comments, count, primary⟩ := by
  cases minuend <;> rfl

theorem feed_inside {body next : Body} {left : List String}
    (h : body.step pending token = .ok (left, .partly next)) :
    (inside rules rule comments pending body).feed (.token token) =
      .ok (inside rules rule comments left next) := by
  simp [inside, State.feed, State.step, h]

/-- Before a token that ends a term, no primary is as good as an empty one. -/
theorem feed_slot (ht : token.endsTerm = true) :
    (inside rules rule comments lead.comments ⟨opened, level, lead.slot⟩).feed (.token token) =
      (inside rules rule comments [] ⟨opened, level, .term (lead.term .empty)⟩).feed
        (.token token) := by
  simp [inside, State.feed, State.step, step_slot_of_endsTerm ht]

end Steps

/-! ## Parts of a rule -/

section Parts

variable {rules : List Rule} {rule : RuleContext} {comments : List String}

mutual

theorem Term.leadsTo {opened : List Opened} {level : Level} : (term : Term) → term.Printable →
    LeadsTo (inside rules rule comments [] ⟨opened, level, .factor none⟩) term.entries
      (inside rules rule comments [] ⟨opened, level, .term term⟩)
  | ⟨factor, none⟩, ht => Factor.leadsTo none factor ht
  | ⟨factor, some exception⟩, ht =>
    (Factor.leadsTo none factor ht.1).append rfl (feed_inside rfl)
      (Factor.leadsTo (some factor) exception ht.2)
termination_by structural term => term

theorem Factor.leadsTo {opened : List Opened} {level : Level} (minuend : Option Factor) :
    (factor : Factor) → factor.Printable →
      LeadsTo (inside rules rule comments [] ⟨opened, level, .factor minuend⟩) factor.entries
        (inside rules rule comments [] ⟨opened, level, .term (exceptedFrom minuend factor)⟩)
  | ⟨own, none, primary⟩, hf => by
    rw [← Lead.term_eq]
    exact .comments own (Primary.leadsTo ⟨minuend, own, none⟩ primary hf.2.2)
  | ⟨own, some n, primary⟩, hf => by
    rw [← Lead.term_eq]
    have hn : n < countBound := hf.2.1 n rfl
    exact .comments own (.cons (feed_inside (if_pos hn))
      (.cons (feed_inside rfl) (Primary.leadsTo ⟨minuend, own, some n⟩ primary hf.2.2)))
termination_by structural factor => factor

theorem Primary.leadsTo {opened : List Opened} {level : Level} (lead : Lead) :
    (primary : Primary) → primary.Printable →
      LeadsTo (inside rules rule comments lead.comments ⟨opened, level, lead.slot⟩) primary.entries
        (inside rules rule comments [] ⟨opened, level, .term (lead.term primary)⟩)
  | .sequence bracket definitions, hp => by
    obtain ⟨inner, term, hl, hclose⟩ :=
      DefinitionsList.leadsTo (⟨bracket, level, lead⟩ :: opened) [] definitions hp.1 hp.2
    have hend : Body.step ⟨⟨bracket, level, lead⟩ :: opened, inner, .term term⟩ []
        (.closing bracket) = .ok ([], .partly ⟨opened, level,
          .term (lead.term (.sequence bracket definitions))⟩) := by
      simp [Body.step, Body.afterTerm, Except.map, hclose]
    exact .cons (feed_inside (step_slot (by simp))) (hl.append rfl (feed_inside hend) .nil)
  | .special text, _ => .cons (feed_inside (step_slot (by simp))) .nil
  | .name text, _ => .cons (feed_inside (step_slot (by simp))) .nil
  | .terminal text, _ => .cons (feed_inside (step_slot (by simp))) .nil
  | .empty, _ => fun token rest ht => by
    -- No entry is left, so it is the token behind the primary that is read in either state.
    rw [Primary.entries, List.nil_append, List.foldlM_cons, feed_slot ht, List.foldlM_cons]
termination_by structural primary => primary

theorem DefinitionsList.leadsTo (opened : List Opened) (before : List Definition) :
    (definitions : List (List Term)) → definitions ≠ [] → DefinitionsList.Printable definitions →
      ∃ level term,
        LeadsTo (inside rules rule comments [] ⟨opened, ⟨before, []⟩, .factor none⟩)
          (DefinitionsList.entries definitions)
          (inside rules rule comments [] ⟨opened, level, .term term⟩) ∧
        level.close term = before.reverse ++ definitions
  | [], hne, _ => absurd rfl hne
  | [definition], _, hd => by
    obtain ⟨level, term, hl, hend⟩ := Definition.leadsTo opened before [] definition hd.1 hd.2.1
    exact ⟨level, term, hl, by simp [Level.close, hend]⟩
  | definition :: next :: rest, _, hd => by
    obtain ⟨level, term, hl, hend⟩ := Definition.leadsTo opened before [] definition hd.1 hd.2.1
    obtain ⟨last, lastTerm, hr, hclose⟩ :=
      DefinitionsList.leadsTo opened (definition :: before) (next :: rest) (by simp) hd.2.2
    have hsep : Body.step ⟨opened, level, .term term⟩ [] .separator =
        .ok ([], .partly ⟨opened, ⟨definition :: before, []⟩, .factor none⟩) := by
      simp [Body.step, Body.afterTerm, Except.map, hend]
    exact ⟨last, lastTerm, hl.append rfl (feed_inside hsep) hr, by simp [hclose]⟩
termination_by structural definitions => definitions

theorem Definition.leadsTo (opened : List Opened) (before : List Definition) (terms : List Term) :
    (definition : List Term) → definition ≠ [] → Definition.Printable definition →
      ∃ level term,
        LeadsTo (inside rules rule comments [] ⟨opened, ⟨before, terms⟩, .factor none⟩)
          (Definition.entries definition)
          (inside rules rule comments [] ⟨opened, level, .term term⟩) ∧
        level.endDefinition term = (terms.reverse ++ definition) :: before
  | [], hne, _ => absurd rfl hne
  | [term], _, hd => ⟨_, term, Term.leadsTo term hd.1, by simp [Level.endDefinition]⟩
  | term :: next :: rest, _, hd => by
    obtain ⟨last, lastTerm, hr, hend⟩ :=
      Definition.leadsTo opened before (term :: terms) (next :: rest) (by simp) hd.2
    exact ⟨last, lastTerm, (Term.leadsTo term hd.1).append rfl (feed_inside rfl) hr,
      by simp [hend]⟩
termination_by structural definition => definition

end

end Parts

/-! ## Whole grammars -/

theorem foldlM_feed_rule {rules : List Rule} {rule : Rule} (hr : rule.Printable) :
    rule.entries.foldlM State.feed ⟨rules, [], .between⟩ =
      .ok ⟨rule.onLineOne :: rules, [], .between⟩ := by
  obtain ⟨-, -, hne, hd⟩ := hr
  obtain ⟨level, term, hl, hclose⟩ :=
    @DefinitionsList.leadsTo rules ⟨rule.name, 1⟩ rule.comments [] [] rule.definitions hne hd
  have hname : State.feed ⟨rules, rule.comments, .between⟩ (.token (.name rule.name)) =
      .ok ⟨rules, rule.comments, .named ⟨rule.name, 1⟩⟩ := by
    simp [State.feed, State.step, Position.start]
  have hdefining : State.feed ⟨rules, rule.comments, .named ⟨rule.name, 1⟩⟩ (.token .defining) =
      .ok (inside rules ⟨rule.name, 1⟩ rule.comments [] ⟨[], {}, .factor none⟩) := by
    simp [State.feed, State.step, inside]
  have hend : (inside rules ⟨rule.name, 1⟩ rule.comments [] ⟨[], level, .term term⟩).feed
      (.token .terminator) = .ok ⟨rule.onLineOne :: rules, [], .between⟩ := by
    simp [State.feed, State.step, inside, Body.step, Body.afterTerm, Except.map, hclose,
      Rule.onLineOne]
  rw [Rule.entries, List.foldlM_append, State.foldlM_feed_comments, ok_bind, List.foldlM_cons,
    List.nil_append, hname, ok_bind, List.foldlM_cons, hdefining, ok_bind, hl .terminator [] rfl,
    List.foldlM_cons, hend, ok_bind, List.foldlM_nil]
  rfl

theorem foldlM_feed_rules {rules : List Rule} (before : List Rule)
    (hr : ∀ rule ∈ rules, rule.Printable) :
    (rules.flatMap Rule.entries).foldlM State.feed ⟨before, [], .between⟩ =
      .ok ⟨(rules.map Rule.onLineOne).reverse ++ before, [], .between⟩ := by
  induction rules generalizing before with
  | nil => rfl
  | cons rule rules ih =>
    rw [List.flatMap_cons, List.foldlM_append, foldlM_feed_rule (hr rule (by simp)), ok_bind,
      ih _ fun r hm => hr r (by simp [hm])]
    simp

theorem State.finish_between {rules : List Rule} (hne : rules ≠ []) (pending : List String) :
    State.finish ⟨rules, pending, .between⟩ [] = some ⟨rules.reverse, pending⟩ :=
  State.finish_eq_some_iff.2 ⟨rfl, hne, by simp⟩

theorem Grammar.ofEntries_entries {grammar : Grammar} (hg : grammar.Printable) :
    Grammar.ofEntries grammar.entries = .ok grammar.onLineOne := by
  obtain ⟨hne, hr, -⟩ := hg
  have hread : (grammar.rules.map Rule.onLineOne).reverse ++ [] ≠ [] := by simpa using hne
  rw [Grammar.ofEntries, Grammar.entries, List.foldlM_append, foldlM_feed_rules [] hr, ok_bind,
    State.foldlM_feed_comments, ok_bind]
  simp only [State.finish_between hread]
  simp [Grammar.onLineOne]

/-- What is printed of a printable grammar is read as that grammar, up to the lines of its rules. -/
theorem Grammar.parse_print {grammar : Grammar} (hg : grammar.Printable) :
    ∃ read, Grammar.parse grammar.print = .ok read ∧ read.onLineOne = grammar.onLineOne := by
  have hs : Spells grammar.print.toList grammar.entries := by
    rw [Grammar.print, String.toList_ofList]
    exact Grammar.spells hg
  have hm := map_onLineOne_parse hs
  rw [Grammar.ofEntries_entries hg] at hm
  exact map_mapError_eq_ok_iff.1 hm

/-- A rule that needs everything that print can show. -/
def annotated : Grammar :=
  ⟨[⟨"rule", 7, ["what '*)' it is"],
      [[⟨⟨["none"], some 0, .empty⟩, some (.ofPrimary (.terminal "say \""))⟩,
          ⟨.ofPrimary (.special "any"), none⟩],
        [⟨.ofPrimary (.sequence .repeated [[⟨⟨[], some 12, .name "rule"⟩, none⟩]]), none⟩]]⟩],
    ["end"]⟩

theorem isName_rule : IsName "rule" := by
  refine ⟨'r', ['u', 'l', 'e'], rfl, rfl, ?_, ?_⟩
  · simp only [List.forall_mem_cons]
    exact ⟨.inl rfl, .inl rfl, .inl rfl, by simp⟩
  · simp only [List.forall_mem_cons]
    exact ⟨rfl, rfl, rfl, rfl, by simp⟩

theorem annotated_printable : annotated.Printable := by
  have hn := isName_rule
  have hwhat : IsCommentBody "what '*)' it is" := ⟨"(* what '*)' it is *)".toList, by cbv⟩
  have hnone : IsCommentBody "none" := ⟨"(* none *)".toList, by cbv⟩
  have hend : IsCommentBody "end" := ⟨"(* end *)".toList, by cbv⟩
  have ht : IsTerminal "say \"" := by simp [IsTerminal]
  have hs : IsSpecial "any" := ⟨by simp, by decide⟩
  simp [annotated, Grammar.Printable, Rule.Printable, DefinitionsList.Printable,
    Definition.Printable, Term.Printable, Factor.Printable, Primary.Printable, Factor.ofPrimary,
    countBound, hn, hwhat, hnone, hend, ht, hs]

theorem parse_print_annotated : annotated.Printable ∧ ∃ read,
    Grammar.parse annotated.print = .ok read ∧ read.onLineOne = annotated.onLineOne :=
  ⟨annotated_printable, Grammar.parse_print annotated_printable⟩

end GrammarText.Iso
