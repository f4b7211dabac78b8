import GrammarText.Proofs.Iso.Steps
import GrammarText.Proofs.Iso.Tokens

/-!
# Grammars that are read are printable

Whatever has been read of a grammar can be printed, so the whole grammar can.
-/

namespace GrammarText.Iso

/-! ## Lists -/

theorem Definition.printable_iff {definition : Definition} :
    Definition.Printable definition ↔ ∀ term ∈ definition, term.Printable := by
  induction definition with
  | nil => simp [Definition.Printable]
  | cons term more ih => simp [Definition.Printable, ih]

theorem DefinitionsList.printable_iff {definitions : DefinitionsList} :
    DefinitionsList.Printable definitions ↔
      ∀ definition ∈ definitions, definition ≠ [] ∧ ∀ term ∈ definition, term.Printable := by
  induction definitions with
  | nil => simp [DefinitionsList.Printable]
  | cons definition more ih =>
    simp [DefinitionsList.Printable, ih, Definition.printable_iff, and_assoc]

/-! ## What has been read -/

/-- All comments can be read again. -/
def CommentBodies (comments : List String) : Prop := ∀ body ∈ comments, IsCommentBody body

structure Level.Printable (level : Level) : Prop where
  definitions : ∀ definition ∈ level.definitions,
    definition ≠ [] ∧ ∀ term ∈ definition, term.Printable
  terms : ∀ term ∈ level.terms, term.Printable

structure Lead.Printable (lead : Lead) : Prop where
  minuend : ∀ factor ∈ lead.minuend, factor.Printable
  comments : CommentBodies lead.comments
  count : ∀ n ∈ lead.count, n < countBound

def Slot.Printable : Slot → Prop
  | .factor minuend => ∀ factor ∈ minuend, factor.Printable
  | .star minuend n | .primary minuend n =>
    (∀ factor ∈ minuend, factor.Printable) ∧ n < countBound
  | .term t => t.Printable

structure Body.Printable (body : Body) : Prop where
  opened : ∀ top ∈ body.opened, top.level.Printable ∧ top.lead.Printable
  level : body.level.Printable
  slot : body.slot.Printable

def Progress.Printable : Progress → Prop
  | .partly body => body.Printable
  | .whole definitions => definitions ≠ [] ∧ DefinitionsList.Printable definitions

def Place.Printable : Place → Prop
  | .between => True
  | .named rule => IsName rule.name
  | .within rule comments body => IsName rule.name ∧ CommentBodies comments ∧ body.Printable

structure State.Printable (state : State) : Prop where
  rules : ∀ rule ∈ state.rules, rule.Printable
  pending : CommentBodies state.pending
  place : state.place.Printable

section Parts

variable {level : Level} {lead : Lead} {term : Term} {factor : Factor} {primary : Primary}
  {token : Token}

theorem CommentBodies.nil : CommentBodies [] := fun _ h => nomatch h

theorem Level.Printable.empty : ({} : Level).Printable := ⟨by simp, by simp⟩

theorem Level.Printable.addTerm (hl : level.Printable) (ht : term.Printable) :
    (level.addTerm term).Printable :=
  ⟨hl.definitions, List.forall_mem_cons.2 ⟨ht, hl.terms⟩⟩

theorem Level.Printable.endDefinition (hl : level.Printable) (ht : term.Printable) :
    ∀ definition ∈ level.endDefinition term,
      definition ≠ [] ∧ ∀ term ∈ definition, term.Printable := by
  refine List.forall_mem_cons.2 ⟨⟨by simp, ?_⟩, hl.definitions⟩
  intro t hm
  rcases List.mem_cons.1 (List.mem_reverse.1 hm) with rfl | hm
  · exact ht
  · exact hl.terms t hm

theorem Level.Printable.close (hl : level.Printable) (ht : term.Printable) :
    level.close term ≠ [] ∧ DefinitionsList.Printable (level.close term) := by
  refine ⟨by simp [Level.close, Level.endDefinition], DefinitionsList.printable_iff.2 ?_⟩
  intro definition hm
  exact hl.endDefinition ht definition (List.mem_reverse.1 hm)

theorem Lead.printable_of_slot (hs : lead.slot.Printable) (hc : CommentBodies lead.comments) :
    lead.Printable := by
  obtain ⟨minuend, comments, _ | n⟩ := lead
  · exact ⟨hs, hc, by simp⟩
  · exact ⟨hs.1, hc, by simpa using hs.2⟩

theorem Lead.Printable.addPrimary (hl : lead.Printable) (hp : primary.Printable) :
    (lead.term primary).Printable := by
  have hf : Factor.Printable ⟨lead.comments, lead.count, primary⟩ := ⟨hl.comments, hl.count, hp⟩
  obtain ⟨_ | minuend, comments, count⟩ := lead
  · exact hf
  · exact ⟨hl.minuend minuend rfl, hf⟩

theorem printable_of_leaf? (hl : token.Legible) (ht : token.leaf? = some primary) :
    primary.Printable := by
  cases token with
  | special | terminal | name => cases ht; exact hl
  | _ => cases ht

end Parts

/-! ## Steps -/

theorem Body.Step.printable {body : Body} {comments left : List String} {token : Token}
    {progress : Progress} (h : Body.Step body comments token left progress) (hb : body.Printable)
    (hc : CommentBodies comments) (ht : token.Legible) :
    progress.Printable ∧ CommentBodies left := by
  induction h with
  | count hn => exact ⟨⟨hb.opened, hb.level, hb.slot, hn⟩, hc⟩
  | star => exact ⟨⟨hb.opened, hb.level, hb.slot⟩, hc⟩
  | opening =>
    have hl := Lead.printable_of_slot hb.slot hc
    exact ⟨⟨List.forall_mem_cons.2 ⟨⟨hb.level, hl⟩, hb.opened⟩, .empty, by simp [Slot.Printable]⟩,
      .nil⟩
  | leaf hleaf =>
    have hl := Lead.printable_of_slot hb.slot hc
    exact ⟨⟨hb.opened, hb.level, hl.addPrimary (printable_of_leaf? ht hleaf)⟩, .nil⟩
  | empty _ ih =>
    have hl := Lead.printable_of_slot hb.slot hc
    exact ih ⟨hb.opened, hb.level, hl.addPrimary trivial⟩ .nil ht
  | minus =>
    have hf := hb.slot
    exact ⟨⟨hb.opened, hb.level, fun _ hm => by cases hm; exact hf⟩, hc⟩
  | comma => exact ⟨⟨hb.opened, hb.level.addTerm hb.slot, by simp [Slot.Printable]⟩, hc⟩
  | separator =>
    exact ⟨⟨hb.opened, ⟨hb.level.endDefinition hb.slot, by simp⟩, by simp [Slot.Printable]⟩, hc⟩
  | closing =>
    obtain ⟨⟨hlevel, hlead⟩, ho⟩ := List.forall_mem_cons.1 hb.opened
    exact ⟨⟨ho, hlevel, hlead.addPrimary (hb.level.close hb.slot)⟩, hc⟩
  | terminator => exact ⟨hb.level.close hb.slot, hc⟩

theorem State.feed_printable {state next : State} {entry : Entry Token} (hs : state.Printable)
    (he : Entry.Legible entry) (h : state.feed entry = .ok next) : next.Printable := by
  cases feed_eq_ok_iff.1 h with
  | comment =>
    exact ⟨hs.rules, List.forall_mem_append.2 ⟨hs.pending, List.forall_mem_singleton.2 he⟩, hs.place⟩
  | name => exact ⟨hs.rules, hs.pending, he⟩
  | defining =>
    exact ⟨hs.rules, .nil, hs.place, hs.pending, by simp, .empty, by simp [Slot.Printable]⟩
  | within hb =>
    obtain ⟨hn, hc, hbody⟩ := hs.place
    obtain ⟨hp, hleft⟩ := hb.printable hbody hs.pending he
    exact ⟨hs.rules, hleft, hn, hc, hp⟩
  | rule hb =>
    obtain ⟨hn, hc, hbody⟩ := hs.place
    obtain ⟨hp, hleft⟩ := hb.printable hbody hs.pending he
    exact ⟨List.forall_mem_cons.2 ⟨⟨hn, hc, hp⟩, hs.rules⟩, hleft, trivial⟩

/-! ## Grammars -/

theorem State.Printable.finish {state : State} {grammar : Grammar} (hs : state.Printable)
    (h : state.finish [] = some grammar) : grammar.Printable := by
  obtain ⟨-, hne, rfl⟩ := State.finish_eq_some_iff.1 h
  exact ⟨by simpa using hne, fun rule hr => hs.rules rule (List.mem_reverse.1 hr),
    by simpa [CommentBodies] using hs.pending⟩

theorem Grammar.ofEntries_printable {entries : List (Entry Token)} {grammar : Grammar}
    (he : ∀ entry ∈ entries, Entry.Legible entry) (h : Grammar.ofEntries entries = .ok grammar) :
    grammar.Printable := by
  obtain ⟨state, hr, hf⟩ := ofEntries_eq_ok_iff.1 h
  have hi : State.Printable ⟨[], [], .between⟩ := ⟨by simp, .nil, trivial⟩
  exact (foldlM_invariant State.feed_printable hi he hr).finish hf

theorem Grammar.printable_onLineOne_iff {grammar : Grammar} :
    grammar.onLineOne.Printable ↔ grammar.Printable := by
  simp [Grammar.Printable, onLineOne, Rule.Printable, Rule.onLineOne]

/-- Whatever is read from a text is printable. -/
theorem Grammar.printable_of_parse {text : String} {grammar : Grammar}
    (h : Grammar.parse text = .ok grammar) : grammar.Printable := by
  obtain ⟨entries, hs, ho⟩ := exists_spells_of_parse h
  exact printable_onLineOne_iff.1 (ofEntries_printable (legible_of_spells hs) ho)

end GrammarText.Iso
