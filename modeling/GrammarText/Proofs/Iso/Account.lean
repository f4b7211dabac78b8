import GrammarText.Proofs.Iso.Printable
import GrammarText.Proofs.Iso.Steps

/-!
# What has been read of an ISO grammar

Whatever has been read stands somewhere in the state, and nothing else does. Only comments can move:
those around a count come to stand before it, and those before a closing bracket come to stand
behind it. So comments and tokens are each kept in their order.
-/

namespace GrammarText.Iso

/-! ## Comments among tokens -/

/-- The same comments in the same order, and the same tokens in the same order. -/
structure Alike (l m : List (Entry Token)) : Prop where
  comments : l.filterMap Entry.comment? = m.filterMap Entry.comment?
  tokens : l.filterMap Entry.token? = m.filterMap Entry.token?

section Alike

variable {l m n : List (Entry Token)}

theorem Alike.refl (l : List (Entry Token)) : Alike l l := ⟨rfl, rfl⟩

theorem Alike.trans (h : Alike l m) (hm : Alike m n) : Alike l n :=
  ⟨h.comments.trans hm.comments, h.tokens.trans hm.tokens⟩

theorem Alike.append_right (h : Alike l m) (n : List (Entry Token)) : Alike (l ++ n) (m ++ n) :=
  ⟨by simp [h.comments], by simp [h.tokens]⟩

end Alike

/-! ## Lists -/

theorem Definition.entries_concat (terms : List Term) (term : Term) :
    Definition.entries (terms ++ [term]) =
      terms.flatMap (fun t => t.entries ++ [.token .comma]) ++ term.entries := by
  induction terms with
  | nil => rfl
  | cons t terms ih =>
    obtain ⟨next, rest, hr⟩ := List.exists_cons_of_ne_nil (l := terms ++ [term]) (by simp)
    rw [List.cons_append, hr, entries, ← hr, ih]
    · simp
    · simp

theorem DefinitionsList.entries_concat (definitions : List Definition) (definition : Definition) :
    DefinitionsList.entries (definitions ++ [definition]) =
      definitions.flatMap (fun d => Definition.entries d ++ [.token .separator]) ++
        Definition.entries definition := by
  induction definitions with
  | nil => rfl
  | cons d definitions ih =>
    obtain ⟨next, rest, hr⟩ := List.exists_cons_of_ne_nil (l := definitions ++ [definition]) (by simp)
    rw [List.cons_append, hr, entries, ← hr, ih]
    · simp
    · simp

/-! ## Parts of a state -/

def Level.entries (level : Level) : List (Entry Token) :=
  level.definitions.reverse.flatMap (fun d => Definition.entries d ++ [.token .separator]) ++
    level.terms.reverse.flatMap fun t => t.entries ++ [.token .comma]

@[simp] def minuendEntries : Option Factor → List (Entry Token)
  | none => []
  | some factor => factor.entries ++ [.token .minus]

@[simp] def countEntries : Option Nat → List (Entry Token)
  | none => []
  | some n => [.token (.count n), .token .star]

def Lead.entries (lead : Lead) : List (Entry Token) :=
  minuendEntries lead.minuend ++ lead.comments.map .comment ++ countEntries lead.count

@[simp] def Slot.entries : Slot → List (Entry Token)
  | .factor minuend => minuendEntries minuend
  | .star minuend n => minuendEntries minuend ++ [.token (.count n)]
  | .primary minuend n => minuendEntries minuend ++ [.token (.count n), .token .star]
  | .term t => t.entries

def Opened.entries (top : Opened) : List (Entry Token) :=
  top.level.entries ++ top.lead.entries ++ [.token (.opening top.bracket)]

def Body.entries (body : Body) : List (Entry Token) :=
  body.opened.reverse.flatMap Opened.entries ++ body.level.entries ++ body.slot.entries

@[simp] def Progress.entries : Progress → List (Entry Token)
  | .partly body => body.entries
  | .whole definitions => DefinitionsList.entries definitions ++ [.token .terminator]

@[simp] def Place.entries : Place → List (Entry Token)
  | .between => []
  | .named rule => [.token (.name rule.name)]
  | .within rule comments body =>
    comments.map .comment ++ .token (.name rule.name) :: .token .defining :: body.entries

def State.entries (state : State) : List (Entry Token) :=
  state.rules.reverse.flatMap Rule.entries ++ state.place.entries ++ state.pending.map .comment

section Parts

variable {level : Level} {lead : Lead} {term : Term} {primary : Primary}

theorem Level.entries_addTerm :
    (level.addTerm term).entries = level.entries ++ term.entries ++ [.token .comma] := by
  simp [Level.entries, addTerm]

theorem Level.entries_endDefinition :
    Level.entries ⟨level.endDefinition term, []⟩ =
      level.entries ++ term.entries ++ [.token .separator] := by
  simp [Level.entries, endDefinition, Definition.entries_concat]

theorem Level.entries_close :
    DefinitionsList.entries (level.close term) = level.entries ++ term.entries := by
  simp [Level.entries, close, endDefinition, DefinitionsList.entries_concat,
    Definition.entries_concat]

theorem Lead.entries_term : (lead.term primary).entries = lead.entries ++ primary.entries := by
  obtain ⟨_ | minuend, comments, _ | n⟩ := lead <;>
    simp [Lead.entries, minuendEntries, countEntries, Lead.term, Term.entries, Factor.entries]

theorem Lead.entries_slot : Alike lead.entries (lead.slot.entries ++ lead.comments.map .comment) := by
  obtain ⟨minuend, comments, _ | n⟩ := lead <;> constructor <;> simp [Lead.entries, slot]

theorem entries_of_leaf? {token : Token} (ht : token.leaf? = some primary) :
    primary.entries = [.token token] := by
  cases token with
  | special | terminal | name => cases ht; rfl
  | _ => cases ht

end Parts

/-! ## Steps -/

theorem Body.Step.entries {body : Body} {comments left : List String} {token : Token}
    {progress : Progress} (h : Body.Step body comments token left progress) :
    Alike (progress.entries ++ left.map .comment)
      (body.entries ++ comments.map .comment ++ [.token token]) := by
  induction h with
  | count => constructor <;> simp [Body.entries]
  | star => constructor <;> simp [Body.entries]
  | @opening opened level bracket lead =>
    have hl := lead.entries_slot
    constructor <;>
      simp [Body.entries, Opened.entries, Level.entries, hl.comments, hl.tokens]
  | @leaf opened level token primary lead ht =>
    have hl := lead.entries_slot
    constructor <;>
      simp [Body.entries, Lead.entries_term, entries_of_leaf? ht, hl.comments, hl.tokens]
  | @empty opened level token progress lead h ih =>
    have hl := lead.entries_slot
    refine ih.trans ?_
    constructor <;>
      simp [Body.entries, Lead.entries_term, Primary.entries, hl.comments, hl.tokens]
  | minus => constructor <;> simp [Body.entries, Term.entries]
  | comma => constructor <;> simp [Body.entries, Level.entries_addTerm]
  | separator => constructor <;> simp [Body.entries, Level.entries_endDefinition]
  | closing =>
    constructor <;>
      simp [Body.entries, Opened.entries, Lead.entries_term, Primary.entries, Level.entries_close]
  | terminator => constructor <;> simp [Body.entries, Level.entries_close]

/-- A step adds its comment or token to what has been read. -/
theorem State.Step.entries {state next : State} {entry : Entry Token}
    (h : State.Step state entry next) : Alike next.entries (state.entries ++ [entry]) := by
  cases h with
  | comment => constructor <;> simp [State.entries]
  | name => constructor <;> simp [State.entries]
  | defining => constructor <;> simp [State.entries, Body.entries, Level.entries]
  | within h =>
    have hb := h.entries
    constructor
    · simpa [State.entries] using hb.comments
    · simpa [State.entries] using hb.tokens
  | rule h =>
    have hb := h.entries
    constructor
    · simpa [State.entries, Rule.entries] using hb.comments
    · simpa [State.entries, Rule.entries] using hb.tokens

theorem State.entries_of_foldlM {state last : State} {entries : List (Entry Token)}
    (h : entries.foldlM State.feed state = .ok last) :
    Alike last.entries (state.entries ++ entries) := by
  induction entries generalizing state with
  | nil => cases h; simpa using Alike.refl _
  | cons entry entries ih =>
    obtain ⟨next, hn, hl⟩ := foldlM_cons_eq_ok_iff.1 h
    have hs := (feed_eq_ok_iff.1 hn).entries.append_right entries
    rw [List.append_assoc, List.singleton_append] at hs
    exact (ih hl).trans hs

/-! ## Grammars -/

theorem State.entries_of_finish {state : State} {grammar : Grammar}
    (h : state.finish [] = some grammar) : state.entries = grammar.entries := by
  obtain ⟨hp, -, rfl⟩ := finish_eq_some_iff.1 h
  simp [entries, hp, Grammar.entries]

/-- A grammar holds the comments and the tokens it has been read from. -/
theorem Grammar.entries_of_ofEntries {entries : List (Entry Token)} {grammar : Grammar}
    (h : Grammar.ofEntries entries = .ok grammar) : Alike grammar.entries entries := by
  obtain ⟨state, hr, hf⟩ := ofEntries_eq_ok_iff.1 h
  rw [← State.entries_of_finish hf]
  exact State.entries_of_foldlM hr

theorem Grammar.entries_onLineOne (grammar : Grammar) :
    grammar.onLineOne.entries = grammar.entries := by
  rw [entries, entries, onLineOne, List.flatMap_map]
  rfl

/-- A text spells the comments and the tokens of what is read from it. -/
theorem exists_spells_alike {text : String} {grammar : Grammar}
    (h : Grammar.parse text = .ok grammar) : ∃ entries, Spells text.toList entries ∧
      Grammar.ofEntries entries = .ok grammar.onLineOne ∧ Alike grammar.entries entries := by
  obtain ⟨entries, hs, ho⟩ := exists_spells_of_parse h
  have ha := Grammar.entries_of_ofEntries ho
  rw [Grammar.entries_onLineOne] at ha
  exact ⟨entries, hs, ho, ha⟩

end GrammarText.Iso
