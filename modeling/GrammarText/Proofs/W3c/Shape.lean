import GrammarText.Proofs.W3c.Joining
import Mathlib.Algebra.BigOperators.Group.List.Basic
import Mathlib.Data.List.Basic

/-!
# Shapes of W3C expressions

Which expressions the notation can write down in each place without more parentheses. Joining
expressions of the right shapes gives one of the right shape.
-/

namespace GrammarText.W3c

/-- One or more ASCII letters. -/
def IsWord (name : String) : Prop := name.toList ≠ [] ∧ ∀ c ∈ name.toList, c.isAlpha = true

/-- There is a quote that the text does not hold. -/
def IsLiteral (text : String) : Prop := ¬ ('"' ∈ text.toList ∧ '\'' ∈ text.toList)

/-- A list that comes once, in parentheses or not. -/
def Expression.isList : Expression → Bool
  | ⟨.list _, .once, _⟩ => true
  | _ => false

/-- A choice that comes once, in parentheses or not. -/
def Expression.isChoice : Expression → Bool
  | ⟨.alternate _, .once, _⟩ => true
  | _ => false

/-- The places in which an expression can stand, from the tightest on. -/
inductive Rank where
  /-- On either side of a minus, or before a mark for repetition. -/
  | operand
  /-- Side by side with others. -/
  | item
  /-- Between bars. -/
  | arm
  /-- In parentheses, or on the right side of a rule. -/
  | whole

/-- The expression can stand in the given place. -/
inductive Expression.Fits : Rank → Expression → Prop where
  | literal {text : String} {occurrence : Occurrence} {grouped : Bool} (h : IsLiteral text) :
      Fits .operand ⟨.literal text, occurrence, grouped⟩
  | symbol {name : String} {occurrence : Occurrence} {grouped : Bool} (h : IsWord name) :
      Fits .operand ⟨.symbol name, occurrence, grouped⟩
  | group {content : Content} {occurrence : Occurrence} (h : Fits .whole (.ofContent content)) :
      Fits .operand ⟨content, occurrence, true⟩
  | operand {e : Expression} (h : Fits .operand e) : Fits .item e
  | exception {minuend subtrahend : Expression} (hm : Fits .operand minuend)
      (hs : Fits .operand subtrahend) : Fits .item (.ofContent (.exception minuend subtrahend))
  | item {e : Expression} (h : Fits .item e) : Fits .arm e
  | list {items : List Expression} (hl : 2 ≤ items.length) (hi : ∀ e ∈ items, Fits .item e)
      (hn : ∀ e ∈ items, e.isList = false) : Fits .arm (.ofContent (.list items))
  | arm {e : Expression} (h : Fits .arm e) : Fits .whole e
  | alternate {arms : List Expression} (hl : 2 ≤ arms.length) (ha : ∀ e ∈ arms, Fits .arm e)
      (hn : ∀ e ∈ arms, e.isChoice = false) : Fits .whole (.ofContent (.alternate arms))

def Rule.Fits (rule : Rule) : Prop := IsWord rule.symbol ∧ rule.expression.Fits .whole

namespace Expression

variable {e : Expression} {es inner : List Expression} {occurrence : Occurrence} {grouped : Bool}

/-! ## Joining -/

theorem items_of_isList (h : e.isList = false) : e.items = [e] := by
  unfold items
  split
  · cases h
  · rfl

theorem arms_of_isChoice (h : e.isChoice = false) : e.arms = [e] := by
  unfold arms
  split
  · cases h
  · rfl

theorem eq_list_of_isList (h : e.isList = true) :
    ∃ items grouped, e = ⟨.list items, .once, grouped⟩ := by
  unfold isList at h
  split at h
  · exact ⟨_, _, rfl⟩
  · cases h

theorem eq_choice_of_isChoice (h : e.isChoice = true) :
    ∃ arms grouped, e = ⟨.alternate arms, .once, grouped⟩ := by
  unfold isChoice at h
  split at h
  · exact ⟨_, _, rfl⟩
  · cases h

theorem flatMap_items (h : ∀ e ∈ es, e.isList = false) : es.flatMap Expression.items = es :=
  (List.flatMap_congr fun e he => items_of_isList (h e he)).trans (List.flatMap_singleton' es)

theorem flatMap_arms (h : ∀ e ∈ es, e.isChoice = false) : es.flatMap arms = es :=
  (List.flatMap_congr fun e he => arms_of_isChoice (h e he)).trans (List.flatMap_singleton' es)

theorem two_le_length_flatMap {f : Expression → List Expression} {p : Expression → Prop}
    (hl : 2 ≤ es.length) (h : ∀ e ∈ es, f e ≠ [] ∧ ∀ d ∈ f e, p d) :
    2 ≤ (es.flatMap f).length ∧ ∀ d ∈ es.flatMap f, p d := by
  constructor
  · refine Nat.le_trans hl ?_
    rw [List.length_flatMap, ← List.length_map (fun e => (f e).length)]
    apply List.length_le_sum_of_one_le
    intro n hn
    obtain ⟨e, he, rfl⟩ := List.mem_map.1 hn
    exact List.length_pos_iff.2 (h e he).1
  · intro d hd
    obtain ⟨e, he, hd⟩ := List.mem_flatMap.1 hd
    exact (h e he).2 d hd

/-! ## Shapes -/

namespace Fits

theorem withOccurrence (h : e.Fits .operand) : (e.withOccurrence occurrence).Fits .operand := by
  cases h with
  | literal h => exact .literal h
  | symbol h => exact .symbol h
  | group h => exact .group h

theorem parenthesized (h : e.Fits .whole) : e.parenthesized.Fits .operand := by
  cases h with
  | alternate hl ha hn => exact .group (.alternate hl ha hn)
  | arm h =>
    cases h with
    | list hl hi hn => exact .group (.arm (.list hl hi hn))
    | item h =>
      cases h with
      | exception hm hs => exact .group (.arm (.item (.exception hm hs)))
      | operand h =>
        cases h with
        | literal h => exact .literal h
        | symbol h => exact .symbol h
        | group h => exact .group h

/-- A list among items is in parentheses. -/
theorem items_of_list (h : Fits .item ⟨.list inner, occurrence, grouped⟩) :
    2 ≤ inner.length ∧ ∀ e ∈ inner, e.Fits .item ∧ e.isList = false := by
  cases h with
  | operand h =>
  cases h with
  | group h =>
  cases h with
  | arm h =>
  cases h with
  | list hl hi hn => exact ⟨hl, fun e he => ⟨hi e he, hn e he⟩⟩
  | item h =>
  cases h with
  | operand h => cases h

/-- A choice among arms is in parentheses. -/
theorem arms_of_alternate (h : Fits .arm ⟨.alternate inner, occurrence, grouped⟩) :
    2 ≤ inner.length ∧ ∀ e ∈ inner, e.Fits .arm ∧ e.isChoice = false := by
  cases h with
  | item h =>
  cases h with
  | operand h =>
  cases h with
  | group h =>
  cases h with
  | alternate hl ha hn => exact ⟨hl, fun e he => ⟨ha e he, hn e he⟩⟩
  | arm h =>
  cases h with
  | item h =>
  cases h with
  | operand h => cases h

theorem items (h : e.Fits .item) :
    e.items ≠ [] ∧ ∀ d ∈ e.items, d.Fits .item ∧ d.isList = false := by
  cases hl : e.isList with
  | false => simp [items_of_isList hl, h, hl]
  | true =>
    obtain ⟨items, grouped, rfl⟩ := eq_list_of_isList hl
    obtain ⟨hl, hi⟩ := items_of_list h
    exact ⟨ne_nil_of_two_le hl, hi⟩

theorem arms (h : e.Fits .arm) :
    e.arms ≠ [] ∧ ∀ d ∈ e.arms, d.Fits .arm ∧ d.isChoice = false := by
  cases hl : e.isChoice with
  | false => simp [arms_of_isChoice hl, h, hl]
  | true =>
    obtain ⟨arms, grouped, rfl⟩ := eq_choice_of_isChoice hl
    obtain ⟨hl, ha⟩ := arms_of_alternate h
    exact ⟨ne_nil_of_two_le hl, ha⟩

theorem sequence (hne : es ≠ []) (h : ∀ e ∈ es, e.Fits .item) : (sequence es).Fits .arm := by
  match es, hne with
  | [e], _ => exact .item (h e (by simp))
  | e :: d :: es, _ =>
    obtain ⟨hl, hi⟩ := two_le_length_flatMap (by simp) fun e he => (h e he).items
    rw [sequence_joins.several (by simp)]
    exact .list hl (fun i hm => (hi i hm).1) fun i hm => (hi i hm).2

theorem choice (hne : es ≠ []) (h : ∀ e ∈ es, e.Fits .arm) : (choice es).Fits .whole := by
  match es, hne with
  | [e], _ => exact .arm (h e (by simp))
  | e :: d :: es, _ =>
    obtain ⟨hl, ha⟩ := two_le_length_flatMap (by simp) fun e he => (h e he).arms
    rw [choice_joins.several (by simp)]
    exact .alternate hl (fun a hm => (ha a hm).1) fun a hm => (ha a hm).2

end Fits

end Expression

end GrammarText.W3c
