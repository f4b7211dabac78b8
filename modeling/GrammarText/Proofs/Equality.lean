import GrammarText.Dialect
import Mathlib.Data.List.Forall2

/-!
# Equality of trees

Two trees are told to be the same exactly if they are equal, in either notation.
-/

namespace GrammarText

theorem all_zip_iff {α : Type} {same : α → α → Bool} (h : ∀ a b, same a b = true ↔ a = b)
    (l m : List α) :
    (l.length == m.length && (l.zip m).all fun (a, b) => same a b) = true ↔ l = m := by
  have hm : l = m ↔ List.Forall₂ (· = ·) l m := by rw [List.forall₂_eq_eq_eq]
  rw [hm, List.forall₂_iff_zip]
  simp [h]

namespace Iso

mutual

theorem Term.same_iff : (s t : Term) → (s.same t = true ↔ s = t)
  | ⟨f, none⟩, ⟨g, none⟩ => by simp [Term.same, Factor.same_iff f g]
  | ⟨f, some e⟩, ⟨g, some d⟩ => by simp [Term.same, Factor.same_iff f g, Factor.same_iff e d]
  | ⟨_, none⟩, ⟨_, some _⟩ => by simp [Term.same]
  | ⟨_, some _⟩, ⟨_, none⟩ => by simp [Term.same]

theorem Factor.same_iff : (f g : Factor) → (f.same g = true ↔ f = g)
  | ⟨_, _, p⟩, ⟨_, _, q⟩ => by simp [Factor.same, Primary.same_iff p q, and_assoc]

theorem Primary.same_iff : (p q : Primary) → (p.same q = true ↔ p = q)
  | .sequence _ l, q => by
    cases q with
    | sequence _ m => simp [Primary.same, DefinitionsList.same_iff l m]
    | _ => simp [Primary.same]
  | .special _, q => by cases q <;> simp [Primary.same]
  | .name _, q => by cases q <;> simp [Primary.same]
  | .terminal _, q => by cases q <;> simp [Primary.same]
  | .empty, q => by cases q <;> simp [Primary.same]

theorem DefinitionsList.same_iff :
    (l m : List (List Term)) → (DefinitionsList.same l m = true ↔ l = m)
  | [], [] => by simp [DefinitionsList.same]
  | [], _ :: _ => by simp [DefinitionsList.same]
  | _ :: _, [] => by simp [DefinitionsList.same]
  | a :: l, b :: m => by
    simp [DefinitionsList.same, Definition.same_iff a b, DefinitionsList.same_iff l m]

theorem Definition.same_iff : (l m : List Term) → (Definition.same l m = true ↔ l = m)
  | [], [] => by simp [Definition.same]
  | [], _ :: _ => by simp [Definition.same]
  | _ :: _, [] => by simp [Definition.same]
  | s :: l, t :: m => by simp [Definition.same, Term.same_iff s t, Definition.same_iff l m]

end

theorem Rule.same_iff (r s : Rule) : r.same s = true ↔ r = s := by
  obtain ⟨_, _, _, l⟩ := r
  obtain ⟨_, _, _, m⟩ := s
  simp [same, DefinitionsList.same_iff l m, and_assoc]

theorem Grammar.same_iff (g h : Grammar) : g.same h = true ↔ g = h := by
  obtain ⟨rules, _⟩ := g
  obtain ⟨rules', _⟩ := h
  rw [same, Bool.and_eq_true, all_zip_iff Rule.same_iff]
  simp

end Iso

namespace W3c

mutual

theorem Expression.same_iff : (a b : Expression) → (a.same b = true ↔ a = b)
  | ⟨c, _, _⟩, ⟨d, _, _⟩ => by simp [Expression.same, Content.same_iff c d, and_assoc]

theorem Content.same_iff : (c d : Content) → (c.same d = true ↔ c = d)
  | .literal _, d => by cases d <;> simp [Content.same]
  | .symbol _, d => by cases d <;> simp [Content.same]
  | .characterSet _, d => by cases d <;> simp [Content.same]
  | .list l, d => by
    cases d with
    | list m => simp [Content.same, Expression.sameAll_iff l m]
    | _ => simp [Content.same]
  | .alternate l, d => by
    cases d with
    | alternate m => simp [Content.same, Expression.sameAll_iff l m]
    | _ => simp [Content.same]
  | .exception a b, d => by
    cases d with
    | exception c d => simp [Content.same, Expression.same_iff a c, Expression.same_iff b d]
    | _ => simp [Content.same]

theorem Expression.sameAll_iff :
    (l m : List Expression) → (Expression.sameAll l m = true ↔ l = m)
  | [], [] => by simp [Expression.sameAll]
  | [], _ :: _ => by simp [Expression.sameAll]
  | _ :: _, [] => by simp [Expression.sameAll]
  | a :: l, b :: m => by
    simp [Expression.sameAll, Expression.same_iff a b, Expression.sameAll_iff l m]

end

theorem Rule.same_iff (r s : Rule) : r.same s = true ↔ r = s := by
  obtain ⟨_, _, e⟩ := r
  obtain ⟨_, _, f⟩ := s
  simp [same, Expression.same_iff e f, and_assoc]

theorem Grammar.same_iff (g h : Grammar) : g.same h = true ↔ g = h := by
  obtain ⟨rules⟩ := g
  obtain ⟨rules'⟩ := h
  rw [same, all_zip_iff Rule.same_iff]
  simp

end W3c

theorem Grammar.same_iff : (g h : Grammar) → (g.same h = true ↔ g = h)
  | .iso g, .iso h => by rw [same, Iso.Grammar.same_iff, Grammar.iso.injEq]
  | .w3c g, .w3c h => by rw [same, W3c.Grammar.same_iff, Grammar.w3c.injEq]
  | .iso _, .w3c _ => by simp [same]
  | .w3c _, .iso _ => by simp [same]

end GrammarText
