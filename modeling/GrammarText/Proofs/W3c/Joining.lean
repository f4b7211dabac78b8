import GrammarText.W3c.Joining
import Mathlib.Data.List.Basic

/-!
# Joining W3C expressions

Lists and choices are joined by the same laws, which `Joins` states. From them it follows that it
makes no difference how the operands of a list or of a choice were nested.
-/

namespace GrammarText.W3c.Expression

/-- How expressions are joined: `join` makes a node of several of them, to which each contributes
its `parts`. A node that comes once contributes what it holds. -/
structure Joins (join : List Expression → Expression) (parts : Expression → List Expression)
    (node : List Expression → Content) : Prop where
  lone : ∀ e, join [e] = e
  several : ∀ {es : List Expression}, 2 ≤ es.length → join es = ofContent (node (es.flatMap parts))
  spread : ∀ (es : List Expression) (grouped : Bool), parts ⟨node es, .once, grouped⟩ = es

variable {join : List Expression → Expression} {parts : Expression → List Expression}
  {node : List Expression → Content} {e : Expression} {es inner before after : List Expression}

theorem ne_nil_of_two_le {α : Type} {l : List α} (h : 2 ≤ l.length) : l ≠ [] :=
  List.length_pos_iff.1 (Nat.lt_of_lt_of_le Nat.zero_lt_two h)

namespace Joins

theorem parts_join (h : Joins join parts node) (hne : es ≠ []) :
    parts (join es) = es.flatMap parts := by
  match es, hne with
  | [e], _ => rw [h.lone, List.flatMap_singleton]
  | e :: d :: es, _ =>
    rw [h.several (by simp)]
    exact h.spread _ _

theorem parts_parenthesized (h : Joins join parts node) (hl : 2 ≤ es.length) :
    parts (join es).parenthesized = es.flatMap parts := by
  rw [h.several hl]
  exact h.spread _ _

theorem congr (h : Joins join parts node) (hl : 2 ≤ es.length) (hi : 2 ≤ inner.length)
    (he : es.flatMap parts = inner.flatMap parts) : join es = join inner := by
  rw [h.several hl, h.several hi, he]

/-- Among others, an operand can be replaced by what it contributes. -/
theorem replace (h : Joins join parts node) (ho : before ++ after ≠ []) (hne : inner ≠ [])
    (he : parts e = inner.flatMap parts) :
    join (before ++ [e] ++ after) = join (before ++ inner ++ after) := by
  have hothers : 0 < (before ++ after).length := List.length_pos_iff.2 ho
  have hinner : 0 < inner.length := List.length_pos_iff.2 hne
  rw [List.length_append] at hothers
  apply h.congr
  · simp only [List.length_append, List.length_singleton]
    omega
  · simp only [List.length_append]
    omega
  · simp [he]

theorem nested (h : Joins join parts node) (hne : inner ≠ []) (before after : List Expression) :
    join (before ++ [join inner] ++ after) = join (before ++ inner ++ after) := by
  by_cases ho : before ++ after = []
  · obtain ⟨rfl, rfl⟩ := List.append_eq_nil_iff.1 ho
    simp [h.lone]
  · exact h.replace ho hne (h.parts_join hne)

theorem nested_parenthesized (h : Joins join parts node) (hl : 2 ≤ inner.length)
    (ho : before ++ after ≠ []) :
    join (before ++ [(join inner).parenthesized] ++ after) = join (before ++ inner ++ after) :=
  h.replace ho (ne_nil_of_two_le hl) (h.parts_parenthesized hl)

theorem append (h : Joins join parts node) (hne : es ≠ []) (hi : inner ≠ []) :
    join (es ++ inner) = join [join es, join inner] := by
  have houter := h.nested hne [] [join inner]
  have hinner := h.nested hi es []
  simp only [List.append_nil, List.nil_append, List.singleton_append] at houter hinner
  rw [houter, hinner]

theorem cons (h : Joins join parts node) (hi : inner ≠ []) :
    join (e :: inner) = join [e, join inner] := by
  rw [← List.singleton_append, h.append (List.cons_ne_nil e []) hi, h.lone]

end Joins

theorem sequence_joins : Joins sequence items .list where
  lone _ := rfl
  several h := by
    unfold sequence
    split
    · simp at h
    · rfl
  spread _ _ := rfl

theorem choice_joins : Joins choice arms .alternate where
  lone _ := rfl
  several h := by
    unfold choice
    split
    · simp at h
    · rfl
  spread _ _ := rfl

/-- Among the operands of a list, or of a choice, it does not matter which of them were joined
before. Nor does it matter then whether those were put into parentheses, unless they are all of the
operands. -/
theorem joined_nested (hne : inner ≠ []) (before after : List Expression) :
    (sequence (before ++ [sequence inner] ++ after) = sequence (before ++ inner ++ after) ∧
        choice (before ++ [choice inner] ++ after) = choice (before ++ inner ++ after)) ∧
      (before ++ after ≠ [] → 2 ≤ inner.length →
        sequence (before ++ [(sequence inner).parenthesized] ++ after) =
            sequence (before ++ inner ++ after) ∧
          choice (before ++ [(choice inner).parenthesized] ++ after) =
            choice (before ++ inner ++ after)) := by
  refine ⟨⟨sequence_joins.nested hne before after, choice_joins.nested hne before after⟩, ?_⟩
  intro ho hl
  exact ⟨sequence_joins.nested_parenthesized hl ho, choice_joins.nested_parenthesized hl ho⟩

theorem joined_nested_grouped :
    let letter : Expression := .ofContent (.symbol "a")
    let row : Expression := ⟨.list [letter, letter], .once, true⟩
    let either : Expression := ⟨.alternate [letter, row], .once, true⟩
    [row, either] ≠ [] ∧ [row] ++ [] ≠ [] ∧ 2 ≤ [row, either].length ∧
      sequence ([row] ++ [(sequence [row, either]).parenthesized] ++ []) =
          .ofContent (.list [letter, letter, letter, letter, either]) ∧
        choice ([row] ++ [(choice [row, either]).parenthesized] ++ []) =
          .ofContent (.alternate [row, row, letter, row]) := by
  intro letter row either
  have hne : [row, either] ≠ [] := List.cons_ne_nil _ _
  have ho : [row] ++ [] ≠ [] := List.cons_ne_nil _ _
  have hl : 2 ≤ [row, either].length := Nat.le_refl 2
  have h := (joined_nested hne [row] []).2 ho hl
  exact ⟨hne, ho, hl, h.1, h.2⟩

end GrammarText.W3c.Expression
