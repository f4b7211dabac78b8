import GrammarText.W3c.Joining
import Mathlib

/-!
# Languages of W3C expressions

An expression denotes a language over its leaves. Parentheses have no meaning of their own, and
joining expressions keeps what they mean. Marking an expression anew keeps the meaning of the old
mark only in some cases, which `Occurrence.apply_eq_apply_apply_iff` tells.
-/

namespace GrammarText.W3c

open Computability

/-- A leaf, which stands for a word of one letter. -/
inductive Leaf where
  | literal (text : String)
  | symbol (name : String)
  | characterSet (text : String)

/-- The words of a language, to come as often as is said. -/
def Occurrence.apply {α : Type} : Occurrence → Language α → Language α
  | once, l => l
  | optional, l => 1 + l
  | zeroOrMore, l => l∗
  | oneOrMore, l => l * l∗

mutual

def Expression.language : Expression → Language Leaf
  | ⟨content, occurrence, _⟩ => occurrence.apply content.language

def Content.language : Content → Language Leaf
  | .literal text => {[.literal text]}
  | .symbol name => {[.symbol name]}
  | .characterSet text => {[.characterSet text]}
  | .list items => Expression.listLanguage items
  | .alternate arms => Expression.choiceLanguage arms
  | .exception minuend subtrahend => minuend.language - subtrahend.language

def Expression.listLanguage : List Expression → Language Leaf
  | [] => 1
  | e :: more => e.language * Expression.listLanguage more

def Expression.choiceLanguage : List Expression → Language Leaf
  | [] => 0
  | e :: more => e.language + Expression.choiceLanguage more

end

theorem Expression.language_eq (e : Expression) :
    e.language = e.occurrence.apply e.content.language := by
  cases e
  rw [language]

theorem Expression.language_parenthesized (e : Expression) :
    e.parenthesized.language = e.language := by
  rw [language_eq, language_eq e]
  rfl

/-! ## Joining -/

namespace Expression

theorem listLanguage_append (es more : List Expression) :
    listLanguage (es ++ more) = listLanguage es * listLanguage more := by
  induction es with
  | nil => rw [List.nil_append, listLanguage, one_mul]
  | cons e es ih => rw [List.cons_append, listLanguage, listLanguage, ih, mul_assoc]

theorem choiceLanguage_append (es more : List Expression) :
    choiceLanguage (es ++ more) = choiceLanguage es + choiceLanguage more := by
  induction es with
  | nil => rw [List.nil_append, choiceLanguage, zero_add]
  | cons e es ih => rw [List.cons_append, choiceLanguage, choiceLanguage, ih, add_assoc]

theorem listLanguage_singleton (e : Expression) : listLanguage [e] = e.language := by
  rw [listLanguage, listLanguage, mul_one]

theorem choiceLanguage_singleton (e : Expression) : choiceLanguage [e] = e.language := by
  rw [choiceLanguage, choiceLanguage, add_zero]

theorem language_ofContent (content : Content) :
    (ofContent content).language = content.language := by
  rw [ofContent, language, Occurrence.apply]

theorem listLanguage_items (e : Expression) : listLanguage e.items = e.language := by
  unfold items
  split
  · rw [language, Content.language, Occurrence.apply]
  · exact listLanguage_singleton e

theorem choiceLanguage_arms (e : Expression) : choiceLanguage e.arms = e.language := by
  unfold arms
  split
  · rw [language, Content.language, Occurrence.apply]
  · exact choiceLanguage_singleton e

theorem listLanguage_flatMap_items (es : List Expression) :
    listLanguage (es.flatMap items) = listLanguage es := by
  induction es with
  | nil => rfl
  | cons e es ih =>
    rw [List.flatMap_cons, listLanguage_append, listLanguage_items, ih, listLanguage]

theorem choiceLanguage_flatMap_arms (es : List Expression) :
    choiceLanguage (es.flatMap arms) = choiceLanguage es := by
  induction es with
  | nil => rfl
  | cons e es ih =>
    rw [List.flatMap_cons, choiceLanguage_append, choiceLanguage_arms, ih, choiceLanguage]

theorem language_sequence (es : List Expression) : (sequence es).language = listLanguage es := by
  unfold sequence
  split
  · exact (listLanguage_singleton _).symm
  · rw [language_ofContent, Content.language, listLanguage_flatMap_items]

theorem language_choice (es : List Expression) : (choice es).language = choiceLanguage es := by
  unfold choice
  split
  · exact (choiceLanguage_singleton _).symm
  · rw [language_ofContent, Content.language, choiceLanguage_flatMap_arms]

theorem mem_listLanguage_iff {es : List Expression} {word : List Leaf} :
    word ∈ listLanguage es ↔
      ∃ words, List.Forall₂ (fun part e => part ∈ e.language) words es ∧ words.flatten = word := by
  induction es generalizing word with
  | nil =>
    rw [listLanguage, Language.mem_one]
    simp [eq_comm]
  | cons e es ih =>
    rw [listLanguage, Language.mem_mul]
    constructor
    · rintro ⟨first, hf, rest, hr, rfl⟩
      obtain ⟨words, hw, rfl⟩ := ih.1 hr
      exact ⟨first :: words, .cons hf hw, rfl⟩
    · rintro ⟨words, hw, rfl⟩
      cases hw with
      | @cons first _ words _ hf hw => exact ⟨first, hf, words.flatten, ih.2 ⟨words, hw, rfl⟩, rfl⟩

theorem mem_choiceLanguage_iff {es : List Expression} {word : List Leaf} :
    word ∈ choiceLanguage es ↔ ∃ e ∈ es, word ∈ e.language := by
  induction es with
  | nil => simp [choiceLanguage, Language.notMem_zero]
  | cons e es ih => rw [choiceLanguage, Language.mem_add, ih, List.exists_mem_cons_iff]

/-- The words of expressions that are joined side by side are made of one word of each, in order;
those of expressions that are joined with bars are the words of any of them. -/
theorem mem_language_joined (es : List Expression) (word : List Leaf) :
    (word ∈ (sequence es).language ↔
        ∃ words, List.Forall₂ (fun part e => part ∈ e.language) words es ∧ words.flatten = word) ∧
      (word ∈ (choice es).language ↔ ∃ e ∈ es, word ∈ e.language) := by
  rw [language_sequence, language_choice]
  exact ⟨mem_listLanguage_iff, mem_choiceLanguage_iff⟩

end Expression

namespace Occurrence

variable {α : Type} {l : Language α}

/-! ## One mark after another -/

/-- The second mark alone says as much as both of them. -/
def Absorbs (second first : Occurrence) (l : Language α) : Prop :=
  first = once ∨ second = zeroOrMore ∨ first = second ∨
    (second = oneOrMore ∧ [] ∈ l) ∨ (second = optional ∧ l∗ ≤ 1 + l)

theorem kstar_one_add (l : Language α) : (1 + l)∗ = l∗ := by
  apply le_antisymm
  · refine kstar_le_of_mul_le_left one_le_kstar ?_
    rw [mul_add, mul_one]
    exact add_le le_rfl kstar_mul_le_kstar
  · exact kstar_mono le_add_self

theorem kstar_mul_kstar_self (l : Language α) : (l * l∗)∗ = l∗ := by
  rw [← kstar_one_add, one_add_mul_kstar, kstar_idem]

theorem one_add_eq_kstar_iff : 1 + l = l∗ ↔ l∗ ≤ 1 + l :=
  ⟨fun h => h.ge, fun h => (add_le one_le_kstar le_kstar).antisymm h⟩

theorem mul_kstar_eq_kstar_iff : l * l∗ = l∗ ↔ [] ∈ l := by
  constructor
  · intro h
    have hn : [] ∈ l * l∗ := by rw [h]; exact Language.nil_mem_kstar l
    obtain ⟨first, hf, rest, -, he⟩ := Language.mem_mul.1 hn
    rwa [(List.append_eq_nil_iff.1 he).1] at hf
  · intro h
    refine mul_kstar_le_kstar.antisymm ?_
    intro word hw
    exact Language.mem_mul.2 ⟨[], h, word, hw, rfl⟩

theorem apply_optional (first : Occurrence) :
    optional.apply l = optional.apply (first.apply l) ↔ Absorbs optional first l := by
  cases first with
  | once => simp [Absorbs, apply]
  | optional => simp [Absorbs, apply]
  | zeroOrMore =>
    have h : 1 + l∗ = l∗ := le_antisymm (add_le one_le_kstar le_rfl) le_add_self
    simp only [apply, h, one_add_eq_kstar_iff]
    simp [Absorbs]
  | oneOrMore =>
    simp only [apply, one_add_mul_kstar, one_add_eq_kstar_iff]
    simp [Absorbs]

theorem apply_zeroOrMore (first : Occurrence) :
    zeroOrMore.apply l = zeroOrMore.apply (first.apply l) := by
  cases first with
  | once => rfl
  | optional => exact (kstar_one_add l).symm
  | zeroOrMore => exact (kstar_idem l).symm
  | oneOrMore => exact (kstar_mul_kstar_self l).symm

theorem apply_oneOrMore (first : Occurrence) :
    oneOrMore.apply l = oneOrMore.apply (first.apply l) ↔ Absorbs oneOrMore first l := by
  cases first with
  | once => simp [Absorbs, apply]
  | optional =>
    have h : (1 + l) * (1 + l)∗ = l∗ := by
      rw [kstar_one_add, add_mul, one_mul]
      exact le_antisymm (add_le le_rfl mul_kstar_le_kstar) le_self_add
    simp only [apply, h, mul_kstar_eq_kstar_iff]
    simp [Absorbs]
  | zeroOrMore =>
    simp only [apply, kstar_idem, kstar_mul_kstar, mul_kstar_eq_kstar_iff]
    simp [Absorbs]
  | oneOrMore =>
    simp only [apply, kstar_mul_kstar_self, mul_assoc, kstar_mul_kstar]
    simp [Absorbs]

theorem apply_eq_apply_apply_iff {first second : Occurrence} (hs : second ≠ once) :
    second.apply l = second.apply (first.apply l) ↔ Absorbs second first l := by
  cases second with
  | once => exact absurd rfl hs
  | optional => exact apply_optional first
  | zeroOrMore => exact iff_of_true (apply_zeroOrMore first) (.inr (.inl rfl))
  | oneOrMore => exact apply_oneOrMore first

theorem mem_letter {a : α} {word : List α} : word ∈ ({[a]} : Language α) ↔ word = [a] := Iff.rfl

/-- If a letter may come any number of times, marking it as optional says less. -/
theorem not_absorbs_letter (a : α) : ¬ Absorbs optional zeroOrMore {[a]} := by
  have htwice : [a, a] ∈ ({[a]} : Language α)∗ := by
    have hm : ∀ word ∈ [[a], [a]], word ∈ ({[a]} : Language α) := by simp [mem_letter]
    exact Language.join_mem_kstar hm
  intro h
  have hle : ({[a]} : Language α)∗ ≤ 1 + {[a]} := by simpa [Absorbs] using h
  rcases (Language.mem_add _ _ _).1 (hle htwice) with hnil | hone
  · simp at hnil
  · simp [mem_letter] at hone

end Occurrence

end GrammarText.W3c
