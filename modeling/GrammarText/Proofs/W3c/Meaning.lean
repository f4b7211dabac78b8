import GrammarText.Proofs.W3c.Items
import GrammarText.Proofs.W3c.NormalForm

/-!
# The meaning of printed W3C expressions

Any expression can be printed, but only its own parentheses are. The printed text is read as an
expression with the same language if the parentheses are where the places of its operands need them,
and no mark for repetition is lost that would be missed.
-/

namespace GrammarText.W3c

/-! ## What can be written down -/

/-- The notation has a way to write this down, once it has one for the operands. -/
def Content.IsWritable : Content → Prop
  | .literal text => IsLiteral text
  | .symbol name => IsWord name
  | .characterSet _ => False
  | .list items => items ≠ []
  | .alternate arms => arms ≠ []
  | .exception _ _ => True

mutual

theorem Expression.writes : (e : Expression) → (∀ node ∈ e.nodes, node.content.IsWritable) →
    Writes e.chars e.tokens
  | ⟨content, occurrence, grouped⟩, h => by
    obtain ⟨hc, hn⟩ := List.forall_mem_cons.1 h
    exact .expression content (content.writes hc hn) occurrence grouped

theorem Content.writes : (content : Content) → content.IsWritable →
    (∀ node ∈ content.nodes, node.content.IsWritable) → Writes content.chars content.tokens
  | .literal _, hc, _ => fun _ _ _ _ hs => .literal hc hs
  | .symbol _, hc, _ => fun _ _ _ hm hs => .symbol hc hm hs
  | .list items, hc, h => .listChars hc (Expression.writesAll items h)
  | .alternate arms, hc, h => .choiceChars hc (Expression.writesAll arms h)
  | .exception minuend subtrahend, _, h => by
    obtain ⟨hm, hs⟩ := List.forall_mem_append.1 h
    exact (minuend.writes hm).minus (subtrahend.writes hs)

theorem Expression.writesAll : (es : List Expression) →
    (∀ node ∈ Expression.nodesAll es, node.content.IsWritable) → ∀ e ∈ es, Writes e.chars e.tokens
  | [], _ => by simp
  | e :: more, h => by
    obtain ⟨he, hmore⟩ := List.forall_mem_append.1 h
    exact List.forall_mem_cons.2 ⟨e.writes he, Expression.writesAll more hmore⟩

end

/-! ## Marks -/

/-- The mark says as much as it does together with the one that it replaces where the expression is
read. -/
def Expression.KeepsMark (e : Expression) : Prop :=
  e.occurrence = .once ∨
    e.occurrence.Absorbs e.content.normal.occurrence e.content.normal.content.language

theorem Expression.language_remarked {e : Expression} {occurrence : Occurrence}
    (h : occurrence = .once ∨ occurrence.Absorbs e.occurrence e.content.language) :
    (e.remarked occurrence).language = occurrence.apply e.language := by
  by_cases ho : occurrence = .once
  · rw [ho]
    rfl
  · have hm : e.remarked occurrence = e.withOccurrence occurrence := by
      cases occurrence <;> first | rfl | exact absurd rfl ho
    rw [hm, language_eq, language_eq e]
    exact (Occurrence.apply_eq_apply_apply_iff ho).2 (h.resolve_left ho)

mutual

theorem Expression.language_normal : (e : Expression) → (∀ node ∈ e.nodes, node.KeepsMark) →
    e.normal.language = e.language
  | ⟨content, occurrence, grouped⟩, h => by
    obtain ⟨hm, hn⟩ := List.forall_mem_cons.1 h
    have hc : content.normal.language = content.language := content.language_normal hn
    rw [Expression.language]
    cases grouped with
    | false => rw [Expression.normal, Expression.language_remarked hm, hc]
    | true =>
      have hg : (content.normal.parenthesized.remarked occurrence).language =
          occurrence.apply content.normal.parenthesized.language := Expression.language_remarked hm
      rw [Expression.normal, hg, Expression.language_parenthesized, hc]

theorem Content.language_normal : (content : Content) →
    (∀ node ∈ content.nodes, node.KeepsMark) → content.normal.language = content.language
  | .literal _, _ => by rw [Content.normal, Expression.language_ofContent]
  | .symbol _, _ => by rw [Content.normal, Expression.language_ofContent]
  | .characterSet _, _ => by rw [Content.normal, Expression.language_ofContent]
  | .list items, h => by
    rw [Content.normal, Expression.language_sequence, Content.language,
      Expression.listLanguage_normalAll items h]
  | .alternate arms, h => by
    rw [Content.normal, Expression.language_choice, Content.language,
      Expression.choiceLanguage_normalAll arms h]
  | .exception minuend subtrahend, h => by
    obtain ⟨hm, hs⟩ := List.forall_mem_append.1 h
    rw [Content.normal, Expression.language_ofContent, Content.language,
      Content.language, minuend.language_normal hm,
      subtrahend.language_normal hs]

theorem Expression.listLanguage_normalAll : (es : List Expression) →
    (∀ node ∈ Expression.nodesAll es, node.KeepsMark) →
      Expression.listLanguage (Expression.normalAll es) = Expression.listLanguage es
  | [], _ => rfl
  | e :: more, h => by
    obtain ⟨he, hmore⟩ := List.forall_mem_append.1 h
    rw [Expression.normalAll, Expression.listLanguage, Expression.listLanguage,
      e.language_normal he, Expression.listLanguage_normalAll more hmore]

theorem Expression.choiceLanguage_normalAll : (es : List Expression) →
    (∀ node ∈ Expression.nodesAll es, node.KeepsMark) →
      Expression.choiceLanguage (Expression.normalAll es) = Expression.choiceLanguage es
  | [], _ => rfl
  | e :: more, h => by
    obtain ⟨he, hmore⟩ := List.forall_mem_append.1 h
    rw [Expression.normalAll, Expression.choiceLanguage, Expression.choiceLanguage,
      e.language_normal he, Expression.choiceLanguage_normalAll more hmore]

end

/-! ## Printed expressions -/

/-- The printed text of an expression is read as the normal form of that expression. -/
theorem Expression.parse_print_normal {e : Expression}
    (hw : ∀ node ∈ e.nodes, node.content.IsWritable) (hs : e.Suits .whole) : ∃ read rule,
      Grammar.parse ("r ::= " ++ e.print) = .ok read ∧ read.rules = [rule] ∧
        rule.expression = e.normal := by
  have hspells : Spells false (e.chars ++ []) (e.tokens ++ []) := e.writes hw (by simp) .nil
  rw [List.append_nil, List.append_nil] at hspells
  refine parse_rule_of_reads ?_ hs.reads
  rwa [print, String.toList_ofList]

/-- The printed text of an expression is read as one with the same language, if parentheses are
where they are needed and no mark is lost that would be missed. -/
theorem Expression.parse_print_language {e : Expression}
    (hw : ∀ node ∈ e.nodes, node.content.IsWritable) (hs : e.Suits .whole)
    (hm : ∀ node ∈ e.nodes, node.KeepsMark) : ∃ read rule,
      Grammar.parse ("r ::= " ++ e.print) = .ok read ∧ read.rules = [rule] ∧
        rule.expression.language = e.language := by
  obtain ⟨read, rule, hp, hr, he⟩ := Expression.parse_print_normal hw hs
  exact ⟨read, rule, hp, hr, by rw [he, e.language_normal hm]⟩

/-- Lists and choices of one, others within their like, and one mark over another. It is printed as
`(a (b* | 'x')?)+ - c (d)? e | (f+)* | "it's"`. -/
def tangled : Expression :=
  .ofContent (.alternate
    [.ofContent (.list
      [.ofContent (.exception
        ⟨.list [.ofContent (.symbol "a"),
          ⟨.alternate [⟨.symbol "b", .zeroOrMore, false⟩, .ofContent (.literal "x")], .optional,
            true⟩], .oneOrMore, true⟩
        (.ofContent (.alternate [.ofContent (.symbol "c")]))),
      .ofContent (.list
        [⟨.list [⟨.symbol "d", .once, true⟩], .optional, false⟩, .ofContent (.symbol "e")])]),
    .ofContent (.alternate
      [⟨.list [⟨.symbol "f", .oneOrMore, false⟩], .zeroOrMore, true⟩,
        .ofContent (.literal "it's")])])

theorem tangled_writable : ∀ node ∈ tangled.nodes, node.content.IsWritable := by
  simp [tangled, Expression.ofContent, Expression.nodes, Content.nodes, Expression.nodesAll,
    Content.IsWritable, IsWord, IsLiteral]

theorem tangled_suits : tangled.Suits .whole := by
  have hstarred : Expression.Suits .operand ⟨.symbol "b", .zeroOrMore, false⟩ := .symbol
  have hchoice : Expression.Suits .whole (.ofContent (.alternate
      [⟨.symbol "b", .zeroOrMore, false⟩, .ofContent (.literal "x")])) := by
    refine .alternate (by simp) (List.forall_mem_cons.2 ⟨.arm (.item (.operand .symbol)), ?_⟩)
    simpa using .arm (.item (.operand .literal))
  have hminuend : Expression.Suits .operand
      ⟨.list [.ofContent (.symbol "a"),
        ⟨.alternate [⟨.symbol "b", .zeroOrMore, false⟩, .ofContent (.literal "x")], .optional,
          true⟩], .oneOrMore, true⟩ := by
    refine .group (.arm (.list (by simp) (List.forall_mem_cons.2 ⟨.item (.operand .symbol), ?_⟩)))
    simpa using .item (.operand (.group hchoice))
  have hmarked : Expression.Suits .operand
      ⟨.list [⟨.symbol "d", .once, true⟩], .optional, false⟩ :=
    .marked (.list _) (.group (.arm (.item (.operand .symbol))))
  have hlist : Expression.Suits .arm (.ofContent (.list
      [⟨.list [⟨.symbol "d", .once, true⟩], .optional, false⟩, .ofContent (.symbol "e")])) := by
    refine .list (by simp) (List.forall_mem_cons.2 ⟨.item (.operand hmarked), ?_⟩)
    simpa using .item (.operand .symbol)
  have hremarked : Expression.Suits .operand
      ⟨.list [⟨.symbol "f", .oneOrMore, false⟩], .zeroOrMore, true⟩ :=
    .group (.arm (.item (.operand (.lone (.list _) .symbol))))
  refine .alternate (by simp) (List.forall_mem_cons.2 ⟨.arm (.list (by simp) ?_), ?_⟩)
  · refine List.forall_mem_cons.2 ⟨.item (.exception hminuend (.lone (.alternate _) .symbol)), ?_⟩
    simpa using hlist
  · refine List.forall_mem_singleton.2 (.alternate (by simp) (List.forall_mem_cons.2
      ⟨.arm (.item (.operand hremarked)), ?_⟩))
    simpa using .arm (.item (.operand .literal))

theorem tangled_keepsMark : ∀ node ∈ tangled.nodes, node.KeepsMark := by
  simp [tangled, Expression.ofContent, Expression.nodes, Content.nodes, Expression.nodesAll,
    Expression.KeepsMark, Occurrence.Absorbs, Content.normal, Expression.normal,
    Expression.normalAll, Expression.sequence, Expression.choice, Expression.remarked,
    Expression.parenthesized]

theorem parse_print_language_tangled : (∀ node ∈ tangled.nodes, node.content.IsWritable) ∧
    tangled.Suits .whole ∧ (∀ node ∈ tangled.nodes, node.KeepsMark) ∧ ∃ read rule,
      Grammar.parse ("r ::= " ++ tangled.print) = .ok read ∧ read.rules = [rule] ∧
        rule.expression.language = tangled.language :=
  ⟨tangled_writable, tangled_suits, tangled_keepsMark,
    Expression.parse_print_language tangled_writable tangled_suits tangled_keepsMark⟩

/-- A choice among the items of a list, without parentheses. -/
def choiceInList : Expression :=
  .ofContent (.list
    [.ofContent (.alternate [.ofContent (.symbol "a"), .ofContent (.symbol "b")]),
      .ofContent (.symbol "c")])

def choiceWithList : Expression :=
  .ofContent (.alternate
    [.ofContent (.symbol "a"),
      .ofContent (.list [.ofContent (.symbol "b"), .ofContent (.symbol "c")])])

theorem choiceWithList_language_ne : choiceWithList.language ≠ choiceInList.language := by
  have hsymbol (name : String) :
      (Expression.ofContent (.symbol name)).language = {[.symbol name]} := by
    rw [Expression.language_ofContent, Content.language]
  have hmem : [Leaf.symbol "a"] ∈ choiceWithList.language := by
    rw [choiceWithList, Expression.language_ofContent, Content.language, Expression.choiceLanguage,
      hsymbol]
    exact .inl rfl
  intro h
  -- Each word of the list ends with `c`.
  rw [h, choiceInList, Expression.language_ofContent, Content.language, Expression.listLanguage,
    Expression.listLanguage_singleton, hsymbol] at hmem
  obtain ⟨first, -, last, hlast, he⟩ := Language.mem_mul.1 hmem
  rw [Occurrence.mem_letter.1 hlast] at he
  simpa using congrArg List.getLast? he

/-- Without parentheses, the last arm of the choice is read together with what comes after it. -/
theorem parse_print_choiceInList : (∀ node ∈ choiceInList.nodes, node.content.IsWritable) ∧
    ∃ rule, Grammar.parse ("r ::= " ++ choiceInList.print) = .ok ⟨[rule]⟩ ∧
      rule.expression.language ≠ choiceInList.language := by
  refine ⟨?_, ⟨"r", 1, choiceWithList⟩, by with_unfolding_all rfl, choiceWithList_language_ne⟩
  simp [choiceInList, Expression.ofContent, Expression.nodes, Content.nodes, Expression.nodesAll,
    Content.IsWritable, IsWord]

end GrammarText.W3c
