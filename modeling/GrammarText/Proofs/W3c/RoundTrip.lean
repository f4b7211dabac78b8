import GrammarText.Proofs.W3c.Reading

/-!
# Printing and reading W3C grammars

What is printed of a grammar whose expressions fit is read as that grammar. Reading an expression
from the tokens of its printed text leads to a body that ends with it.
-/

namespace GrammarText.W3c

/-! ## Heads of rules -/

/-- The tokens of a rule, its name marked as a head. -/
def Rule.headedTokens (rule : Rule) : List Token :=
  .symbol rule.symbol true :: .defining :: rule.expression.tokens

theorem headed_tokens (rules : List Rule) :
    headed (rules.flatMap Rule.tokens) = rules.flatMap Rule.headedTokens := by
  induction rules with
  | nil => rfl
  | cons rule rules ih =>
    have hd := rule.expression.defining_not_mem_tokens
    have hh := rule.expression.head_not_mem_tokens
    -- What follows is the end or a name, so the last token of this rule is no head.
    have hm : (rules.flatMap Rule.tokens).head? ≠ some .defining := by
      cases rules <;> simp [Rule.tokens]
    rw [List.flatMap_cons, List.flatMap_cons, Rule.tokens, List.cons_append, List.cons_append,
      headed, headed_cons (by simp), headed_append hh hm, headed_of_not_mem hd hh, ih]
    rfl

/-! ## Expressions -/

namespace Expression.Fits

variable {rank : Rank} {e : Expression}

theorem suits (h : e.Fits rank) : e.Suits rank := by
  induction h with
  | @literal text occurrence grouped =>
    cases grouped with
    | false => exact .literal
    | true => exact .group (.arm (.item (.operand .literal)))
  | @symbol name occurrence grouped =>
    cases grouped with
    | false => exact .symbol
    | true => exact .group (.arm (.item (.operand .symbol)))
  | group _ ih => exact .group ih
  | operand _ ih => exact .operand ih
  | exception _ _ ihm ihs => exact .exception ihm ihs
  | item _ ih => exact .item ih
  | list hl _ _ ih => exact .list (ne_nil_of_two_le hl) fun e he => .item (ih e he)
  | arm _ ih => exact .arm ih
  | alternate hl _ _ ih => exact .alternate (ne_nil_of_two_le hl) fun e he => .arm (ih e he)

/-- What fits is in normal form. -/
theorem normal_eq (h : e.Fits rank) : e.normal = e := by
  induction h with
  | @literal text occurrence grouped => cases grouped <;> cases occurrence <;> rfl
  | @symbol name occurrence grouped => cases grouped <;> cases occurrence <;> rfl
  | @group content occurrence _ ih =>
    rw [normal_ofContent] at ih
    rw [Expression.normal, ih]
    cases occurrence <;> rfl
  | operand _ ih => exact ih
  | exception _ _ ihm ihs => rw [normal_ofContent, Content.normal, ihm, ihs]
  | item _ ih => exact ih
  | list hl _ hn ih =>
    rw [normal_ofContent, Content.normal, normalAll_eq_self ih, sequence_joins.several hl,
      flatMap_items hn]
  | arm _ ih => exact ih
  | alternate hl _ hn ih =>
    rw [normal_ofContent, Content.normal, normalAll_eq_self ih, choice_joins.several hl,
      flatMap_arms hn]

theorem reads (h : e.Fits rank) : Reads rank e.tokens e := by
  have hr := h.suits.reads
  rwa [h.normal_eq] at hr

end Expression.Fits

/-! ## Grammars -/

theorem foldlM_feed_rule {state : State} {before : List Rule} {rule : Rule} (hr : rule.Fits)
    (hs : State.Ended state before) : ∃ next,
      rule.headedTokens.foldlM State.feed state = .ok next ∧
        State.Ended next (rule.onLineOne :: before) := by
  obtain ⟨level, minuend, operand, marked, he, hrun⟩ := hr.2.reads.close []
  have hdefining : State.feed ⟨before, .named ⟨rule.symbol, 1⟩⟩ .defining =
      .ok ⟨before, .within ⟨rule.symbol, 1⟩ ⟨[], {}, .operand none⟩⟩ :=
    State.feed_eq_ok_iff.2 .defining
  have hend : State.Ended
      ⟨before, .within ⟨rule.symbol, 1⟩ ⟨[], level, .item minuend operand marked⟩⟩
      (⟨rule.symbol, 1, level.close (endItem minuend operand)⟩ :: before) := .rule
  rw [he] at hend
  refine ⟨_, ?_, hend⟩
  rw [Rule.headedTokens, List.foldlM_cons, hs.feed_head, ok_bind, List.foldlM_cons, hdefining,
    ok_bind, hrun.foldlM_feed]

theorem foldlM_feed_rules {rules before : List Rule} {state : State}
    (hr : ∀ rule ∈ rules, rule.Fits) (hs : State.Ended state before) : ∃ last,
      (rules.flatMap Rule.headedTokens).foldlM State.feed state = .ok last ∧
        State.Ended last ((rules.map Rule.onLineOne).reverse ++ before) := by
  induction rules generalizing state before with
  | nil => exact ⟨state, rfl, hs⟩
  | cons rule rules ih =>
    obtain ⟨hrule, hr⟩ := List.forall_mem_cons.1 hr
    obtain ⟨next, hn, hs⟩ := foldlM_feed_rule hrule hs
    obtain ⟨last, hl, hs⟩ := ih hr hs
    refine ⟨last, ?_, by simpa using hs⟩
    rw [List.flatMap_cons, List.foldlM_append, hn, ok_bind, hl]

theorem Grammar.ofTokens_tokens {grammar : Grammar} (hg : ∀ rule ∈ grammar.rules, rule.Fits) :
    Grammar.ofTokens (grammar.rules.flatMap Rule.tokens) = .ok grammar.onLineOne := by
  obtain ⟨state, hf, hs⟩ := foldlM_feed_rules hg .start
  refine Grammar.ofTokens_eq_ok_iff.2 ⟨state, by rw [headed_tokens, hf], ?_⟩
  rw [hs.finish_eq]
  simp [Grammar.onLineOne]

/-- What is printed of a grammar whose expressions fit is read as that grammar, up to the lines of
its rules. -/
theorem Grammar.parse_print_of_fits {grammar : Grammar} (hg : ∀ rule ∈ grammar.rules, rule.Fits) :
    ∃ read, Grammar.parse grammar.print = .ok read ∧ read.onLineOne = grammar.onLineOne := by
  refine exists_parse_of_spells ?_ (Grammar.ofTokens_tokens hg)
  rw [Grammar.print, String.toList_ofList]
  exact Grammar.spells hg

def printed : Grammar :=
  ⟨[⟨"r", 4, .ofContent (.alternate
      [.ofContent (.exception (.ofContent (.symbol "a")) (.ofContent (.literal "it's"))),
        .ofContent (.list
          [⟨.list [.ofContent (.symbol "b"), .ofContent (.symbol "c")], .zeroOrMore, true⟩,
            .ofContent (.symbol "r")])])⟩,
    ⟨"s", 9, ⟨.symbol "r", .optional, true⟩⟩]⟩

theorem printed_fits : ∀ rule ∈ printed.rules, rule.Fits := by
  have hword (c : Char) (hc : c.isAlpha = true) : IsWord (String.ofList [c]) := by
    simpa [IsWord] using hc
  have hsymbol (c : Char) (hc : c.isAlpha = true) :
      (Expression.ofContent (.symbol (String.ofList [c]))).Fits .operand := .symbol (hword c hc)
  have hexception : (Expression.ofContent (.exception (.ofContent (.symbol "a"))
      (.ofContent (.literal "it's")))).Fits .arm :=
    .item (.exception (hsymbol 'a' rfl) (.literal (by simp [IsLiteral])))
  have hgroup : Expression.Fits .operand
      ⟨.list [.ofContent (.symbol "b"), .ofContent (.symbol "c")], .zeroOrMore, true⟩ := by
    refine .group (.arm (.list (by simp) ?_ (by simp; decide)))
    simpa using ⟨.operand (hsymbol 'b' rfl), .operand (hsymbol 'c' rfl)⟩
  have hlist : (Expression.ofContent (.list
      [⟨.list [.ofContent (.symbol "b"), .ofContent (.symbol "c")], .zeroOrMore, true⟩,
        .ofContent (.symbol "r")])).Fits .arm := by
    refine .list (by simp) ?_ (by simp; decide)
    simpa using ⟨.operand hgroup, .operand (hsymbol 'r' rfl)⟩
  refine List.forall_mem_cons.2 ⟨⟨hword 'r' rfl, .alternate (by simp) ?_ (by simp; decide)⟩,
    List.forall_mem_cons.2 ⟨⟨hword 's' rfl, ?_⟩, by simp⟩⟩
  · simpa using ⟨hexception, hlist⟩
  · exact .arm (.item (.operand (.symbol (hword 'r' rfl))))

theorem parse_print_printed : (∀ rule ∈ printed.rules, rule.Fits) ∧ ∃ read,
    Grammar.parse printed.print = .ok read ∧ read.onLineOne = printed.onLineOne :=
  ⟨printed_fits, Grammar.parse_print_of_fits printed_fits⟩

end GrammarText.W3c
