import GrammarText.Proofs.Iso.Stretches

/-!
# Comments are kept, and change nothing else

The comments of a grammar are those that a scan of its text finds, in the same order. With a blank in
the place of each, the text is read as the same grammar without comments.
-/

namespace GrammarText.Iso

/-! ## The comments of a tree -/

mutual

def Term.allComments : Term → List String
  | ⟨factor, none⟩ => factor.allComments
  | ⟨factor, some exception⟩ => factor.allComments ++ exception.allComments

def Factor.allComments : Factor → List String
  | ⟨comments, _, primary⟩ => comments ++ primary.allComments

def Primary.allComments : Primary → List String
  | .sequence _ definitions => DefinitionsList.allComments definitions
  | .special _ | .name _ | .terminal _ | .empty => []

def DefinitionsList.allComments : List (List Term) → List String
  | [] => []
  | definition :: more =>
    Definition.allComments definition ++ DefinitionsList.allComments more

def Definition.allComments : List Term → List String
  | [] => []
  | term :: more => term.allComments ++ Definition.allComments more

end

def Rule.allComments (rule : Rule) : List String :=
  rule.comments ++ DefinitionsList.allComments rule.definitions

/-- All comments of the grammar, in the order in which the tree is printed. -/
def Grammar.allComments (grammar : Grammar) : List String :=
  grammar.rules.flatMap Rule.allComments ++ grammar.trailingComments

mutual

theorem Term.filterMap_comment?_entries :
    (term : Term) → term.entries.filterMap Entry.comment? = term.allComments
  | ⟨factor, none⟩ => Factor.filterMap_comment?_entries factor
  | ⟨factor, some exception⟩ => by
    have hf := Factor.filterMap_comment?_entries factor
    have he := Factor.filterMap_comment?_entries exception
    simp [Term.entries, Term.allComments, hf, he]

theorem Factor.filterMap_comment?_entries :
    (factor : Factor) → factor.entries.filterMap Entry.comment? = factor.allComments
  | ⟨comments, none, primary⟩ => by
    simp [Factor.entries, Factor.allComments, Primary.filterMap_comment?_entries primary]
  | ⟨comments, some n, primary⟩ => by
    simp [Factor.entries, Factor.allComments, Primary.filterMap_comment?_entries primary]

theorem Primary.filterMap_comment?_entries :
    (primary : Primary) → primary.entries.filterMap Entry.comment? = primary.allComments
  | .sequence _ definitions => by
    simp [Primary.entries, Primary.allComments,
      DefinitionsList.filterMap_comment?_entries definitions]
  | .special _ => rfl
  | .name _ => rfl
  | .terminal _ => rfl
  | .empty => rfl

theorem DefinitionsList.filterMap_comment?_entries :
    (definitions : List (List Term)) → (DefinitionsList.entries definitions).filterMap
      Entry.comment? = DefinitionsList.allComments definitions
  | [] => rfl
  | [definition] => by
    simp [DefinitionsList.entries, DefinitionsList.allComments,
      Definition.filterMap_comment?_entries definition]
  | definition :: next :: rest => by
    have hd := Definition.filterMap_comment?_entries definition
    have hl := DefinitionsList.filterMap_comment?_entries (next :: rest)
    rw [DefinitionsList.entries, DefinitionsList.allComments, List.filterMap_append,
      filterMap_comment?_token, hd, hl]
    simp

theorem Definition.filterMap_comment?_entries :
    (definition : List Term) → (Definition.entries definition).filterMap Entry.comment? =
      Definition.allComments definition
  | [] => rfl
  | [term] => by
    simp [Definition.entries, Definition.allComments, Term.filterMap_comment?_entries term]
  | term :: next :: rest => by
    have ht := Term.filterMap_comment?_entries term
    have hl := Definition.filterMap_comment?_entries (next :: rest)
    rw [Definition.entries, Definition.allComments, List.filterMap_append,
      filterMap_comment?_token, ht, hl]
    simp

end

theorem Grammar.filterMap_comment?_entries (grammar : Grammar) :
    grammar.entries.filterMap Entry.comment? = grammar.allComments := by
  have hr (rule : Rule) : rule.entries.filterMap Entry.comment? = rule.allComments := by
    simp [Rule.entries, Rule.allComments, DefinitionsList.filterMap_comment?_entries]
  simp [entries, allComments, List.filterMap_flatMap, hr]

/-! ## The comments of a text -/

/-- Each comment of a text that is read is kept, in its order, and does not change what else is
read. -/
theorem Grammar.parse_blankComments {text : String} {grammar : Grammar}
    (h : Grammar.parse text = .ok grammar) :
    grammar.allComments = commentBodies text.toList ∧
      ∃ read, Grammar.parse (String.ofList (blankComments text.toList)) = .ok read ∧
        read.onLineOne = grammar.withoutComments.onLineOne := by
  obtain ⟨entries, hs, ho, ha⟩ := exists_spells_alike h
  obtain ⟨state, hr, -⟩ := ofEntries_eq_ok_iff.1 ho
  have hk := State.isKnown_of_foldlM hr
  have hw := ofEntries_withoutComments ho
  obtain ⟨bare, hbare, -⟩ := ofEntries_eq_ok_iff.1 hw
  obtain ⟨hn, -⟩ := State.namesEnd_of_foldlM hbare
  have hb := spells_blankComments hs hk hn
  rw [← String.toList_ofList (l := blankComments text.toList)] at hb
  rw [withoutComments_onLineOne] at hw
  refine ⟨?_, exists_parse_of_spells hb hw⟩
  rw [← filterMap_comment?_entries, ha.comments, commentBodies_of_spells hs hk]

def commented : Grammar :=
  ⟨[⟨"a", 1, ["x (* y *)"],
    [[⟨⟨["n"], some 2, .terminal "(*"⟩, none⟩,
      ⟨.ofPrimary (.sequence .optional [[⟨.ofPrimary (.name "b"), none⟩]]), none⟩]]⟩],
    ["\"*)\"", "end"]⟩

theorem parse_commented :
    Grammar.parse "a (* x (* y *) *) = 2 (* n *) * '(*' , [ b (* \"*)\" *) ] ; (* end *)" =
      .ok commented := by
  with_unfolding_all rfl

theorem parse_blankComments_commented :
    Grammar.parse "a (* x (* y *) *) = 2 (* n *) * '(*' , [ b (* \"*)\" *) ] ; (* end *)" =
      .ok commented ∧
    commented.allComments =
      commentBodies "a (* x (* y *) *) = 2 (* n *) * '(*' , [ b (* \"*)\" *) ] ; (* end *)".toList ∧
    ∃ read, Grammar.parse (String.ofList (blankComments
        "a (* x (* y *) *) = 2 (* n *) * '(*' , [ b (* \"*)\" *) ] ; (* end *)".toList)) = .ok read ∧
      read.onLineOne = commented.withoutComments.onLineOne :=
  ⟨parse_commented, Grammar.parse_blankComments parse_commented⟩

end GrammarText.Iso
