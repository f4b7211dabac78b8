import GrammarText.Proofs.Heads
import GrammarText.Proofs.Iso.Comments
import GrammarText.Proofs.Iso.WellFormed

/-!
# What holds of every grammar that is read

The lists of the tree are not empty, its leaves and comments can be written down, and its rules
stand on lines of the text, one after the other.
-/

namespace GrammarText

/-! ## Comments -/

theorem trim_of_comment {text source rest : List Char} {value : String}
    (h : comment text = .found value source rest) : trim value.toList = value.toList := by
  unfold comment at h
  split at h
  · split at h <;> cases h
    rw [String.toList_ofList, trim_trim]
  · cases h

namespace Iso

theorem IsCommentBody.trim {body : String} (h : IsCommentBody body) :
    GrammarText.trim body.toList = body.toList := by
  obtain ⟨source, hs⟩ := h
  exact trim_of_comment hs

/-- Every comment of a text that is read can be read again. -/
theorem Grammar.isCommentBody_of_parse {text : String} {grammar : Grammar}
    (h : Grammar.parse text = .ok grammar) : ∀ body ∈ grammar.allComments, IsCommentBody body := by
  obtain ⟨entries, hs, -, ha⟩ := exists_spells_alike h
  intro body hb
  rw [← filterMap_comment?_entries, ha.comments] at hb
  obtain ⟨entry, he, hc⟩ := List.mem_filterMap.1 hb
  cases entry with
  | comment => cases hc; exact legible_of_spells hs _ he
  | token => cases hc

/-! ## Lines -/

theorem Grammar.lines_of_parse {text : String} {grammar : Grammar}
    (h : Grammar.parse text = .ok grammar) : (grammar.rules.map Rule.line).Sublist
      ((lexicon.read text.toList).lexemes.map fun lexeme => lexeme.start.line) := by
  have hl := headTracking.lines_of_run h
  rwa [headTracking, List.map_map] at hl

theorem Grammar.pairwise_line_of_parse {text : String} {grammar : Grammar}
    (h : Grammar.parse text = .ok grammar) : (grammar.rules.map Rule.line).Pairwise (· ≤ ·) :=
  .sublist (lines_of_parse h) (List.pairwise_map.2
    ((lexicon.pairwise_start_readFrom .start text.toList).imp And.right))

theorem Grammar.line_of_parse {text : String} {grammar : Grammar}
    (h : Grammar.parse text = .ok grammar) :
    ∀ rule ∈ grammar.rules, 1 ≤ rule.line ∧ rule.line ≤ 1 + lineFeeds text.toList := by
  intro rule hr
  obtain ⟨lexeme, hm, hl⟩ := List.mem_map.1 ((lines_of_parse h).subset (List.mem_map_of_mem hr))
  obtain ⟨hstart, hstop⟩ := Lexicon.start_le_of_mem_readFrom hm
  rw [← hl]
  exact ⟨hstart.2, hstop.2⟩

/-! ## All of it -/

/-- A grammar that is read is printable and so are all comments in it, and its rules stand on lines
of the text that do not decrease. -/
theorem Grammar.invariants_of_parse {text : String} {grammar : Grammar}
    (h : Grammar.parse text = .ok grammar) :
    grammar.Printable ∧
      (∀ body ∈ grammar.allComments,
        IsCommentBody body ∧ GrammarText.trim body.toList = body.toList) ∧
      (grammar.rules.map Rule.line).Pairwise (· ≤ ·) ∧
      ∀ rule ∈ grammar.rules, 1 ≤ rule.line ∧ rule.line ≤ 1 + lineFeeds text.toList := by
  have hc := isCommentBody_of_parse h
  exact ⟨printable_of_parse h, fun body hb => ⟨hc body hb, (hc body hb).trim⟩,
    pairwise_line_of_parse h, line_of_parse h⟩

def twoLines : Grammar :=
  ⟨[⟨"a", 1, [], [[⟨⟨["( \"*)\" *"], some 2, .special "s"⟩, some (.ofPrimary (.name "bc"))⟩]]⟩,
    ⟨"bc", 2, [], [[⟨.ofPrimary .empty, none⟩], [⟨.ofPrimary (.terminal "x"), none⟩]]⟩], []⟩

theorem parse_twoLines :
    Grammar.parse "a = (* ( \"*)\" **) 2 * ? s ? - b c;\nb c = | 'x'." = .ok twoLines := by
  with_unfolding_all rfl

theorem invariants_of_parse_twoLines :
    Grammar.parse "a = (* ( \"*)\" **) 2 * ? s ? - b c;\nb c = | 'x'." = .ok twoLines ∧
      twoLines.Printable ∧
      (∀ body ∈ twoLines.allComments,
        IsCommentBody body ∧ GrammarText.trim body.toList = body.toList) ∧
      (twoLines.rules.map Rule.line).Pairwise (· ≤ ·) ∧
      ∀ rule ∈ twoLines.rules, 1 ≤ rule.line ∧ rule.line ≤
        1 + lineFeeds "a = (* ( \"*)\" **) 2 * ? s ? - b c;\nb c = | 'x'.".toList :=
  ⟨parse_twoLines, Grammar.invariants_of_parse parse_twoLines⟩

end Iso

end GrammarText
