import GrammarText.Dialect
import GrammarText.Proofs.Lexis.Location
import GrammarText.Proofs.W3c.Tokens

/-!
# Faults in either notation

A fault of a text is at a place of that text: at a character that is no blank, or at the end if it
is that the text ends.
-/

namespace GrammarText

namespace Grammar

variable {dialect : Dialect} {text : String} {d : Diagnostic}

theorem showsBetween_of_parse_eq_error (h : parse dialect text = .error d) :
    ∃ before after, text.toList = before ++ after ∧ d.ShowsBetween before after := by
  cases dialect with
  | iso => exact Iso.reader.showsBetween_of_run_eq_error rfl rfl (map_eq_error_iff.1 h)
  | w3c =>
    have hr : W3c.reader.run (W3c.lexemes text.toList) = .error d := map_eq_error_iff.1 h
    refine W3c.reader.showsBetween_of_run_eq_error (L := W3c.lexicon) ?_ ?_ hr
    · rfl
    · exact W3c.map_start_markHeads _

/-- The offset and the line of a fault belong to one place between two characters of the text. -/
theorem fault_of_parse_eq_error (h : parse dialect text = .error d) :
    d.position.offset ≤ byteLength text.toList ∧ ∃ before after,
      text.toList = before ++ after ∧ d.ShowsBetween before after := by
  obtain ⟨before, after, ht, hd⟩ := showsBetween_of_parse_eq_error h
  refine ⟨?_, before, after, ht, hd⟩
  rw [ht, hd.offset, byteLength_append]
  exact Nat.le_add_right _ _

theorem parse_unfinished :
    parse .iso "a = 'é\n' b ;" = .error ⟨.expectedTerminator, ⟨10, 2⟩, some ⟨"a", 1⟩⟩ := by
  with_unfolding_all rfl

theorem parse_unclosed :
    parse .w3c "s ::= 'é' /*\n*/ (t" = .error ⟨.unexpectedEnd, ⟨19, 2⟩, some ⟨"s", 1⟩⟩ := by
  with_unfolding_all rfl

theorem fault_of_parse_unfinished :
    (parse .iso "a = 'é\n' b ;" = .error ⟨.expectedTerminator, ⟨10, 2⟩, some ⟨"a", 1⟩⟩ ∧
      10 ≤ byteLength "a = 'é\n' b ;".toList ∧ ∃ before after,
        "a = 'é\n' b ;".toList = before ++ after ∧
          Diagnostic.ShowsBetween ⟨.expectedTerminator, ⟨10, 2⟩, some ⟨"a", 1⟩⟩ before after) ∧
    parse .w3c "s ::= 'é' /*\n*/ (t" = .error ⟨.unexpectedEnd, ⟨19, 2⟩, some ⟨"s", 1⟩⟩ ∧
      19 ≤ byteLength "s ::= 'é' /*\n*/ (t".toList ∧ ∃ before after,
        "s ::= 'é' /*\n*/ (t".toList = before ++ after ∧
          Diagnostic.ShowsBetween ⟨.unexpectedEnd, ⟨19, 2⟩, some ⟨"s", 1⟩⟩ before after :=
  ⟨⟨parse_unfinished, fault_of_parse_eq_error parse_unfinished⟩,
    parse_unclosed, fault_of_parse_eq_error parse_unclosed⟩

end Grammar

end GrammarText
