import GrammarText.Dialect
import GrammarText.Proofs.Iso.Prefix
import GrammarText.Proofs.W3c.Prefix

/-!
# The rule in which a fault lies

A fault within a rule is told with the name and the line of that rule: all before the name is
complete. A fault that is told without a rule is that no rule starts where one must, or that the
text ends there.
-/

namespace GrammarText

namespace Dialect

/-- The text is blanks and complete comments. -/
def IsGap : Dialect → List Char → Prop
  | iso => Iso.lexicon.IsGap
  | w3c => W3c.lexicon.IsGap

/-- A character that starts a name. -/
def startsName : Dialect → Char → Bool
  | iso => isLetter
  | w3c => Char.isAlpha

/-- A character that may follow in a name. -/
def continuesName : Dialect → Char → Bool
  | iso => GrammarText.continuesName
  | w3c => Char.isAlpha

/-- The text starts with the given name, which goes on as far as it can. Blanks in it do not
count. -/
def StartsWith (dialect : Dialect) (name : String) (text : List Char) : Prop :=
  ∃ c tail rest, text = c :: tail ++ rest ∧ dialect.startsName c = true ∧
    (∀ d ∈ tail, dialect.continuesName d = true) ∧
    (∀ d ∈ rest.head?, dialect.continuesName d = false) ∧
      name = String.ofList ((c :: tail).filter fun d => !isBlank d)

/-- What is missing where no rule starts. -/
def expectedStart : Dialect → Fault
  | iso => .expectedName
  | w3c => .expectedSymbol

theorem startsWith_of_metaName {text source rest : List Char} {name : String}
    (h : metaName text = .found name source rest) : iso.StartsWith name text := by
  obtain ⟨c, tail, hc, ht, hr, hn, rfl, hs⟩ := metaName_eq_found_iff.1 h
  exact ⟨c, tail, rest, hs, hc, ht, hr, hn⟩

theorem startsWith_of_word {text source rest : List Char} {name : String}
    (h : word text = .found name source rest) : w3c.StartsWith name text := by
  obtain ⟨rfl, hne, ha, hr, hs⟩ := word_eq_found_iff.1 h
  obtain ⟨c, tail, rfl⟩ := List.exists_cons_of_ne_nil hne
  have hblank : (c :: tail).filter (fun d => !isBlank d) = c :: tail :=
    List.filter_eq_self.2 fun d hd => by rw [isBlank_of_isAlpha (ha d hd), Bool.not_false]
  obtain ⟨hc, ht⟩ := List.forall_mem_cons.1 ha
  exact ⟨c, tail, rest, hs, hc, ht, hr, by rw [hblank]⟩

end Dialect

/-- The fault lies in the rule that starts between the two parts of the text: what comes before is
complete and does not end in the middle of a name, and the fault does not show before the name. -/
structure Diagnostic.LiesIn (d : Diagnostic) (dialect : Dialect) (rule : RuleContext)
    (before after : List Char) : Prop where
  complete : dialect.IsGap before ∨
    ∃ grammar, Grammar.parse dialect (String.ofList before) = .ok grammar
  boundary : ∀ c ∈ before.getLast?, dialect.startsName c = false
  name : dialect.StartsWith rule.name after
  line : rule.line = 1 + lineFeeds before
  offset_le : byteLength before ≤ d.position.offset
  line_le : rule.line ≤ d.position.line

namespace Grammar

variable {dialect : Dialect} {text : String} {d : Diagnostic}

theorem exists_liesIn_of_parse_eq_error {rule : RuleContext} (h : parse dialect text = .error d)
    (hd : d.rule = some rule) :
    ∃ before after, text.toList = before ++ after ∧ d.LiesIn dialect rule before after := by
  cases dialect with
  | iso =>
    obtain ⟨before, after, ht, hb, hc, ⟨source, rest, hn⟩, hl, hp⟩ :=
      Iso.Grammar.exists_prefix_of_rule (map_eq_error_iff.1 h) hd
    rw [Position.start_advance] at hp
    refine ⟨before, after, ht, ?_, hc, Dialect.startsWith_of_metaName hn, hl, hp.1, hl ▸ hp.2⟩
    exact hb.imp_right fun ⟨grammar, hg⟩ => ⟨.iso grammar, map_eq_ok_iff.2 ⟨grammar, hg, rfl⟩⟩
  | w3c =>
    obtain ⟨before, after, ht, ⟨grammar, hg⟩, hc, ⟨source, rest, hn⟩, hl, hp⟩ :=
      W3c.Grammar.exists_prefix_of_rule (map_eq_error_iff.1 h) hd
    rw [Position.start_advance] at hp
    refine ⟨before, after, ht, ?_, hc, Dialect.startsWith_of_word hn, hl, hp.1, hl ▸ hp.2⟩
    exact .inr ⟨.w3c grammar, map_eq_ok_iff.2 ⟨grammar, hg, rfl⟩⟩

theorem fault_of_parse_without_rule (h : parse dialect text = .error d) (hd : d.rule = none) :
    d.fault = .unexpectedEnd ∨ d.fault = dialect.expectedStart := by
  cases dialect with
  | iso =>
    exact Iso.reader.fault_of_rule_eq_none Iso.State.fault_of_rule?_eq_none
      (map_eq_error_iff.1 h) hd
  | w3c =>
    exact W3c.reader.fault_of_rule_eq_none W3c.State.fault_of_rule?_eq_none
      (map_eq_error_iff.1 h) hd

/-- A fault is told with the rule that fails, or it is where a rule must start. -/
theorem context_of_parse_eq_error (h : parse dialect text = .error d) :
    (∀ rule, d.rule = some rule →
      ∃ before after, text.toList = before ++ after ∧ d.LiesIn dialect rule before after) ∧
    (d.rule = none → d.fault = .unexpectedEnd ∨ d.fault = dialect.expectedStart) :=
  ⟨fun _ => exists_liesIn_of_parse_eq_error h, fault_of_parse_without_rule h⟩

theorem parse_secondUnfinished :
    parse .w3c "a ::= b /*\n*/ c ::= d - )" =
      .error ⟨.expectedExpression, ⟨24, 2⟩, some ⟨"c", 2⟩⟩ := by
  with_unfolding_all rfl

theorem parse_afterComment :
    parse .iso "(* é\n *) a b = c - , ) ;" =
      .error ⟨.expectedTerminator, ⟨22, 2⟩, some ⟨"ab", 2⟩⟩ := by
  with_unfolding_all rfl

theorem parse_unnamed : parse .iso "a = b ;\n 1 = c ;" = .error ⟨.expectedName, ⟨9, 2⟩, none⟩ := by
  with_unfolding_all rfl

theorem context_of_parse_secondUnfinished :
    (parse .w3c "a ::= b /*\n*/ c ::= d - )" =
        .error ⟨.expectedExpression, ⟨24, 2⟩, some ⟨"c", 2⟩⟩ ∧
      ∃ before after, "a ::= b /*\n*/ c ::= d - )".toList = before ++ after ∧
        Diagnostic.LiesIn ⟨.expectedExpression, ⟨24, 2⟩, some ⟨"c", 2⟩⟩ .w3c ⟨"c", 2⟩
          before after) ∧
    (parse .iso "(* é\n *) a b = c - , ) ;" =
        .error ⟨.expectedTerminator, ⟨22, 2⟩, some ⟨"ab", 2⟩⟩ ∧
      ∃ before after, "(* é\n *) a b = c - , ) ;".toList = before ++ after ∧
        Diagnostic.LiesIn ⟨.expectedTerminator, ⟨22, 2⟩, some ⟨"ab", 2⟩⟩ .iso ⟨"ab", 2⟩
          before after) ∧
    parse .iso "a = b ;\n 1 = c ;" = .error ⟨.expectedName, ⟨9, 2⟩, none⟩ ∧
      (Fault.expectedName = .unexpectedEnd ∨ Fault.expectedName = Dialect.iso.expectedStart) :=
  ⟨⟨parse_secondUnfinished, (context_of_parse_eq_error parse_secondUnfinished).1 _ rfl⟩,
    ⟨parse_afterComment, (context_of_parse_eq_error parse_afterComment).1 _ rfl⟩,
    parse_unnamed, (context_of_parse_eq_error parse_unnamed).2 rfl⟩

end Grammar

end GrammarText
