import GrammarText.Proofs.W3c.Appending
import GrammarText.Proofs.W3c.Language
import GrammarText.Proofs.W3c.Steps
import GrammarText.W3c.Printer

/-!
# Marks after parentheses

An expression in parentheses with a mark behind them is read as that expression with that mark,
whatever its own mark was. So the new mark applies to what the parentheses contain only if it
absorbs the old one.
-/

namespace GrammarText.W3c

/-! ## Text that goes on -/

/-- A text that has been read to its end is read in the same way if it goes on. -/
theorem SpellsEntries.append {glued : Bool} {d : Char} {text more : List Char}
    {entries after : List (Entry Token)} (hd : isBoundary d = true)
    (h : SpellsEntries glued text entries) (hu : .token .unclosed ∉ entries)
    (hm : ∀ glued, SpellsEntries glued (d :: more) after) :
    SpellsEntries glued (text ++ d :: more) (entries ++ after) := by
  induction h with
  | nil => exact hm _
  | blank hc _ ih => exact .blank hc (ih hu)
  | comment hc hr _ ih =>
    refine .comment hc (blockComment_append (d :: more) hr) (ih ?_)
    exact fun h => hu (List.mem_cons_of_mem _ h)
  | @token glued c text source rest token entries hc hr ht _ ih =>
    have hunclosed : token ≠ .unclosed := by
      rintro rfl
      exact hu (by cases glued <;> simp [Token.seen])
    refine .token hc (blockComment_append_of_absent more hd hr)
      (Token.read_append more hd ht hunclosed) (ih ?_)
    exact fun h => hu (List.mem_cons_of_mem _ h)

/-- Whether a gap comes first does not show if the text starts with an operand. -/
theorem SpellsEntries.reglue {g : Bool} {text : List Char} {entries : List (Entry Token)}
    (h : SpellsEntries g text entries)
    (ho : ∀ token ∈ (entries.filterMap Entry.token?).head?, token.startsOperand) (glued : Bool) :
    SpellsEntries glued text entries := by
  cases h with
  | nil => exact .nil
  | blank hc h => exact .blank hc h
  | comment hc hr h => exact .comment hc hr h
  | @token _ c text source rest token entries hc hr ht h =>
    have hs := ho _ rfl
    have hseen : token.seen g = token.seen glued := by
      by_cases hm : ∃ occurrence, token = .suffix occurrence
      · obtain ⟨occurrence, rfl⟩ := hm
        cases g <;> cases hs
      · have hm : ∀ occurrence, token ≠ .suffix occurrence := fun o h => hm ⟨o, h⟩
        rw [Token.seen_eq_self hm, Token.seen_eq_self hm]
    rw [hseen]
    exact .token hc hr ht h

theorem SpellsEntries.group {text more : List Char} {entries after : List (Entry Token)}
    (h : SpellsEntries true text entries) (hu : .token .unclosed ∉ entries)
    (hm : SpellsEntries true more after) (glued : Bool) :
    SpellsEntries glued ('(' :: (text ++ ')' :: more))
      (.token .opening :: (entries ++ .token .closing :: after)) := by
  have hclosing (g : Bool) : SpellsEntries g (')' :: more) (.token .closing :: after) := by
    cases g <;> exact .token rfl rfl rfl hm
  have hin := h.append rfl hu hclosing
  cases glued <;> exact .token rfl rfl rfl hin

theorem not_mem_entries_unclosed {entries : List (Entry Token)}
    (hu : .unclosed ∉ entries.filterMap Entry.token?) : .token .unclosed ∉ entries := by
  intro hm
  exact hu (List.mem_filterMap.2 ⟨_, hm, rfl⟩)

/-! ## A single rule -/

theorem ofTokens_rule_iff {name : String} {tokens : List Token} {rule : Rule} :
    Grammar.ofTokens (.symbol name false :: .defining :: tokens) = .ok ⟨[rule]⟩ ↔
      ∃ level minuend operand marked,
        Body.Run ⟨[], {}, .operand none⟩ (headed tokens) ⟨[], level, .item minuend operand marked⟩ ∧
          rule = ⟨name, 1, level.close (endItem minuend operand)⟩ := by
  have hname : State.feed ⟨[], .between⟩ (.symbol name true) = .ok ⟨[], .named ⟨name, 1⟩⟩ := rfl
  have hdefining : State.feed ⟨[], .named ⟨name, 1⟩⟩ .defining =
      .ok ⟨[], .within ⟨name, 1⟩ ⟨[], {}, .operand none⟩⟩ := rfl
  have hheaded : headed (.symbol name false :: .defining :: tokens) =
      .symbol name true :: .defining :: headed tokens := by
    rw [headed, headed_cons (by simp)]
    rfl
  rw [Grammar.ofTokens_eq_ok_iff, hheaded]
  simp only [List.foldlM_cons, hname, hdefining, ok_bind]
  constructor
  · rintro ⟨state, hf, hs⟩
    -- One rule is all that there is at the end, so no other has begun before.
    have he := State.Ended.of_finish hs
    obtain ⟨final, hr, rfl⟩ := Body.Run.of_foldlM hf (by simp [he.begun_eq])
    generalize hrules : (⟨[rule]⟩ : Grammar).rules.reverse = rules at he
    cases he with
    | rule => cases hrules; exact ⟨_, _, _, _, hr, rfl⟩
  · rintro ⟨level, minuend, operand, marked, hr, rfl⟩
    exact ⟨_, hr.foldlM_feed [] ⟨name, 1⟩, State.Ended.finish_eq .rule⟩

/-- In parentheses and with a new mark, an expression stays what it is but for its mark. -/
theorem ofTokens_regroup {name : String} {tokens : List Token} {rule : Rule}
    (occurrence : Occurrence) (ht : ∀ name, .symbol name true ∉ tokens)
    (h : Grammar.ofTokens (.symbol name false :: .defining :: tokens) = .ok ⟨[rule]⟩) :
    Grammar.ofTokens (.symbol name false :: .defining :: .opening ::
      (tokens ++ [.closing, .suffix occurrence])) =
        .ok ⟨[⟨name, 1, rule.expression.parenthesized.withOccurrence occurrence⟩]⟩ := by
  obtain ⟨level, minuend, operand, marked, hr, rfl⟩ := ofTokens_rule_iff.1 h
  refine ofTokens_rule_iff.2 ⟨{}, none,
    (level.close (endItem minuend operand)).parenthesized.withOccurrence occurrence, true, ?_, rfl⟩
  rw [headed_cons (by simp), headed_append ht (by simp)]
  have hin := hr.nestedIn [⟨{}, none⟩]
  exact .cons .opening (hin.append (.cons .closing (.single .suffix)))

/-! ## A single rule as text -/

theorem spells_rule_iff {text : List Char} {entries : List (Entry Token)} :
    SpellsEntries true ('r' :: ' ' :: ':' :: ':' :: '=' :: ' ' :: text) entries ↔
      ∃ after, entries = .token (.symbol "r" false) :: .token .defining :: after ∧
        SpellsEntries false text after := by
  have hname : lexicon.token 'r' (' ' :: ':' :: ':' :: '=' :: ' ' :: text) =
      ⟨.symbol "r" false, ['r'], ' ' :: ':' :: ':' :: '=' :: ' ' :: text⟩ := rfl
  have hdefining : lexicon.token ':' (':' :: '=' :: ' ' :: text) =
      ⟨.defining, [':', ':', '='], ' ' :: text⟩ := rfl
  rw [SpellsEntries, Lexicon.spells_token_iff rfl rfl hname]
  simp only [Lexicon.spells_blank_iff (show isBlank ' ' = true from rfl),
    Lexicon.spells_token_iff rfl rfl hdefining]
  constructor
  · rintro ⟨_, rfl, after, rfl, h⟩
    exact ⟨after, rfl, h⟩
  · rintro ⟨after, rfl, h⟩
    exact ⟨_, rfl, after, rfl, h⟩

theorem spells_suffix {occurrence : Occurrence} (ho : occurrence ≠ .once) :
    SpellsEntries true occurrence.suffix [.token (.suffix occurrence)] := by
  cases occurrence with
  | once => exact absurd rfl ho
  | optional => exact .token rfl rfl rfl .nil
  | zeroOrMore => exact .token rfl rfl rfl .nil
  | oneOrMore => exact .token rfl rfl rfl .nil

section Accepted

variable {text : List Char} {entries : List (Entry Token)}

/-- The entries are those of one expression. -/
def Accepted (entries : List (Entry Token)) : Prop :=
  ∃ level minuend operand marked,
    Body.Run ⟨[], {}, .operand none⟩ (headed (entries.filterMap Entry.token?))
      ⟨[], level, .item minuend operand marked⟩

theorem Accepted.not_mem_unclosed (h : Accepted entries) : .token .unclosed ∉ entries := by
  obtain ⟨level, minuend, operand, marked, hr⟩ := h
  apply not_mem_entries_unclosed
  intro hm
  exact hr.not_mem_unclosed ((mem_headed_iff (by simp)).2 hm)

theorem Accepted.spells_glued (h : Accepted entries) (hs : SpellsEntries false text entries) :
    SpellsEntries true text entries := by
  obtain ⟨level, minuend, operand, marked, hr⟩ := h
  exact hs.reglue (startsOperand_of_headed hr.startsOperand) true

theorem Accepted.spells_group (h : Accepted entries) (hs : SpellsEntries false text entries)
    {occurrence : Occurrence} (ho : occurrence ≠ .once) :
    SpellsEntries false ('(' :: (text ++ ')' :: occurrence.suffix))
      (.token .opening :: (entries ++ [.token .closing, .token (.suffix occurrence)])) :=
  (h.spells_glued hs).group h.not_mem_unclosed (spells_suffix ho) false

end Accepted

theorem toList_rule (text : String) : ("r ::= " ++ text).toList =
    'r' :: ' ' :: ':' :: ':' :: '=' :: ' ' :: text.toList := by
  rw [String.toList_append]
  rfl

theorem spells_of_parse_rule {text : String} {grammar : Grammar} {rule : Rule}
    (h : Grammar.parse ("r ::= " ++ text) = .ok grammar) (hr : grammar.rules = [rule]) :
    ∃ entries, SpellsEntries false text.toList entries ∧
      Grammar.ofTokens (.symbol "r" false :: .defining :: entries.filterMap Entry.token?) =
        .ok ⟨[rule.onLineOne]⟩ := by
  obtain ⟨_, ⟨entries, hs, rfl⟩, ht⟩ := exists_spells_of_parse h
  rw [toList_rule] at hs
  obtain ⟨entries, rfl, hafter⟩ := spells_rule_iff.1 hs
  have hone : grammar.onLineOne = ⟨[rule.onLineOne]⟩ := by simp [Grammar.onLineOne, hr]
  exact ⟨entries, hafter, hone ▸ ht⟩

theorem parse_rule_of_spells {text : String} {entries : List (Entry Token)} {rule : Rule}
    (hs : SpellsEntries false text.toList entries)
    (ht : Grammar.ofTokens (.symbol "r" false :: .defining :: entries.filterMap Entry.token?) =
      .ok ⟨[rule]⟩) :
    ∃ read found, Grammar.parse ("r ::= " ++ text) = .ok read ∧ read.rules = [found] ∧
      found.expression = rule.expression := by
  have hspells : Spells true ("r ::= " ++ text).toList
      (.symbol "r" false :: .defining :: entries.filterMap Entry.token?) := by
    rw [toList_rule]
    exact ⟨_, spells_rule_iff.2 ⟨entries, rfl, hs⟩, rfl⟩
  obtain ⟨read, hp, hread⟩ := exists_parse_of_spells hspells ht
  obtain ⟨found, hf, rfl⟩ : ∃ found, read.rules = [found] ∧ found.onLineOne = rule := by
    simpa [Grammar.onLineOne, List.map_eq_singleton_iff] using hread
  exact ⟨read, found, hp, hf, rfl⟩

/-- In parentheses and with a mark behind them, an expression is read as it is without them, but for
its own mark. -/
theorem parse_regroup {text : String} {grammar : Grammar} {rule : Rule} {occurrence : Occurrence}
    (h : Grammar.parse ("r ::= " ++ text) = .ok grammar) (hr : grammar.rules = [rule])
    (ho : occurrence ≠ .once) : ∃ read found,
      Grammar.parse ("r ::= (" ++ text ++ ")" ++ String.ofList occurrence.suffix) = .ok read ∧
        read.rules = [found] ∧
          found.expression = rule.expression.parenthesized.withOccurrence occurrence := by
  obtain ⟨entries, hs, ht⟩ := spells_of_parse_rule h hr
  have haccepted : Accepted entries := by
    obtain ⟨level, minuend, operand, marked, hrun, -⟩ := ofTokens_rule_iff.1 ht
    exact ⟨level, minuend, operand, marked, hrun⟩
  have htext : "r ::= (" ++ text ++ ")" ++ String.ofList occurrence.suffix =
      "r ::= " ++ String.ofList ('(' :: (text.toList ++ ')' :: occurrence.suffix)) := by
    apply String.toList_injective
    simp
  have hspells := haccepted.spells_group hs ho
  have htokens : .opening :: (entries.filterMap Entry.token? ++ [.closing, .suffix occurrence]) =
      (.token .opening :: (entries ++ [.token .closing, .token (.suffix occurrence)])).filterMap
        Entry.token? := by
    simp [Entry.token?]
  have hread := ofTokens_regroup occurrence hs.not_mem_head ht
  rw [htokens] at hread
  rw [htext]
  exact parse_rule_of_spells (by rwa [String.toList_ofList]) hread

/-- A mark after parentheses applies to what they contain exactly if it absorbs the mark that stands
there already. -/
theorem parse_group_language {text : String} {grammar : Grammar} {rule : Rule}
    {occurrence : Occurrence} (h : Grammar.parse ("r ::= " ++ text) = .ok grammar)
    (hr : grammar.rules = [rule]) (ho : occurrence ≠ .once) : ∃ read found,
      Grammar.parse ("r ::= (" ++ text ++ ")" ++ String.ofList occurrence.suffix) = .ok read ∧
        read.rules = [found] ∧
          (found.expression.language = occurrence.apply rule.expression.language ↔
            occurrence.Absorbs rule.expression.occurrence rule.expression.content.language) := by
  obtain ⟨read, found, hp, hf, he⟩ := parse_regroup h hr ho
  refine ⟨read, found, hp, hf, ?_⟩
  rw [he, Expression.language_eq, Expression.language_eq rule.expression]
  exact Occurrence.apply_eq_apply_apply_iff ho

def starred : Rule := ⟨"r", 1, ⟨.symbol "a", .zeroOrMore, false⟩⟩

theorem parse_starred : Grammar.parse ("r ::= " ++ "a*") = .ok ⟨[starred]⟩ := by
  with_unfolding_all rfl

theorem parse_group_language_starred :
    Grammar.parse ("r ::= " ++ "a*") = .ok ⟨[starred]⟩ ∧ Occurrence.optional ≠ .once ∧
      ∃ read found,
        Grammar.parse ("r ::= (" ++ "a*" ++ ")" ++ String.ofList Occurrence.optional.suffix) =
          .ok read ∧ read.rules = [found] ∧
            (found.expression.language = Occurrence.optional.apply starred.expression.language ↔
              Occurrence.optional.Absorbs .zeroOrMore (Content.symbol "a").language) :=
  ⟨parse_starred, by simp, parse_group_language parse_starred rfl (by simp)⟩

/-- The star is lost where the parentheses are marked as optional. -/
theorem parse_optional_starred : ∃ found : Rule,
    Grammar.parse ("r ::= " ++ "a*") = .ok ⟨[starred]⟩ ∧
      Grammar.parse ("r ::= (" ++ "a*" ++ ")" ++ "?") = .ok ⟨[found]⟩ ∧
        found.expression.language ≠ Occurrence.optional.apply starred.expression.language := by
  refine ⟨⟨"r", 1, ⟨.symbol "a", .optional, true⟩⟩, parse_starred, by with_unfolding_all rfl, ?_⟩
  intro h
  rw [Expression.language_eq, Expression.language_eq starred.expression] at h
  have ho : Occurrence.optional ≠ .once := by simp
  have habsorbs := (Occurrence.apply_eq_apply_apply_iff ho).1 h
  rw [starred, Content.language] at habsorbs
  exact Occurrence.not_absorbs_letter _ habsorbs

end GrammarText.W3c
