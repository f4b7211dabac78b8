import GrammarText.Proofs.Iso.Stretches
import Mathlib.Data.Nat.Digits.Defs

/-!
# Counts

A count is the number that its digits stand for, whatever its length, as long as that takes no more
than 64 bits. A greater one is a fault at its first digit.
-/

namespace GrammarText

/-! ## Decimal digits -/

/-- The number that a row of decimal digits stands for. The last of them counts ones. -/
def decimalValue (digits : List Char) : Nat :=
  Nat.ofDigits 10 (digits.reverse.map fun c => c.toNat - '0'.toNat)

theorem decimalValue_concat (digits : List Char) (c : Char) :
    decimalValue (digits ++ [c]) = 10 * decimalValue digits + (c.toNat - '0'.toNat) := by
  rw [decimalValue, List.reverse_append, List.reverse_singleton, List.singleton_append,
    List.map_cons, Nat.ofDigits_cons, decimalValue, Nat.add_comm]

theorem ofDigitChars_eq_decimalValue (digits : List Char) :
    Nat.ofDigitChars 10 digits 0 = decimalValue digits := by
  induction digits using List.reverseRecOn with
  | nil => rfl
  | append_singleton digits c ih =>
    rw [decimalValue_concat, ← ih, Nat.ofDigitChars, List.foldl_append]
    rfl

theorem countBound_eq : countBound = 2 ^ 64 := by
  norm_num [countBound]

/-! ## Comments of a gap -/

section Bodies

variable {c : Char} {text source rest : List Char} {body : String}

theorem eq_paren_of_comment (h : comment (c :: text) = .found body source rest) : c = '(' := by
  by_contra hc
  rw [comment_cons_eq_absent hc] at h
  cases h

theorem commentBodies_blank (hc : isBlank c = true) :
    commentBodies (c :: text) = commentBodies text := by
  rw [commentBodies, stretches_inert (Iso.isInert_of_isBlank hc)]
  rfl

theorem commentBodies_comment (h : comment (c :: text) = .found body source rest) :
    commentBodies (c :: text) = body :: commentBodies rest := by
  rw [commentBodies, stretches_comment h]
  rfl

end Bodies

namespace Iso

section Gaps

variable {glued : Bool} {place : Position} {gap next : List Char}

/-- Whatever follows a gap, the comments of the gap are listed first. -/
theorem transcript_gap_append (hg : lexicon.IsGap gap) :
    lexicon.transcript placed glued place (gap ++ next) =
      (lexicon.transcript placed true (place.advance gap) next).prepend
        ((commentBodies gap).map .comment) := by
  induction hg generalizing glued place with
  | nil =>
    have hnil : commentBodies [] = [] := by rw [commentBodies, stretches]; rfl
    rw [hnil]
    exact Lexicon.transcript_congr_glued fun _ _ _ _ _ => rfl
  | blank hc _ ih =>
    rw [List.cons_append, Lexicon.transcript_blank hc, ih, commentBodies_blank hc,
      ← Position.advance_append]
    rfl
  | comment hr _ ih =>
    have hs := ((comment_isSplitOf _).of_found hr).1
    obtain ⟨c, more, rfl⟩ := Lexicon.eq_cons_of_comment hr (by simp)
    obtain rfl := eq_paren_of_comment hr
    rw [List.cons_append, Lexicon.transcript_comment rfl (comment_append next hr), ih,
      commentBodies_comment hr, ← Position.advance_append, ← hs, Transcript.prepend_prepend]
    rfl

/-- No digit comes first in a gap. -/
theorem isDigit_of_head?_gap_append (hg : lexicon.IsGap gap)
    (hn : ∀ c ∈ next.head?, c.isDigit = false) : ∀ c ∈ (gap ++ next).head?, c.isDigit = false := by
  cases hg with
  | nil => exact hn
  | blank hc =>
    rintro c ⟨⟩
    exact isDigit_of_isBlank hc
  | comment hr =>
    obtain ⟨c, more, rfl⟩ := Lexicon.eq_cons_of_comment hr (by simp)
    rintro _ ⟨⟩
    obtain rfl := eq_paren_of_comment hr
    rfl

theorem transcript_digits {digits : List Char} (hne : digits ≠ [])
    (hd : ∀ c ∈ digits, c.isDigit = true) (hn : ∀ c ∈ next.head?, c.isDigit = false) :
    lexicon.transcript placed glued place (digits ++ next) =
      (lexicon.transcript placed true (place.advance digits) next).prepend
        [.token (place, .count (decimalValue digits))] := by
  obtain ⟨c, tail, rfl⟩ := List.exists_cons_of_ne_nil hne
  have hc := hd c List.mem_cons_self
  have hdecimal : decimal (c :: (tail ++ next)) =
      .found (decimalValue (c :: tail)) (c :: tail) next :=
    decimal_eq_found_iff.2 ⟨(ofDigitChars_eq_decimalValue _).symm, hne, hd, hn, rfl⟩
  have hparen : c ≠ '(' := ne_of_class (p := Char.isDigit) rfl hc
  exact Lexicon.transcript_token (isBlank_of_isDigit hc) (comment_cons_eq_absent hparen)
    (Token.read_of_decimal (isLetter_of_isDigit hc) hdecimal)

end Gaps

/-! ## A counted factor -/

theorem State.readEntry_count (stop start : Position) (rules : List Rule) (pending : List String)
    (rule : RuleContext) (comments : List String) (opened : List Opened) (level : Level)
    (minuend : Option Factor) (n : Nat) :
    readEntry stop ⟨rules, pending, .within rule comments ⟨opened, level, .factor minuend⟩⟩
        (.token (start, .count n)) =
      if n < countBound then
        .ok ⟨rules, pending, .within rule comments ⟨opened, level, .star minuend n⟩⟩
      else .error ⟨.countTooLarge, start, some rule⟩ := by
  by_cases hn : n < countBound
  · simp [readEntry, Reader.advance, reader, step, Body.step, hn]
  · simp [readEntry, Reader.advance, reader, step, Body.step, hn]
    rfl

namespace Grammar

variable {before digits around behind : String}

theorem transcript_counted (hne : digits ≠ "") (hd : ∀ c ∈ digits.toList, c.isDigit = true)
    (hb : lexicon.IsGap before.toList) (ha : lexicon.IsGap around.toList)
    (hr : lexicon.IsGap behind.toList) : ∃ p q r s,
      transcript ("a =" ++ before ++ digits ++ around ++ "*" ++ behind ++ "b ;").toList =
        ⟨.token (.start, .name "a") :: .token (p, .defining) ::
          ((commentBodies before.toList).map .comment ++
          .token (Position.start.advance ("a =" ++ before).toList,
            .count (decimalValue digits.toList)) ::
          ((commentBodies around.toList).map .comment ++ .token (q, .star) ::
          ((commentBodies behind.toList).map .comment ++
          [.token (r, .name "b"), .token (s, .terminator)]))), true⟩ := by
  have hdigits : digits.toList ≠ [] := by simpa using hne
  have hstop : ∀ c ∈ (around.toList ++ '*' :: (behind.toList ++ ['b', ' ', ';'])).head?,
      c.isDigit = false :=
    isDigit_of_head?_gap_append ha (by rintro _ ⟨⟩; rfl)
  have hname (text : List Char) : lexicon.token 'a' (' ' :: '=' :: text) =
    ⟨.name "a", ['a', ' '], '=' :: text⟩ := rfl
  have hdefining (text : List Char) : lexicon.token '=' text = ⟨.defining, ['='], text⟩ := rfl
  have hstar (text : List Char) : lexicon.token '*' text = ⟨.star, ['*'], text⟩ := rfl
  have hlast : lexicon.token 'b' [' ', ';'] = ⟨.name "b", ['b', ' '], [';']⟩ := rfl
  have hterminator : lexicon.token ';' [] = ⟨.terminator, [';'], []⟩ := rfl
  have htext : ("a =" ++ before ++ digits ++ around ++ "*" ++ behind ++ "b ;").toList =
      'a' :: ' ' :: '=' :: (before.toList ++ (digits.toList ++ (around.toList ++
        '*' :: (behind.toList ++ ['b', ' ', ';'])))) := by
    simp
  rw [htext, transcript, Lexicon.transcript_token rfl rfl (hname _),
    Lexicon.transcript_token rfl rfl (hdefining _), transcript_gap_append hb,
    transcript_digits hdigits hd hstop, transcript_gap_append ha,
    Lexicon.transcript_token rfl rfl (hstar _), transcript_gap_append hr,
    Lexicon.transcript_token rfl rfl hlast, Lexicon.transcript_token rfl rfl hterminator,
    Lexicon.transcript_nil]
  have hplace : ((Position.start.advance ['a', ' ']).advance ['=']).advance before.toList =
      Position.start.advance ("a =" ++ before).toList := by
    rw [← Position.advance_append, ← Position.advance_append, String.toList_append]
    rfl
  rw [hplace]
  exact ⟨_, _, _, _, rfl⟩

/-- A count of any length is the value of its digits, unless that takes more than 64 bits. Then the
first digit is the place of the fault, whatever stands in the gap before it. -/
theorem parse_counted (hne : digits ≠ "") (hd : ∀ c ∈ digits.toList, c.isDigit = true)
    (hb : lexicon.IsGap before.toList) (ha : lexicon.IsGap around.toList)
    (hr : lexicon.IsGap behind.toList) :
    parse ("a =" ++ before ++ digits ++ around ++ "*" ++ behind ++ "b ;") =
      if decimalValue digits.toList < 2 ^ 64 then
        .ok ⟨[⟨"a", 1, [],
          [[⟨⟨commentBodies before.toList ++ commentBodies around.toList ++
              commentBodies behind.toList, some (decimalValue digits.toList), .name "b"⟩,
            none⟩]]⟩], []⟩
      else
        .error ⟨.countTooLarge,
          ⟨byteLength ("a =" ++ before).toList, 1 + lineFeeds ("a =" ++ before).toList⟩,
          some ⟨"a", 1⟩⟩ := by
  obtain ⟨p, q, r, s, ht⟩ := transcript_counted hne hd hb ha hr
  rw [parse_eq_ofTranscript, ht, ofTranscript, ← Position.start_advance, ← countBound_eq]
  generalize Position.start.advance _ = stop, decimalValue digits.toList = n
  have hname : State.readEntry stop reader.initial (.token (.start, .name "a")) =
    .ok ⟨[], [], .named ⟨"a", 1⟩⟩ := rfl
  have hdefining : State.readEntry stop ⟨[], [], .named ⟨"a", 1⟩⟩ (.token (p, .defining)) =
    .ok ⟨[], [], .within ⟨"a", 1⟩ [] ⟨[], {}, .factor none⟩⟩ := rfl
  rw [List.foldlM_cons, hname, ok_bind, List.foldlM_cons, hdefining, ok_bind, List.foldlM_append,
    State.foldlM_readEntry_comments, ok_bind, List.foldlM_cons, State.readEntry_count]
  split
  · have hstar (pending : List String) :
        State.readEntry stop ⟨[], pending, .within ⟨"a", 1⟩ [] ⟨[], {}, .star none n⟩⟩
            (.token (q, .star)) =
          .ok ⟨[], pending, .within ⟨"a", 1⟩ [] ⟨[], {}, .primary none n⟩⟩ := by
      simp [State.readEntry, Reader.advance, reader, State.step, Body.step]
    rw [ok_bind, List.foldlM_append, State.foldlM_readEntry_comments, ok_bind, List.foldlM_cons,
      hstar, ok_bind, List.foldlM_append, State.foldlM_readEntry_comments]
    simp [State.readEntry, Reader.advance, reader, State.step, Body.step, Body.atPrimary,
      Body.afterTerm, Except.map, Lead.term, Level.close, Level.endDefinition, Reader.conclude,
      State.finish]
  · rfl

/-- Before the digits a comment within a comment holds a line feed, and zeros lead the number. -/
theorem parse_counted_over_lines :
    lexicon.IsGap "\n(* é (* 1 *)\n*)".toList ∧ lexicon.IsGap " ".toList ∧
      lexicon.IsGap "(*2*)\n".toList ∧
      parse ("a =" ++ "\n(* é (* 1 *)\n*)" ++ "0018446744073709551615" ++ " " ++ "*" ++
          "(*2*)\n" ++ "b ;") =
        .ok ⟨[⟨"a", 1, [], [[⟨⟨["é (* 1 *)", "2"], some 18446744073709551615, .name "b"⟩,
          none⟩]]⟩], []⟩ ∧
      parse ("a =" ++ "\n(* é (* 1 *)\n*)" ++ "0018446744073709551616" ++ " " ++ "*" ++
          "(*2*)\n" ++ "b ;") = .error ⟨.countTooLarge, ⟨20, 3⟩, some ⟨"a", 1⟩⟩ := by
  have hnested : comment "(* é (* 1 *)\n*)".toList =
      .found "é (* 1 *)" "(* é (* 1 *)\n*)".toList [] := by with_unfolding_all rfl
  have hb : lexicon.IsGap "\n(* é (* 1 *)\n*)".toList := .blank rfl (.comment hnested .nil)
  have ha : lexicon.IsGap " ".toList := .blank rfl .nil
  have hplain : comment "(*2*)\n".toList = .found "2" "(*2*)".toList ['\n'] := by
    with_unfolding_all rfl
  have hr : lexicon.IsGap "(*2*)\n".toList := .comment hplain (.blank rfl .nil)
  refine ⟨hb, ha, hr, ?_, ?_⟩
  · rw [parse_counted (by decide) (List.all_eq_true.1 rfl) hb ha hr]
    with_unfolding_all rfl
  · rw [parse_counted (by decide) (List.all_eq_true.1 rfl) hb ha hr]
    with_unfolding_all rfl

end Grammar

end Iso

end GrammarText
