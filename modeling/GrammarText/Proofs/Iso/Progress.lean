import GrammarText.Proofs.Iso.Descent
import GrammarText.Proofs.Iso.Onward

/-!
# The descent into ISO grammars reads on

With more fuel than there are bytes left, each program of the descent comes to an answer or to a
fault, and what is read from its place on is what is read from the place that it leads to.
-/

namespace GrammarText.Iso.Descend

open GrammarText.Descent

variable {fuel : Nat} {s here : Scanner} {pending comments : List String}

/-! ## Gaps -/

section Gaps

variable {fault : Diagnostic → Prop}

theorem atComment_iff :
    s.atComment = true ↔ lexicon.comment (s.rest.dropWhile isBlank) ≠ .absent := by
  have hc : lexicon.comment (s.rest.dropWhile isBlank) = .absent ↔ _ := comment_eq_absent_iff
  rw [ne_eq, hc, not_not]
  exact afterMark?_isSome_iff

theorem hold_ends (body? : Option String) : Ends (hold body?) s pending
    (fun _ after left => after = s ∧ left = pending ++ body?.toList) fault :=
  .answered rfl (.refl s) ⟨rfl, rfl⟩

theorem gapRound_ends (h : lexicon.WithinGap s here comments) (hf : here.left < fuel) :
    Ends (gapRound fuel ()) here (pending ++ comments)
      (fun r after left => r.Holds
        (fun _ => after.left < here.left ∧ ∃ comments, lexicon.WithinGap s after comments ∧
          left = pending ++ comments)
        fun _ => lexicon.WithinGap s after comments ∧ left = pending ++ comments ∧
          lexicon.comment (after.rest.dropWhile isBlank) = .absent)
      (fun d => d = s.unterminated ∧ lexicon.gap s.rest = none) := by
  refine .scanner ?_
  split
  · next hc =>
    refine .bind .skipBlanks ?_
    rintro _ _ _ ho ⟨rfl, rfl⟩
    have hb : here.skipBlanks.rest.dropWhile isBlank = here.skipBlanks.rest :=
      List.dropWhile_idempotent isBlank here.rest
    have hs := h.skipBlanks
    have hle := ho.left_le
    have hread : ReadsComment (Descent.comment fuel) here.skipBlanks (pending ++ comments) :=
      comment_ends (by omega)
    have hstep : Ends (Descent.comment fuel) here.skipBlanks (pending ++ comments)
        (fun body? after left => left = pending ++ comments ∧ after.left < here.left ∧
          lexicon.WithinGap s after (comments ++ body?.toList))
        (fun d => d = s.unterminated ∧ lexicon.gap s.rest = none) := by
      refine hread.ends ?_ (fun ha => absurd ha (atComment_iff.1 hc)) ?_
      · intro body source rest hf
        obtain ⟨hr, hne⟩ := (comment_isSplitOf _).of_found hf
        have := (Scanner.Passes.pass hr).left_lt hne
        exact ⟨rfl, by omega, hs.comment hb hf⟩
      · intro source rest hu
        exact ⟨hs.onward.unterminated_eq, hs.gap_eq_none hb hu⟩
    refine .bind hstep ?_
    rintro body? after _ - ⟨rfl, hlt, hw⟩
    refine .bind (hold_ends body?) ?_
    rintro _ _ _ - ⟨rfl, rfl⟩
    exact .pure ⟨hlt, _, hw, List.append_assoc _ _ _⟩
  · next hc =>
    have hc : lexicon.comment (here.rest.dropWhile isBlank) = .absent := by
      simpa [atComment_iff] using hc
    exact .pure ⟨h, rfl, hc⟩

theorem gap_ends (hf : s.left < fuel) : Ends (gap fuel) s pending
    (fun _ after left => ∃ g, lexicon.gap s.rest = some g ∧ after = s.pass g.source g.rest ∧
      left = pending ++ g.comments)
    (fun d => d = s.unterminated ∧ lexicon.gap s.rest = none) := by
  have hloop : Ends (loop (gapRound fuel) fuel ()) s pending
      (fun _ after left => ∃ comments, lexicon.WithinGap s after comments ∧
        left = pending ++ comments ∧ lexicon.comment (after.rest.dropWhile isBlank) = .absent)
      (fun d => d = s.unterminated ∧ lexicon.gap s.rest = none) := by
    refine .loop (fun _ here left => ∃ comments, lexicon.WithinGap s here comments ∧
      left = pending ++ comments) ?_ ⟨[], .refl _ _, by simp⟩ hf
    rintro ⟨⟩ here _ ⟨comments, hw, rfl⟩
    have := hw.onward.left_le
    refine (gapRound_ends hw (by omega)).imp (fun r after left _ hr => ?_) fun _ hd => hd
    cases r with
    | again next => exact hr
    | leave answer => exact ⟨comments, hr⟩
  refine .bind hloop ?_
  rintro _ here _ - ⟨comments, hw, rfl, hc⟩
  refine Ends.skipBlanks.imp ?_ fun _ hd => hd
  rintro _ _ _ - ⟨rfl, rfl⟩
  have hrests : lexicon.Rests here.skipBlanks.rest :=
    ⟨List.dropWhile_idempotent isBlank here.rest, hc⟩
  obtain ⟨g, hg, hs, rfl⟩ := hw.skipBlanks.gap_eq_some hrests
  exact ⟨g, hg, hs, rfl⟩

end Gaps

/-! ## Gaps before a state -/

section Reading

variable {rules : List Rule} {place : Place} {frame : Frame} {body : Body} {level : Level}
  {opened : List Opened} {lead : Lead} {bracket : Bracket} {source rest : List Char}
  {token : Token} {marks : List (List Char)} {result : Except Diagnostic Grammar}

/-- The state reads on behind a gap as before it, and there is no gap behind a gap. -/
def BehindGap (result : Except Diagnostic Grammar) (rules : List Rule) (place : Place)
    (s : Scanner) (pending : List String) (after : Scanner) (left : List String) : Prop :=
  lexicon.Rests after.rest ∧ State.readOn ⟨rules, left, place⟩ after = result ∧
    (lexicon.Rests s.rest → after = s ∧ left = pending)

theorem gap_reads (hf : s.left < fuel) (h : State.readOn ⟨rules, pending, place⟩ s = result) :
    Ends (gap fuel) s pending (fun _ => BehindGap result rules place s pending)
      (fun d => d = s.unterminated ∧
        result = .error { d with rule := State.rule? ⟨rules, pending, place⟩ }) := by
  refine (gap_ends hf).imp ?_ ?_
  · rintro _ _ _ - ⟨g, hg, rfl, rfl⟩
    refine ⟨Lexicon.rests_of_gap hg, (State.readOn_of_gap hg).symm.trans h, fun hr => ?_⟩
    cases hr.gap_eq.symm.trans hg
    simp [Scanner.pass, Position.advance_nil]
  · rintro d ⟨rfl, hg⟩
    exact ⟨rfl, h.symm.trans (State.readOn_of_gap_eq_none hg)⟩

/-- The fault ends the reading of a right side, once it is told in which rule it lies. -/
def Faults (frame : Frame) (result : Except Diagnostic Grammar) (d : Diagnostic) : Prop :=
  result = .error (d.inRule frame.rule)

theorem gap_within (hf : s.left < fuel) (h : frame.readOn body pending s = result) :
    Ends (gap fuel) s pending (fun _ after left => lexicon.Rests after.rest ∧
      frame.readOn body left after = result ∧
        (lexicon.Rests s.rest → after = s ∧ left = pending)) (Faults frame result) := by
  refine (gap_reads hf h).imp (fun _ _ _ _ h => h) ?_
  rintro _ ⟨rfl, h⟩
  exact h

/-! ## Marks -/

section Marks

variable {α : Type} {x y : Descent (List String) α} {fault : Diagnostic → Prop}

theorem ifMark_ends {answer : α → Scanner → List String → Prop} (ht : token.SpelledBy marks)
    (hfound : ∀ mark rest, Next s ⟨token, mark, rest⟩ →
      Ends x (s.pass mark rest) pending answer fault)
    (hmissing : Lacks s token → Ends y s pending answer fault) :
    Ends (eatOne marks >>= fun b => if b then x else y) s pending answer fault :=
  .ifEatOne (fun _ hm _ hs => hfound _ _ (ht.next hm hs)) fun hn => hmissing (ht.lacks hn)

theorem requireMark_ends {answer : Unit → Scanner → List String → Prop} {missing : Fault}
    (ht : token.SpelledBy marks)
    (hfound : ∀ mark rest, Next s ⟨token, mark, rest⟩ → answer () (s.pass mark rest) pending)
    (hmissing : Lacks s token → fault (s.expected missing)) :
    Ends (require marks missing) s pending answer fault :=
  ifMark_ends ht (fun mark rest hn => .pure (hfound mark rest hn)) fun hn => .fail (hmissing hn)

theorem spelledBy_star : Token.star.SpelledBy [['*']] := ⟨rfl, by decide, by decide⟩

theorem spelledBy_minus : Token.minus.SpelledBy [['-']] := ⟨rfl, by decide, by decide⟩

theorem spelledBy_comma : Token.comma.SpelledBy [[',']] := ⟨rfl, by decide, by decide⟩

theorem spelledBy_defining : Token.defining.SpelledBy [['=']] := ⟨rfl, by decide, by decide⟩

theorem spelledBy_terminator : Token.terminator.SpelledBy [[';'], ['.']] :=
  ⟨rfl, by decide, by decide⟩

theorem spelledBy_closings (bracket : Bracket) :
    (Token.closing bracket).SpelledBy (closings bracket) := by
  cases bracket <;> exact ⟨rfl, by decide, by decide⟩

end Marks

/-! ## Opening brackets and separators -/

theorem next_of_opening (h : opening? s.rest = some bracket) :
    ∃ source rest, Next s ⟨.opening bracket, source, rest⟩ := by
  unfold opening? at h
  split at h <;> cases h
  case h_5 more hslash hcolon hs =>
    have hm : Token.ofMark '(' more = ⟨.opening .grouped, ['('], more⟩ := by
      unfold Token.ofMark
      split <;> simp_all
    exact ⟨_, _, '(', more, hs, (Token.read_eq_ofMark rfl rfl rfl (by decide)).trans hm⟩
  all_goals
    next hs => exact ⟨_, _, _, _, hs, rfl⟩

theorem opening?_append {mark : List Char} (h : mark ∈ openings bracket) (rest : List Char) :
    opening? (mark ++ rest) ≠ none := by
  cases bracket <;> simp only [openings, List.mem_cons, List.not_mem_nil, or_false] at h
  · rcases h with rfl | rfl <;> simp [opening?]
  · rcases h with rfl | rfl <;> simp [opening?]
  · subst h
    rw [List.singleton_append, opening?.eq_def]
    split <;> simp_all

theorem mem_openings_iff {mark : List Char} :
    mark ∈ openings bracket ↔ (mark, .opening bracket) ∈ spellings := by
  cases bracket <;> simp [openings, spellings]

theorem lacks_opening (h : opening? s.rest = none) : Lacks s (.opening bracket) := by
  rintro piece hn hp
  have hm := mem_openings_iff.2 (hp ▸ hn.spelled (by rw [hp]; rfl))
  rw [hn.rest_eq] at h
  exact opening?_append hm piece.rest h

/-- No spelling of a bracket is the beginning of another one. -/
theorem eq_of_mem_openings {mark mark' rest' : List Char} (h : mark ∈ openings bracket)
    (h' : mark' ∈ openings bracket) (hs : mark ++ rest = mark' ++ rest') :
    mark = mark' ∧ rest = rest' := by
  cases bracket <;> simp only [openings, List.mem_cons, List.not_mem_nil, or_false] at h h'
  · rcases h with rfl | rfl <;> rcases h' with rfl | rfl <;> simp_all
  · rcases h with rfl | rfl <;> rcases h' with rfl | rfl <;> simp_all
  · subst h h'
    simpa using hs

theorem openings_ends {fault : Diagnostic → Prop} (hn : Next s ⟨.opening bracket, source, rest⟩) :
    Ends (eatOne (openings bracket)) s pending
      (fun _ after left => after = s.pass source rest ∧ left = pending) fault := by
  have hm := mem_openings_iff.2 (hn.spelled rfl)
  have hs := hn.rest_eq
  refine .eatOne (fun mark hmark rest' hs' => ?_) fun hmissing =>
    absurd ⟨rest, hs.symm⟩ (hmissing _ hm)
  obtain ⟨rfl, rfl⟩ : mark = source ∧ rest' = rest :=
    eq_of_mem_openings hmark hm (hs'.symm.trans hs)
  exact ⟨rfl, rfl⟩

theorem next_of_separator (h : atSeparator s.rest = true) :
    ∃ c rest, Next s ⟨.separator, [c], rest⟩ := by
  unfold atSeparator at h
  split at h
  · next hs => exact ⟨_, _, _, _, hs, rfl⟩
  · next hs => exact ⟨_, _, _, _, hs, rfl⟩
  · next more hs =>
    have hm : Token.ofMark '/' more = ⟨.separator, ['/'], more⟩ := by
      unfold Token.ofMark
      split <;> simp_all
    exact ⟨_, _, '/', more, hs, (Token.read_eq_ofMark rfl rfl rfl (by decide)).trans hm⟩
  · cases h

theorem lacks_separator (h : atSeparator s.rest = false) : Lacks s .separator := by
  rintro piece ⟨c, more, hs, ht⟩ hp
  rw [hs] at h
  cases Token.reads ht with
  | mark _ _ _ _ hm =>
    subst hm
    unfold Token.ofMark at hp
    split at hp <;> cases hp
    · cases h
    · cases h
    · next hno =>
      obtain ⟨tail, rfl⟩ : ∃ tail, more = ')' :: tail := by
        cases more <;> simp_all [atSeparator]
      exact hno _ rfl
  | _ => cases hp

/-! ## Primaries -/

/-- The count of the lead, if it has none, does not come next. -/
def Counted (lead : Lead) (s : Scanner) : Prop := lead.count = none → ∀ n, Lacks s (.count n)

/-- A token that starts no primary comes after an empty one. -/
theorem step_slot_of_empty (hc : lead.count = none → ∀ n, token ≠ .count n)
    (ho : ∀ bracket, token ≠ .opening bracket) (hl : token.leaf? = none) (hu : token ≠ .unclosed) :
    Body.step ⟨opened, level, lead.slot⟩ lead.comments token =
      Body.step ⟨opened, level, .term (lead.term .empty)⟩ [] token := by
  have hslot : Body.step ⟨opened, level, lead.slot⟩ lead.comments token =
      (Body.atPrimary ⟨opened, level, lead.slot⟩ lead token).map (Prod.mk []) := by
    cases hn : lead.count with
    | none => exact step_slot (hc hn)
    | some n =>
      obtain ⟨minuend, comments, count⟩ := lead
      cases hn
      rfl
  rw [hslot]
  cases token with
  | opening bracket => exact absurd rfl (ho bracket)
  | name | terminal | special => cases hl
  | unclosed => exact absurd rfl hu
  | _ => rfl

theorem faults_of_unclosed (hr : lexicon.Rests s.rest) (hn : Next s ⟨.unclosed, source, rest⟩)
    (h : frame.readOn ⟨opened, level, lead.slot⟩ lead.comments s = result) :
    Faults frame result s.unterminated :=
  h.symm.trans (Frame.readOn_of_unclosed hr hn (step_slot (by simp)))

theorem leaf_ends (hr : lexicon.Rests s.rest) (hc : Counted lead s) (ho : opening? s.rest = none)
    (h : frame.readOn ⟨opened, level, lead.slot⟩ lead.comments s = result) :
    Ends leaf s [] (fun primary after left =>
      frame.readOn ⟨opened, level, .term (lead.term primary)⟩ left after = result)
      (Faults frame result) := by
  refine .read (specialSequence_isSplitOf _) ?_ (fun hspecial => ?_) ?_
  · intro text source rest hf
    exact .pure (Frame.readOn_of_partly hr (next_of_specialSequence hf) (.leaf rfl) h)
  · refine .read (quotedText_isSplitOf _) ?_ (fun hquoted => ?_) ?_
    · intro text source rest hf
      exact .pure (Frame.readOn_of_partly hr (next_of_quotedText hf) (.leaf rfl) h)
    · refine .read (metaName_isSplitOf _) ?_ (fun hname => ?_) (by simp)
      · intro text source rest hf
        exact .pure (Frame.readOn_of_partly hr (next_of_metaName hf) (.leaf rfl) h)
      · refine .pure (h ▸ (Frame.readOn_congr hr fun piece hn => ?_).symm)
        obtain ⟨hl, hu⟩ := hn.leaf?_eq_none hname hquoted hspecial
        exact step_slot_of_empty (fun hl n => hc hl n piece hn)
          (fun _ => lacks_opening ho piece hn) hl hu
    · intro source rest hu
      exact faults_of_unclosed hr (next_of_quotedText_unclosed hu) h
  · intro source rest hu
    exact faults_of_unclosed hr (next_of_specialSequence_unclosed hu) h

/-! ## Lists of definitions -/

/-- Nothing that comes next goes on with a list of definitions of which `term` is the last one. -/
structure Settled (term : Term) (s : Scanner) : Prop where
  rests : lexicon.Rests s.rest
  no_minus : term.exception = none → Lacks s .minus
  no_comma : Lacks s .comma
  no_separator : Lacks s .separator

/-- What a descent that reads a list of definitions comes to, whatever stands around the list. -/
def ReadsDefinitions (x : Descent (List String) DefinitionsList) (s : Scanner) : Prop :=
  ∀ {frame : Frame} {opened : List Opened} {pending : List String}
    {result : Except Diagnostic Grammar},
    frame.readOn ⟨opened, {}, .factor none⟩ pending s = result →
      Ends x s pending (fun definitions after left => ∃ level term, Settled term after ∧
        definitions = level.close term ∧
          frame.readOn ⟨opened, level, .term term⟩ left after = result) (Faults frame result)

/-- A token that cannot follow the last term is a fault. -/
theorem step_term_eq_unfinished {term : Term} (hm : term.exception = none → token ≠ .minus)
    (hc : token ≠ .comma) (hs : token ≠ .separator)
    (hclosing : ∀ top ∈ opened.head?, token ≠ .closing top.bracket)
    (hend : opened = [] → token ≠ .terminator) :
    Body.step ⟨opened, level, .term term⟩ pending token =
      .error (Body.unfinished ⟨opened, level, .term term⟩) := by
  cases token with
  | minus =>
    obtain ⟨factor, _ | exception⟩ := term
    · exact absurd rfl (hm rfl)
    · rfl
  | comma => exact absurd rfl hc
  | separator => exact absurd rfl hs
  | closing bracket =>
    cases opened with
    | nil => rfl
    | cons top opened =>
      have hb : bracket ≠ top.bracket := fun hb => hclosing top rfl (by rw [hb])
      simp [Body.step, Body.afterTerm, hb, Except.map]
  | terminator =>
    cases opened with
    | nil => exact absurd rfl (hend rfl)
    | cons => rfl
  | _ => rfl

theorem Settled.faults {term : Term} (ht : Settled term s)
    (hclosing : ∀ top ∈ opened.head?, Lacks s (.closing top.bracket))
    (hend : opened = [] → Lacks s .terminator)
    (h : frame.readOn ⟨opened, level, .term term⟩ pending s = result) :
    Faults frame result (s.expected (Body.unfinished ⟨opened, level, .term term⟩)) := by
  have hne : Body.unfinished ⟨opened, level, .term term⟩ ≠ .unexpectedEnd := by
    cases opened <;> simp [Body.unfinished]
  refine h.symm.trans (Frame.readOn_eq_expected ht.rests hne fun piece hn => ?_)
  exact step_term_eq_unfinished (fun he => ht.no_minus he piece hn) (ht.no_comma piece hn)
    (ht.no_separator piece hn) (fun top htop => hclosing top htop piece hn)
    (fun ho => hend ho piece hn)

section Nested

variable {nested : Descent (List String) DefinitionsList} {start : Scanner}

theorem sequence_ends (hnested : ∀ s, s.left < start.left → ReadsDefinitions nested s)
    (hs : s.left ≤ start.left) (hf : start.left < fuel) (hr : lexicon.Rests s.rest)
    (hn : Next s ⟨.opening bracket, source, rest⟩)
    (h : frame.readOn ⟨opened, level, lead.slot⟩ lead.comments s = result) :
    Ends (sequence nested fuel bracket) s [] (fun primary after left =>
      frame.readOn ⟨opened, level, .term (lead.term primary)⟩ left after = result)
      (Faults frame result) := by
  refine .bind (openings_ends hn) ?_
  rintro _ _ _ ho ⟨rfl, rfl⟩
  have hlt := hn.left_lt
  refine .bind (hnested _ (by omega)
    (Frame.readOn_of_partly hr hn .opening h)) ?_
  rintro _ here kept ho' ⟨inner, term, hend, rfl, hread⟩
  have hle := ho'.left_le
  refine .bind (gap_within (by omega) hread) ?_
  rintro _ after left - ⟨-, -, hstay⟩
  obtain ⟨rfl, rfl⟩ := hstay hend.rests
  have hclose : Ends (require (closings bracket) (.expectedClosing bracket.closers)) after left
      (fun _ after left => frame.readOn
        ⟨opened, level, .term (lead.term (.sequence bracket (inner.close term)))⟩ left after =
          result) (Faults frame result) := by
    refine requireMark_ends (spelledBy_closings bracket) (fun mark rest hn => ?_) fun hl => ?_
    · exact Frame.readOn_of_partly hend.rests hn .closing hread
    · exact hend.faults (by simpa using hl) (by simp) hread
  exact .bind hclose fun _ _ _ _ h => .pure h

theorem primary_ends (hnested : ∀ s, s.left < start.left → ReadsDefinitions nested s)
    (hs : s.left ≤ start.left) (hf : start.left < fuel) (hr : lexicon.Rests s.rest)
    (hc : Counted lead s)
    (h : frame.readOn ⟨opened, level, lead.slot⟩ lead.comments s = result) :
    Ends (primary nested fuel) s [] (fun primary after left =>
      frame.readOn ⟨opened, level, .term (lead.term primary)⟩ left after = result)
      (Faults frame result) := by
  refine .scanner ?_
  split
  · next bracket ho =>
    obtain ⟨source, rest, hn⟩ := next_of_opening ho
    exact sequence_ends hnested hs hf hr hn h
  · next ho => exact leaf_ends hr hc ho h

/-! ## Factors and terms -/

/-- What may come next before a factor whose count has been read. -/
def afterCount (minuend : Option Factor) : Option Nat → Slot
  | none => .factor minuend
  | some n => .star minuend n

theorem count_ends {minuend : Option Factor} (hr : lexicon.Rests s.rest)
    (h : frame.readOn ⟨opened, level, .factor minuend⟩ pending s = result) :
    Ends (attempt Scanner.count) s pending (fun count after left =>
      frame.readOn ⟨opened, level, afterCount minuend count⟩ left after = result ∧
        (count = none → lexicon.Rests after.rest ∧ ∀ n, Lacks after (.count n)))
      (Faults frame result) := by
  refine .count (fun n source rest hd hn => ⟨?_, by simp⟩)
    (fun hd => ⟨h, fun _ => ⟨hr, fun _ => lacks_count hd⟩⟩) fun n source rest hd hn => ?_
  · exact Frame.readOn_of_partly hr (next_of_decimal hd) (.count hn) h
  · exact h.symm.trans (Frame.readOn_of_fault hr (next_of_decimal hd) (by simp) (if_neg hn))

theorem step_star_eq_error {minuend : Option Factor} {n : Nat} (h : token ≠ .star) :
    Body.step ⟨opened, level, .star minuend n⟩ pending token = .error .expectedRepetition := by
  cases token with
  | star => exact absurd rfl h
  | _ => rfl

theorem starAfter_ends {minuend : Option Factor} {count : Option Nat} (hf : s.left < fuel)
    (hn : count = none → lexicon.Rests s.rest ∧ ∀ n, Lacks s (.count n))
    (h : frame.readOn ⟨opened, level, afterCount minuend count⟩ pending s = result) :
    Ends (starAfter fuel count) s pending (fun _ after left => lexicon.Rests after.rest ∧
      Counted ⟨minuend, left, count⟩ after ∧
        frame.readOn ⟨opened, level, Lead.slot ⟨minuend, left, count⟩⟩ left after = result)
      (Faults frame result) := by
  cases count with
  | none => exact .pure ⟨(hn rfl).1, fun _ => (hn rfl).2, h⟩
  | some n =>
    refine .bind (gap_within hf h) ?_
    rintro _ here kept ho ⟨hr, hread, -⟩
    have hstar : Ends (require [['*']] .expectedRepetition) here kept (fun _ after left =>
        frame.readOn ⟨opened, level, .primary minuend n⟩ left after = result)
        (Faults frame result) := by
      refine requireMark_ends spelledBy_star (fun mark rest hn => ?_) fun hl => ?_
      · exact Frame.readOn_of_partly hr hn .star hread
      · exact hread.symm.trans (Frame.readOn_eq_expected hr (by simp) fun piece hn =>
          step_star_eq_error (hl piece hn))
    refine .bind hstar ?_
    rintro _ here' kept' ho' hread
    have := (ho.trans ho').left_le
    refine (gap_within (by omega) hread).imp ?_ fun _ hd => hd
    rintro _ after left - ⟨hr, hread, -⟩
    exact ⟨hr, by simp [Counted], hread⟩

theorem takeComments_ends {fault : Diagnostic → Prop} : Ends takeComments s pending
    (fun comments after left => comments = pending ∧ after = s ∧ left = []) fault :=
  .answered rfl (.refl s) ⟨rfl, rfl, rfl⟩

/-- The term of which the given factor is the last. -/
def termWith (minuend : Option Factor) (factor : Factor) : Term :=
  match minuend with
  | none => ⟨factor, none⟩
  | some first => ⟨first, some factor⟩

theorem factor_ends {minuend : Option Factor}
    (hnested : ∀ s, s.left < start.left → ReadsDefinitions nested s)
    (hs : s.left ≤ start.left) (hf : start.left < fuel)
    (h : frame.readOn ⟨opened, level, .factor minuend⟩ pending s = result) :
    Ends (factor nested fuel) s pending (fun factor after left =>
      frame.readOn ⟨opened, level, .term (termWith minuend factor)⟩ left after = result)
      (Faults frame result) := by
  refine .bind (gap_within (by omega) h) ?_
  rintro _ here kept ho ⟨hr, hread, -⟩
  refine .bind (count_ends hr hread) ?_
  rintro count here' kept' ho' ⟨hread, hn⟩
  have := (ho.trans ho').left_le
  refine .bind (starAfter_ends (by omega) hn hread) ?_
  rintro _ here'' comments ho'' ⟨hr, hc, hread⟩
  have := ho''.left_le
  refine .bind takeComments_ends ?_
  rintro _ _ _ - ⟨rfl, rfl, rfl⟩
  refine .bind (primary_ends hnested (by omega) hf hr hc hread) ?_
  rintro primary after left - hread
  exact .pure hread

/-- What comes after a term does not go on with it. -/
def Ended (term : Term) (s : Scanner) : Prop :=
  term.exception = none → lexicon.Rests s.rest ∧ Lacks s .minus

theorem term_ends (hnested : ∀ s, s.left < start.left → ReadsDefinitions nested s)
    (hs : s.left ≤ start.left) (hf : start.left < fuel)
    (h : frame.readOn ⟨opened, level, .factor none⟩ pending s = result) :
    Ends (term nested fuel) s pending (fun term after left => Ended term after ∧
      frame.readOn ⟨opened, level, .term term⟩ left after = result) (Faults frame result) := by
  refine .bind (factor_ends hnested hs hf h) ?_
  rintro first here kept ho hread
  have := ho.left_le
  refine .bind (gap_within (by omega) hread) ?_
  rintro _ here' kept' ho' ⟨hr, hread, -⟩
  have := ho'.left_le
  refine ifMark_ends spelledBy_minus (fun mark rest hn => ?_) fun hl =>
    .pure ⟨fun _ => ⟨hr, hl⟩, hread⟩
  have := hn.left_lt
  refine .bind (factor_ends hnested (by omega) hf
    (Frame.readOn_of_partly hr hn .minus hread)) ?_
  rintro exception after left - hread
  exact .pure ⟨by simp [Ended], hread⟩

/-! ## Definitions -/

/-- The terms of a definition have been read up to the last one, and it is known what the text is
read to from there. -/
def ReadsTerms (frame : Frame) (opened : List Opened) (earlier : List Definition)
    (result : Except Diagnostic Grammar) (terms : List Term) (s : Scanner)
    (pending : List String) : Prop :=
  ∃ last before, Ended last s ∧ terms = (last :: before).reverse ∧
    frame.readOn ⟨opened, ⟨earlier, before⟩, .term last⟩ pending s = result

theorem definitionRound_ends {earlier : List Definition} {terms : List Term}
    (hnested : ∀ s, s.left < start.left → ReadsDefinitions nested s)
    (hs : s.left ≤ start.left) (hf : start.left < fuel)
    (h : ReadsTerms frame opened earlier result terms s pending) :
    Ends (definitionRound nested fuel terms) s pending
      (fun r after left => r.Holds
        (fun next => after.left < s.left ∧ ReadsTerms frame opened earlier result next after left)
        fun definition => ReadsTerms frame opened earlier result definition after left ∧
          lexicon.Rests after.rest ∧ Lacks after .comma)
      (Faults frame result) := by
  obtain ⟨last, before, hend, rfl, hread⟩ := h
  refine .bind (gap_within (by omega) hread) ?_
  rintro _ here kept ho ⟨hr, hread, hstay⟩
  have := ho.left_le
  refine ifMark_ends spelledBy_comma (fun mark rest hn => ?_) fun hl =>
    .pure ⟨⟨last, before, fun he => ?_, rfl, hread⟩, hr, hl⟩
  · have := hn.left_lt
    refine .bind (term_ends hnested (by omega) hf
      (Frame.readOn_of_partly hr hn .comma hread)) ?_
    rintro next after left ho ⟨hend, hread⟩
    have := ho.left_le
    exact .pure ⟨by omega, next, last :: before, hend, by simp, hread⟩
  · obtain ⟨rfl, -⟩ := hstay (hend he).1
    exact hend he

theorem definition_ends {earlier : List Definition}
    (hnested : ∀ s, s.left < start.left → ReadsDefinitions nested s)
    (hs : s.left ≤ start.left) (hf : start.left < fuel)
    (h : frame.readOn ⟨opened, ⟨earlier, []⟩, .factor none⟩ pending s = result) :
    Ends (definition nested fuel) s pending (fun definition after left =>
      ReadsTerms frame opened earlier result definition after left ∧
        lexicon.Rests after.rest ∧ Lacks after .comma) (Faults frame result) := by
  refine .bind (term_ends hnested hs hf h) ?_
  rintro first here kept ho ⟨hend, hread⟩
  have := ho.left_le
  refine .loop (fun terms here left => here.left ≤ start.left ∧
    ReadsTerms frame opened earlier result terms here left) ?_
    ⟨by omega, first, [], hend, rfl, hread⟩ (by omega)
  rintro terms here kept ⟨hs, hterms⟩
  refine (definitionRound_ends hnested hs hf hterms).imp (fun r after left _ hr => ?_)
    fun _ hd => hd
  cases r with
  | again next => exact ⟨hr.1, by have := hr.1; omega, hr.2⟩
  | leave definition => exact hr

/-- The definitions of a list have been read up to the last one, and it is known what the text is
read to from there. -/
def ReadsList (frame : Frame) (opened : List Opened) (result : Except Diagnostic Grammar)
    (definitions : List Definition) (s : Scanner) (pending : List String) : Prop :=
  ∃ definition earlier, ReadsTerms frame opened earlier result definition s pending ∧
    lexicon.Rests s.rest ∧ Lacks s .comma ∧ definitions = (definition :: earlier).reverse

theorem definitionsRound_ends {definitions : List Definition}
    (hnested : ∀ s, s.left < start.left → ReadsDefinitions nested s)
    (hs : s.left ≤ start.left) (hf : start.left < fuel)
    (h : ReadsList frame opened result definitions s pending) :
    Ends (definitionsRound nested fuel definitions) s pending
      (fun r after left => r.Holds
        (fun next => after.left < s.left ∧ ReadsList frame opened result next after left)
        fun list => ReadsList frame opened result list after left ∧ Lacks after .separator)
      (Faults frame result) := by
  obtain ⟨definition, earlier, ⟨last, before, hend, rfl, hread⟩, hr, hcomma, rfl⟩ := h
  refine .bind (gap_within (by omega) hread) ?_
  rintro _ here kept - ⟨-, -, hstay⟩
  obtain ⟨rfl, rfl⟩ := hstay hr
  refine .scanner ?_
  split
  · next hsep =>
    obtain ⟨c, rest, hn⟩ := next_of_separator hsep
    have hbump : Ends (act Scanner.bump) here kept
        (fun _ after left => after = here.pass [c] rest ∧ left = kept) (Faults frame result) := by
      refine .bump (fun d more hs => ?_) fun hs => ?_ <;> rw [hn.rest_eq] at hs <;> cases hs
      exact ⟨rfl, rfl⟩
    refine .bind hbump ?_
    rintro _ _ _ - ⟨rfl, rfl⟩
    have := hn.left_lt
    refine .bind (definition_ends hnested (by omega) hf
      (Frame.readOn_of_partly hr hn .separator hread)) ?_
    rintro next after left ho ⟨hterms, hr, hcomma⟩
    have := ho.left_le
    exact .pure ⟨by omega, next, _ :: earlier, hterms, hr, hcomma, by simp⟩
  · next hsep =>
    exact .pure ⟨⟨_, earlier, ⟨last, before, hend, rfl, hread⟩, hr, hcomma, rfl⟩,
      lacks_separator (by simpa using hsep)⟩

theorem definitionsWith_ends (hnested : ∀ s, s.left < start.left → ReadsDefinitions nested s)
    (hs : s.left ≤ start.left) (hf : start.left < fuel) :
    ReadsDefinitions (definitionsWith nested fuel) s := by
  intro frame opened pending result h
  refine .bind (definition_ends hnested hs hf h) ?_
  rintro first here kept ho ⟨hterms, hr, hcomma⟩
  have := ho.left_le
  refine .loop (fun definitions here left => here.left ≤ start.left ∧
    ReadsList frame opened result definitions here left) ?_
    ⟨by omega, first, [], hterms, hr, hcomma, rfl⟩ (by omega)
  rintro definitions here kept ⟨hs, hlist⟩
  refine (definitionsRound_ends hnested hs hf hlist).imp (fun r after left _ hr => ?_)
    fun _ hd => hd
  cases r with
  | again next => exact ⟨hr.1, by have := hr.1; omega, hr.2⟩
  | leave list =>
    obtain ⟨⟨_, earlier, ⟨last, before, hend, rfl, hread⟩, hr, hcomma, rfl⟩, hsep⟩ := hr
    exact ⟨⟨earlier, before⟩, last, ⟨hr, fun he => (hend he).2, hcomma, hsep⟩, rfl, hread⟩

end Nested

theorem definitionsList_ends (hf : s.left < fuel) : ReadsDefinitions (definitionsList fuel) s := by
  induction fuel generalizing s with
  | zero => omega
  | succ fuel ih =>
    have hnested (s' : Scanner) (hs' : s'.left < s.left) :
        ReadsDefinitions (beyond s (definitionsList fuel)) s' := by
      intro frame opened pending result h
      exact .beyond hs' (ih (by omega) h)
    intro frame opened pending result h
    exact .scanner (definitionsWith_ends hnested (Nat.le_refl _) hf h)

/-! ## Rules -/

theorem gap_between (hf : s.left < fuel)
    (h : State.readOn ⟨rules, pending, .between⟩ s = result) :
    Ends (gap fuel) s pending (fun _ => BehindGap result rules .between s pending)
      (fun d => result = .error d) := by
  refine (gap_reads hf h).imp (fun _ _ _ _ hg => hg) ?_
  rintro _ ⟨rfl, h⟩
  exact h

theorem step_named_eq_error {rule : RuleContext} {here : Position} (h : token ≠ .defining) :
    State.step ⟨rules, pending, .named rule⟩ ⟨[], true, here, token⟩ =
      .error .expectedDefining := by
  cases token with
  | defining => exact absurd rfl h
  | _ => rfl

theorem step_between_eq_error {here : Position} (h : ∀ name, token ≠ .name name) :
    State.step ⟨rules, pending, .between⟩ ⟨[], true, here, token⟩ = .error .expectedName := by
  cases token with
  | name text => exact absurd rfl (h text)
  | _ => rfl

theorem ruleBody_ends {rule : RuleContext} (hf : s.left < fuel)
    (h : State.readOn ⟨rules, pending, .named rule⟩ s = result) :
    Ends (ruleBody fuel rule) s pending
      (fun next after left => State.readOn ⟨next :: rules, left, .between⟩ after = result)
      (fun d => result = .error (d.inRule rule)) := by
  have hgap : Ends (gap fuel) s pending (fun _ => BehindGap result rules (.named rule) s pending)
      (fun d => result = .error (d.inRule rule)) := by
    refine (gap_reads hf h).imp (fun _ _ _ _ hg => hg) ?_
    rintro _ ⟨rfl, h⟩
    exact h
  refine .bind hgap ?_
  rintro _ _ _ ho ⟨hr, hread, -⟩
  refine .bind takeComments_ends ?_
  rintro comments here _ - ⟨rfl, rfl, rfl⟩
  have := ho.left_le
  have hdefining : Ends (require [['=']] .expectedDefining) here [] (fun _ after left =>
      Frame.readOn ⟨rules, rule, comments⟩ ⟨[], {}, .factor none⟩ left after = result)
      (Faults ⟨rules, rule, comments⟩ result) := by
    refine requireMark_ends spelledBy_defining (fun mark rest hn => ?_) fun hl => ?_
    · exact (State.readOn_of_step hr hn (by simp [State.step])).symm.trans hread
    · refine hread.symm.trans (State.readOn_eq_expected hr (by simp) (fun _ => rfl)
        fun piece hn => ?_)
      exact step_named_eq_error (hl piece hn)
  refine .bind hdefining ?_
  rintro _ here' kept' ho' hread
  have := ho'.left_le
  refine .bind (definitionsList_ends (by omega) hread) ?_
  rintro _ _ _ ho'' ⟨level, last, hend, rfl, hread⟩
  have := ho''.left_le
  refine .bind (gap_within (by omega) hread) ?_
  rintro _ here'' kept'' - ⟨-, -, hstay⟩
  obtain ⟨rfl, rfl⟩ := hstay hend.rests
  have hterminator : Ends (require [[';'], ['.']] .expectedTerminator) here'' kept''
      (fun _ after left => State.readOn
        ⟨⟨rule.name, rule.line, comments, level.close last⟩ :: rules, left, .between⟩ after =
          result) (Faults ⟨rules, rule, comments⟩ result) := by
    refine requireMark_ends spelledBy_terminator (fun mark rest hn => ?_) fun hl => ?_
    · exact Frame.readOn_of_whole hend.rests hn .terminator hread
    · exact hend.faults (by simp) (fun _ => hl) hread
  exact .bind hterminator fun _ _ _ _ h => .pure h

theorem rule_ends (hf : s.left < fuel)
    (hmore : rules = [] ∨ lexicon.Rests s.rest ∧ s.rest ≠ [])
    (h : State.readOn ⟨rules, pending, .between⟩ s = result) :
    Ends (rule fuel) s pending (fun next after left => after.left < s.left ∧
      State.readOn ⟨next :: rules, left, .between⟩ after = result)
      (fun d => result = .error d) := by
  refine .bind (gap_between hf h) ?_
  rintro _ here kept ho ⟨hr, hread, hstay⟩
  have := ho.left_le
  refine .scanner (.read (metaName_isSplitOf _) ?_ (fun hname => .fail ?_) (by simp))
  · intro name source rest hf
    have hn := next_of_metaName hf
    have := hn.left_lt
    have hstep : State.step ⟨rules, kept, .between⟩ ⟨[], true, here.position, .name name⟩ =
        .ok ⟨rules, kept, .named ⟨name, here.position.line⟩⟩ := by
      simp [State.step]
    have hnext : State.readOn ⟨rules, kept, .named ⟨name, here.position.line⟩⟩
        (here.pass source rest) = result := (State.readOn_of_step hr hn hstep).symm.trans hread
    refine .inRule ((ruleBody_ends (by omega) hnext).imp ?_ fun _ hd => hd)
    rintro next after left ho hread
    have := ho.left_le
    exact ⟨by omega, hread⟩
  · refine hread.symm.trans (State.readOn_eq_expected hr (by simp) (fun he => ?_)
      fun piece hn => step_between_eq_error fun name => lacks_name hname piece hn)
    rcases hmore with rfl | ⟨hrests, hne⟩
    · rfl
    · obtain ⟨rfl, -⟩ := hstay hrests
      exact absurd he hne

theorem grammarRound_ends {rules : List Rule} (hf : s.left < fuel) (hrules : rules ≠ [])
    (h : State.readOn ⟨rules.reverse, pending, .between⟩ s = result) :
    Ends (grammarRound fuel rules) s pending (fun r after left => r.Holds
      (fun next => after.left < s.left ∧ next ≠ [] ∧
        State.readOn ⟨next.reverse, left, .between⟩ after = result)
      fun rules => rules ≠ [] ∧ State.readOn ⟨rules.reverse, left, .between⟩ after = result ∧
        after.rest = [])
      (fun d => result = .error d) := by
  refine .bind (gap_between hf h) ?_
  rintro _ here kept ho ⟨hr, hread, -⟩
  have := ho.left_le
  refine .scanner ?_
  split
  · next he => exact .pure ⟨hrules, hread, by simpa [Scanner.isAtEnd] using he⟩
  · next he =>
    have hne : here.rest ≠ [] := by simpa [Scanner.isAtEnd] using he
    refine .bind (rule_ends (by omega) (.inr ⟨hr, hne⟩) hread) ?_
    rintro next after left - ⟨hlt, hread⟩
    exact .pure ⟨by omega, by simp, by simpa using hread⟩

/-- With more fuel than there are bytes left, the descent comes to what is read from the state
before the first rule. If that is a grammar, it has passed the whole text. -/
theorem grammar_ends (hf : s.left < fuel)
    (h : State.readOn ⟨[], pending, .between⟩ s = result) :
    Ends (grammar fuel) s pending
      (fun grammar after left => result = .ok grammar ∧ after.rest = [] ∧ left = [])
      (fun d => result = .error d) := by
  refine .bind (gap_between hf h) ?_
  rintro _ here kept ho ⟨hr, hread, -⟩
  have := ho.left_le
  refine .bind (rule_ends (by omega) (.inl rfl) hread) ?_
  rintro first here' kept' - ⟨hlt, hread⟩
  have hloop : Ends (loop (grammarRound fuel) fuel [first]) here' kept'
      (fun rules after left => rules ≠ [] ∧
        State.readOn ⟨rules.reverse, left, .between⟩ after = result ∧ after.rest = [])
      (fun d => result = .error d) := by
    refine .loop (fun rules here left => here.left < fuel ∧ rules ≠ [] ∧
      State.readOn ⟨rules.reverse, left, .between⟩ here = result) ?_
      ⟨by omega, by simp, hread⟩ (by omega)
    rintro rules here left ⟨hf, hrules, hread⟩
    refine (grammarRound_ends hf hrules hread).imp (fun r after left _ hr => ?_) fun _ hd => hd
    cases r with
    | again next => exact ⟨hr.1, by have := hr.1; omega, hr.2⟩
    | leave rules => exact hr
  refine .bind hloop ?_
  rintro rules _ _ - ⟨hrules, hread, hend⟩
  refine .bind takeComments_ends ?_
  rintro comments after _ - ⟨rfl, rfl, rfl⟩
  have hfinish : State.finish ⟨rules.reverse, comments, .between⟩ [] = some ⟨rules, comments⟩ :=
    State.finish_eq_some_iff.2 ⟨rfl, by simpa using hrules, by simp⟩
  rw [State.readOn_of_end hend, hfinish] at hread
  exact .pure ⟨hread.symm, hend, rfl⟩

end Reading

end GrammarText.Iso.Descend
