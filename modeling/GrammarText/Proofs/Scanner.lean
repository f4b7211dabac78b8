import GrammarText.Scanner.Action
import GrammarText.Proofs.Lexis.Location

/-!
# A scanner keeps its place

Whatever is done with a scanner, it stands between two characters of its text, and its offset and
its line are those of that place. An operation passes a part of the text or leaves the scanner where
it was.
-/

namespace GrammarText

theorem byteLength_pos {text : List Char} (h : text ≠ []) : 0 < byteLength text := by
  cases text with
  | nil => exact absurd rfl h
  | cons c more =>
    have := c.utf8Size_pos
    simp only [byteLength]
    omega

namespace Scanner

variable {s after last : Scanner} {source rest : List Char}

/-! ## Passing a part of the text -/

/-- On the way from `s` to `after` the text `source` is passed. -/
structure Passes (s : Scanner) (source : List Char) (after : Scanner) : Prop where
  text : after.text = s.text
  rest : s.rest = source ++ after.rest
  position : after.position = s.position.advance source

namespace Passes

theorem refl (s : Scanner) : s.Passes [] s := ⟨rfl, rfl, rfl⟩

theorem pass (h : s.rest = source ++ rest) : s.Passes source (s.pass source rest) := ⟨rfl, h, rfl⟩

theorem le (h : s.Passes source after) : s.position ≤ after.position := by
  rw [h.position]
  exact s.position.le_advance source

theorem offset_lt (h : s.Passes source after) (hs : source ≠ []) :
    s.position.offset < after.position.offset := by
  have := byteLength_pos hs
  rw [h.position, Position.advance]
  exact Nat.lt_add_of_pos_right this

end Passes

/-! ## One operation -/

/-- The answer is that nothing is there. -/
def Answer.isDenial : Answer → Bool
  | .nothing | .truth false => true
  | _ => false

/-- The answer is a construct. -/
def Answer.isConstruct : Answer → Bool
  | .text _ | .number _ | .truth true => true
  | _ => false

/-- An operation that tells `answer` passes a part of the text, and none if nothing is there. -/
structure Leads (s : Scanner) (answer : Answer) (after : Scanner) : Prop where
  passes : ∃ source, s.Passes source after
  unmoved : answer.isDenial → after = s

/-- An operation that also passes at least one character of each construct. -/
structure Consumes (s : Scanner) (answer : Answer) (after : Scanner) : Prop
    extends Leads s answer after where
  onward : answer.isConstruct → s.position.offset < after.position.offset

theorem Leads.stay (s : Scanner) (answer : Answer) : s.Leads answer s :=
  ⟨⟨[], .refl s⟩, fun _ => rfl⟩

theorem bump_leads (s : Scanner) :
    s.Leads (.ofText? (s.bump.1.map fun c => [c])) s.bump.2 := by
  unfold bump
  split
  · exact .stay s _
  · next c more h => exact ⟨⟨[c], .pass h⟩, fun hd => absurd hd Bool.false_ne_true⟩

theorem eat_leads (s : Scanner) (mark : List Char) (answer : Bool → Answer)
    (ha : (answer true).isDenial = false) : s.Leads (answer (s.eat mark).1) (s.eat mark).2 := by
  unfold eat
  split
  · next rest h => exact ⟨⟨mark, .pass (eq_append_of_afterMark? h)⟩, by simp [ha]⟩
  · exact .stay s _

theorem readWhile_passes (s : Scanner) (p : Char → Bool) :
    s.Passes (s.rest.takeWhile p) (s.readWhile p).2 :=
  .pass List.takeWhile_append_dropWhile.symm

theorem readUntil_leads (s : Scanner) (mark : List Char) :
    s.Leads (.ofText? (s.readUntil mark).1) (s.readUntil mark).2 := by
  unfold readUntil
  split
  · next before rest h =>
    have hr := eq_append_of_splitAround? h
    rw [List.append_assoc] at hr
    exact ⟨⟨before, .pass hr⟩, (nomatch ·)⟩
  · exact .stay s _

section Constructs

variable {α : Type} {recogniser : List Char → Recognition α} {answer : α → Answer}

/-- A construct is passed whole. One that never ends is passed as far as the search for its end
went. -/
theorem recognise_consumes (hr : (recogniser s.rest).IsSplitOf s.rest)
    (ha : ∀ value, (answer value).isDenial = false) :
    s.Consumes (.ofExcept answer (s.recognise recogniser).1) (s.recognise recogniser).2 := by
  unfold recognise
  split
  · next value source rest h =>
    obtain ⟨hs, hne⟩ := hr.of_found h
    have hp : s.Passes source (s.pass source rest) := .pass hs
    exact ⟨⟨⟨source, hp⟩, by simp [Answer.ofExcept, ha]⟩, fun _ => hp.offset_lt hne⟩
  · exact ⟨.stay s _, (nomatch ·)⟩
  · next source rest h =>
    exact ⟨⟨⟨source, .pass (hr.of_unclosed h).1⟩, (nomatch ·)⟩, (nomatch ·)⟩

end Constructs

theorem count_consumes (s : Scanner) :
    s.Consumes (.ofExcept .number s.count.1) s.count.2 := by
  have hr : s.Consumes (.ofExcept .number (s.recognise decimal).1) (s.recognise decimal).2 :=
    recognise_consumes (decimal_isSplitOf s.rest) fun _ => rfl
  unfold count
  split
  · next n last h =>
    rw [h] at hr
    split
    · exact hr
    · exact ⟨⟨hr.passes, (nomatch ·)⟩, (nomatch ·)⟩
  · exact hr

namespace Action

/-- Reads a construct of either notation. -/
def isConsuming : Action → Bool
  | metaName | word | count | terminal | special | comment | blockComment => true
  | _ => false

theorem blockComment_consumes (s : Scanner) :
    s.Consumes (perform s blockComment).1 (perform s blockComment).2 := by
  have hr : s.Consumes (.ofExcept (fun _ => .truth true)
      (s.recognise GrammarText.blockComment).1) (s.recognise GrammarText.blockComment).2 :=
    recognise_consumes (blockComment_isSplitOf s.rest) fun _ => rfl
  simp only [perform]
  split
  · next found last h =>
    rw [h] at hr
    cases found with
    | none => exact ⟨⟨hr.passes, fun _ => hr.unmoved rfl⟩, (nomatch ·)⟩
    | some body => exact ⟨⟨hr.passes, (nomatch ·)⟩, fun _ => hr.onward rfl⟩
  · next d last h =>
    rw [h] at hr
    exact ⟨⟨hr.passes, (nomatch ·)⟩, (nomatch ·)⟩

theorem perform_consumes (s : Scanner) {action : Action} (h : action.isConsuming) :
    s.Consumes (action.perform s).1 (action.perform s).2 := by
  cases action with
  | metaName => exact recognise_consumes (metaName_isSplitOf s.rest) fun _ => rfl
  | word => exact recognise_consumes (word_isSplitOf s.rest) fun _ => rfl
  | count => exact s.count_consumes
  | terminal => exact recognise_consumes (quotedText_isSplitOf s.rest) fun _ => rfl
  | special => exact recognise_consumes (specialSequence_isSplitOf s.rest) fun _ => rfl
  | comment => exact recognise_consumes (comment_isSplitOf s.rest) fun _ => rfl
  | blockComment => exact blockComment_consumes s
  | _ => cases h

/-- Blanks are passed without an answer. -/
theorem perform_leads (s : Scanner) {action : Action} (h : action ≠ skipBlanks) :
    s.Leads (action.perform s).1 (action.perform s).2 := by
  cases action with
  | offset | line | rest | isAtEnd | peek | peekSecond | startsWith | slice | diagnose | expected
  | unterminated | atComment | speculate => exact .stay s _
  | bump => exact s.bump_leads
  | eat mark => exact s.eat_leads mark.toList .truth rfl
  | skipBlanks => exact absurd rfl h
  | readMark mark =>
    exact s.eat_leads mark.toList (fun there => if there then .text mark else .nothing) rfl
  | readUntil mark => exact s.readUntil_leads mark.toList
  | readDigits => exact (recognise_consumes (run_isSplitOf _ s.rest) fun _ => rfl).toLeads
  | readNone characters => exact ⟨⟨_, s.readWhile_passes _⟩, (nomatch ·)⟩
  | metaName | word | count | terminal | special | comment | blockComment =>
    exact (perform_consumes s rfl).toLeads

theorem perform_passes (s : Scanner) (action : Action) :
    ∃ source, s.Passes source (action.perform s).2 := by
  by_cases h : action = skipBlanks
  · subst h
    exact ⟨_, s.readWhile_passes isBlank⟩
  · exact (perform_leads s h).passes

end Action

/-! ## Programs -/

/-- The scanner stands between two characters of `text`, at the offset and on the line of that
place. -/
structure StandsIn (s : Scanner) (text : List Char) : Prop where
  text_eq : s.text = text
  split : ∃ before, text = before ++ s.rest ∧ s.position.offset = byteLength before ∧
    s.position.line = 1 + lineFeeds before

theorem ofText_standsIn (text : String) : (ofText text).StandsIn text.toList :=
  ⟨rfl, [], rfl, rfl, rfl⟩

theorem StandsIn.of_passes {text : List Char} (h : s.StandsIn text) (hp : s.Passes source after) :
    after.StandsIn text := by
  obtain ⟨before, hs, ho, hl⟩ := h.split
  refine ⟨hp.text.trans h.text_eq, before ++ source, ?_, ?_, ?_⟩
  · rw [hs, hp.rest, List.append_assoc]
  · rw [hp.position, Position.advance, ho, byteLength_append]
  · rw [hp.position, Position.advance, hl, lineFeeds_append, Nat.add_assoc]

theorem StandsIn.offset_le {text : List Char} (h : s.StandsIn text) :
    s.position.offset ≤ byteLength text := by
  obtain ⟨before, hs, ho, -⟩ := h.split
  rw [hs, ho, byteLength_append]
  exact Nat.le_add_right _ _

namespace Action

variable {text : List Char} {program : List Action} {action : Action}

/-- In the course of a program that starts at `s` an action is performed at a place, perhaps within
something that is returned from. -/
inductive Occurs : Scanner → List Action → Scanner → Action → Prop where
  | here (s : Scanner) (action : Action) (more : List Action) : Occurs s (action :: more) s action
  | later {s place : Scanner} {first action : Action} {more : List Action} :
    Occurs (first.perform s).2 more place action → Occurs s (first :: more) place action
  | within {s place : Scanner} {inner more : List Action} {action : Action} :
    Occurs s inner place action → Occurs s (.speculate inner :: more) place action

theorem Occurs.standsIn (h : Occurs s program after action) (hs : s.StandsIn text) :
    after.StandsIn text := by
  induction h with
  | here => exact hs
  | @later s place first action more _ ih =>
    obtain ⟨source, hp⟩ := first.perform_passes s
    exact ih (hs.of_passes hp)
  | within _ ih => exact ih hs

theorem standsIn_performAll : {s : Scanner} → (program : List Action) → s.StandsIn text →
    (performAll s program).2.StandsIn text
  | _, [], h => h
  | s, first :: more, h => by
    obtain ⟨source, hp⟩ := perform_passes s first
    rw [performAll]
    exact standsIn_performAll more (h.of_passes hp)

theorem le_of_mem_performAll {step : Answer × Position} :
    {s : Scanner} → (program : List Action) → step ∈ (performAll s program).1 →
    s.position ≤ step.2
  | s, first :: more, h => by
    obtain ⟨source, hp⟩ := perform_passes s first
    rw [performAll] at h
    obtain rfl | h := List.mem_cons.1 h
    · exact hp.le
    · exact Position.le_trans hp.le (le_of_mem_performAll more h)

/-- No step of a program leads back. -/
theorem pairwise_performAll : (s : Scanner) → (program : List Action) →
    (performAll s program).1.Pairwise fun first next => first.2 ≤ next.2
  | _, [] => .nil
  | s, first :: more => by
    rw [performAll]
    exact .cons (fun step h => le_of_mem_performAll more h) (pairwise_performAll _ more)

/-- What holds of the scanner when the action is performed at `s`, and of the way there. -/
structure KeepsPlace (text : List Char) (s : Scanner) (action : Action) : Prop where
  standsIn : (action.perform s).2.StandsIn text
  offset_le : (action.perform s).2.position.offset ≤ byteLength text
  le : s.position.offset ≤ (action.perform s).2.position.offset
  /-- A speculation returns, whatever is done in it. -/
  returned : ∀ inner, action = .speculate inner → (action.perform s).2 = s
  looked : action = .atComment → (action.perform s).2 = s
  /-- Nothing is passed where nothing is found; that blanks are skipped is no finding. -/
  unmoved : action ≠ .skipBlanks → (action.perform s).1.isDenial → (action.perform s).2 = s
  onward : action.isConsuming → (action.perform s).1.isConstruct →
    s.position.offset < (action.perform s).2.position.offset

theorem keepsPlace_of_standsIn (action : Action) (hs : s.StandsIn text) :
    action.KeepsPlace text s := by
  obtain ⟨source, hp⟩ := perform_passes s action
  have ha := hs.of_passes hp
  refine ⟨ha, ha.offset_le, hp.le.1, ?_, ?_, fun hb => (perform_leads s hb).unmoved,
    fun hc => (perform_consumes s hc).onward⟩
  · rintro inner rfl
    rfl
  · rintro rfl
    rfl

/-- Throughout every program each action keeps the place, and no step leads back. -/
theorem keepsPlace_of_occurs (text : String) (program : List Action) :
    (∀ place action, Occurs (ofText text) program place action →
        action.KeepsPlace text.toList place) ∧
      (performAll (ofText text) program).2.StandsIn text.toList ∧
      (performAll (ofText text) program).1.Pairwise
        fun first next => first.2.offset ≤ next.2.offset :=
  ⟨fun _ action h => keepsPlace_of_standsIn action (h.standsIn (ofText_standsIn text)),
    standsIn_performAll program (ofText_standsIn text),
    (pairwise_performAll (ofText text) program).imp And.left⟩

def beforeComment : Scanner := ⟨"é\n(* a *)'x".toList, "(* a *)'x".toList, ⟨3, 2⟩⟩

def behindComment : Scanner := ⟨"é\n(* a *)'x".toList, "'x".toList, ⟨10, 2⟩⟩

/-- Within a speculation a comment is passed on the second line, and a terminal is begun behind it
that never ends. -/
theorem keepsPlace_of_occurs_unclosed :
    (Occurs (ofText "é\n(* a *)'x") [.bump, .speculate [.skipBlanks, .comment, .terminal]]
        beforeComment .comment ∧
      KeepsPlace "é\n(* a *)'x".toList beforeComment .comment ∧
      perform beforeComment .comment = (.text "a", behindComment) ∧
      beforeComment.position.offset < (perform beforeComment .comment).2.position.offset) ∧
    Occurs (ofText "é\n(* a *)'x") [.bump, .speculate [.skipBlanks, .comment, .terminal]]
        behindComment .terminal ∧
      KeepsPlace "é\n(* a *)'x".toList behindComment .terminal ∧
      (perform behindComment .terminal).1 = .fault ⟨.unexpectedEnd, ⟨12, 2⟩, none⟩ := by
  have hp : perform beforeComment .comment = (.text "a", behindComment) := by
    with_unfolding_all rfl
  have hc : Occurs (ofText "é\n(* a *)'x") [.bump, .speculate [.skipBlanks, .comment, .terminal]]
      beforeComment .comment := .later (.within (.later (.here _ _ _)))
  have ht : Occurs (ofText "é\n(* a *)'x") [.bump, .speculate [.skipBlanks, .comment, .terminal]]
      behindComment .terminal := by
    have hs : behindComment = (perform beforeComment .comment).2 := by rw [hp]
    rw [hs]
    exact .later (.within (.later (.later (.here _ _ _))))
  have hk := (keepsPlace_of_occurs _ _).1 _ _ hc
  have honward := hk.onward rfl (by rw [hp]; rfl)
  exact ⟨⟨hc, hk, hp, honward⟩, ht, (keepsPlace_of_occurs _ _).1 _ _ ht, rfl⟩

end Action

end Scanner

end GrammarText
