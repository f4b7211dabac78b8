import GrammarText.Proofs.Iso.Progress
import GrammarText.Proofs.W3c.Progress

/-!
# Reading makes progress

The descents into grammars and comments are watched: they stall where a round of a loop passes
nothing or a call is made with no less text left. With more fuel than the text has bytes they never
do, and they come to what the text is parsed to.
-/

namespace GrammarText

namespace Descent

variable {κ α : Type}

/-- The descent neither stalls nor runs out of fuel. -/
def Progresses (x : Descent κ α) (s : Scanner) (kept : κ) : Prop :=
  x (s, kept) ≠ .error .stalled ∧ x (s, kept) ≠ .error .exhausted

/-- What a descent comes to that reads a text: it passes the whole text, or it finds a fault. -/
def settled (text : String) (left : κ) : Except Diagnostic α → Except Halt (α × Scanner × κ)
  | .ok a => .ok (a, (Scanner.ofText text).pass text.toList [], left)
  | .error d => .error (.fault d)

variable {x : Descent κ α} {s : Scanner} {text : String} {kept left : κ}
  {result : Except Diagnostic α}

theorem Ends.progresses {answer : α → Scanner → κ → Prop} {fault : Diagnostic → Prop}
    (h : x.Ends s kept answer fault) : x.Progresses s kept := by
  cases h with
  | answered hx => simp [Progresses, hx]
  | failed hx => simp [Progresses, hx]

theorem Ends.eq_settled (h : x.Ends (.ofText text) kept
    (fun a after left' => result = .ok a ∧ after.rest = [] ∧ left' = left)
    (fun d => result = .error d)) : x (.ofText text, kept) = settled text left result := by
  cases h with
  | answered hx ho h =>
    obtain ⟨rfl, hr, rfl⟩ := h
    cases ho.eq_pass_of_rest_eq_nil hr
    exact hx
  | failed hx h => rw [hx, h, settled]

end Descent

/-- With more fuel than a text has bytes, no round of a loop that reads it passes nothing, and no
call within a bracket, a parenthesis or a comment is made with no less text left. What is read is
what the text is parsed to, and if that is a grammar the whole text has been passed. -/
theorem descents_progress (text : String) (fuel : Nat) (h : byteLength text.toList < fuel) :
    (∀ s, (Scanner.ofText text).Onward s →
      (Descent.comment fuel).Progresses s () ∧
        Descent.comment fuel (s, ()) = Descent.attempt (·.recognise comment) (s, ())) ∧
    ((Iso.Descend.grammar fuel).Progresses (.ofText text) [] ∧
      Iso.Descend.grammar fuel (.ofText text, []) =
        Descent.settled text [] (Iso.Grammar.parse text)) ∧
    (W3c.Descend.grammar fuel).Progresses (.ofText text) () ∧
      W3c.Descend.grammar fuel (.ofText text, ()) =
        Descent.settled text () (W3c.Grammar.parse text) := by
  have hiso := Iso.Descend.grammar_ends h (Iso.Grammar.parse_eq_readOn text).symm
  have hw3c := W3c.Descend.grammar_ends h (W3c.Grammar.parse_eq_readOn text).symm
  refine ⟨fun s hs => ?_, ⟨hiso.progresses, hiso.eq_settled⟩, hw3c.progresses, ?_⟩
  · have hc : Descent.ReadsComment (Descent.comment fuel) s () :=
      Descent.comment_ends (Nat.lt_of_le_of_lt hs.left_le h)
    exact ⟨hc.progresses, hc.eq_attempt⟩
  · exact (hw3c.imp (fun _ _ _ _ hg => ⟨hg.1, hg.2, rfl⟩) fun _ hd => hd).eq_settled

theorem descents_progress_through_nesting :
    byteLength "a = (* (* x *) *) 2 * [ b ] ;".toList < 30 ∧
      (∀ s, (Scanner.ofText "a = (* (* x *) *) 2 * [ b ] ;").Onward s →
        (Descent.comment 30).Progresses s () ∧
          Descent.comment 30 (s, ()) = Descent.attempt (·.recognise comment) (s, ())) ∧
      ((Iso.Descend.grammar 30).Progresses (.ofText "a = (* (* x *) *) 2 * [ b ] ;") [] ∧
        Iso.Descend.grammar 30 (.ofText "a = (* (* x *) *) 2 * [ b ] ;", []) =
          Descent.settled "a = (* (* x *) *) 2 * [ b ] ;" []
            (Iso.Grammar.parse "a = (* (* x *) *) 2 * [ b ] ;")) ∧
      (W3c.Descend.grammar 30).Progresses (.ofText "a = (* (* x *) *) 2 * [ b ] ;") () ∧
        W3c.Descend.grammar 30 (.ofText "a = (* (* x *) *) 2 * [ b ] ;", ()) =
          Descent.settled "a = (* (* x *) *) 2 * [ b ] ;" ()
            (W3c.Grammar.parse "a = (* (* x *) *) 2 * [ b ] ;") :=
  ⟨by decide, descents_progress "a = (* (* x *) *) 2 * [ b ] ;" 30 (by decide)⟩

/-- One call is not enough for a comment within a comment. -/
example : Descent.comment 1 (.ofText "(* (* *) *)", ()) = .error .exhausted := by
  rfl

end GrammarText
