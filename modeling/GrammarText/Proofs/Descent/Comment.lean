import GrammarText.Proofs.Descent.Basic
import GrammarText.Proofs.Lexis.CommentPieces

/-!
# A descent into comments

A comment is read by a loop through its body that calls itself for each comment within. It finds
what the search with a depth finds.
-/

namespace GrammarText

/-- The text between `start` and the scanner. -/
def Scanner.since (s start : Scanner) : List Char :=
  start.rest.take (start.rest.length - s.rest.length)

namespace Descent

variable {κ : Type}

/-- Tells whether a construct is there, and passes it. -/
def isThere {α : Type} (x : Descent κ (Option α)) : Descent κ Bool := do
  return (← x).isSome

/-- Passes a part of the body of a comment: a comment within it, a passage or a character. -/
def commentPart (nested : Descent κ (Option String)) : Descent κ Bool :=
  anyOf [isThere nested, isThere (attempt (·.recognise quotedText)),
    isThere (attempt (·.recognise specialSequence)), isThere (act Scanner.bump)]

/-- A round within the body of a comment, which began at `start`. -/
def commentRound (nested : Descent κ (Option String)) (start : Scanner) (_ : Unit) :
    Descent κ (Round Unit (Option String)) := do
  let here ← scanner
  if ← eatOne [['*', ')']] then
    return .leave (some (String.ofList (trim (here.since start))))
  else if ← commentPart nested then
    return .again ()
  else
    fail Scanner.unterminated

/-- Reads a comment, if one comes next. -/
def comment : Nat → Descent κ (Option String)
  | 0 => halt .exhausted
  | fuel + 1 => do
    let opening ← scanner
    if ← eatOne [['(', '*']] then
      let start ← scanner
      loop (commentRound (beyond opening (comment fuel)) start) (fuel + 1) ()
    else
      return none

end Descent

/-! ## Parts of a comment -/

section Parts

variable {depth : Nat} {c : Char} {text source rest : List Char} {value : String}

theorem comment_eq_absent_iff : comment text = .absent ↔ ¬ ['(', '*'] <+: text := by
  unfold comment
  split
  · next more =>
    have hp : ['(', '*'] <+: '(' :: '*' :: more := ⟨more, rfl⟩
    cases commentEnd 0 more <;> simp [hp]
  · next h =>
    simp only [true_iff]
    rintro ⟨more, hr⟩
    exact h more hr.symm

theorem commentEnd_of_comment (h : comment text = .found value source rest) :
    commentEnd depth text = (commentEnd depth rest).after source := by
  unfold comment at h
  split at h
  · next more =>
    split at h
    · next body rest he =>
      cases h
      obtain ⟨rfl, hp⟩ := commentEnd_eq_closed_iff.1 he
      have hc := (CommentPiece.comment hp).commentEnd_append depth
      simpa using hc
    · cases h
  · cases h

/-- If a comment within a comment never ends, nor does the one around it. -/
theorem commentEnd_ne_closed_of_comment (h : comment text = .unclosed source rest)
    (body after : List Char) : commentEnd depth text ≠ .closed body after := by
  intro he
  unfold comment at h
  split at h
  · next more =>
    rw [commentEnd] at he
    obtain ⟨inner, hi, -⟩ := CommentEnd.after_eq_closed he
    have hmore := commentEnd_split (depth + 1) more
    rw [hi] at hmore
    obtain ⟨first, outer, rfl, hp, -⟩ := closesComments_of_commentEnd hi
    rw [commentEnd_eq_closed_iff.2 ⟨by simpa using hmore, hp⟩] at h
    cases h
  · cases h

/-- So it is with a passage that never ends. -/
theorem commentEnd_ne_closed_of_passage (h : passage text = .unclosed source rest)
    (body after : List Char) : commentEnd depth text ≠ .closed body after := by
  cases text with
  | nil => cases h
  | cons c text =>
    have hne (d : Char) (hd : isPassageMark d = false) : c ≠ d := by
      rintro rfl
      rw [passage_eq_absent_iff.2 hd] at h
      cases h
    rw [commentEnd.eq_def]
    split
    · next h' => cases h'
    · next h' => cases h'; exact absurd rfl (hne '*' rfl)
    · next h' => cases h'; exact absurd rfl (hne '(' rfl)
    · next h' =>
      cases h'
      split <;> simp_all

theorem commentEnd_of_passage_found (h : passage text = .found value source rest) :
    commentEnd depth text = (commentEnd depth rest).after source := by
  cases text with
  | nil => cases h
  | cons c text => exact commentEnd_of_passage h

theorem passage_of_quotedText_unclosed (h : quotedText text = .unclosed source rest) :
    passage text = .unclosed source rest := by
  rw [passage, h]
  rfl

theorem passage_of_quotedText_absent (h : quotedText text = .absent) :
    passage text = specialSequence text := by
  rw [passage, h]
  rfl

end Parts

/-! ## The loop -/

namespace Descent

variable {κ : Type} {s start : Scanner} {kept : κ}

namespace Ends

variable {fault : Diagnostic → Prop}

theorem isThere {α : Type} {x : Descent κ (Option α)} {answer : Bool → Scanner → κ → Prop}
    (h : Ends x s kept (fun a after left => answer a.isSome after left) fault) :
    Ends (isThere x) s kept answer fault :=
  .bind h fun _ _ _ _ ha => .pure ha

end Ends

/-- On the way from `start` through the body of a comment a text has been passed that does not end
the comment. -/
def WithinComment (start s : Scanner) : Prop :=
  ∃ source, start.Passes source s ∧
    commentEnd 0 start.rest = (commentEnd 0 s.rest).after source

/-- The comment whose body starts at `start` has been found: its value, and the place behind it. -/
def FindsComment (start : Scanner) (value : Option String) (after : Scanner) : Prop :=
  ∃ body rest, commentEnd 0 start.rest = .closed body rest ∧
    value = some (String.ofList (trim body)) ∧ after = start.pass (body ++ ['*', ')']) rest

/-- The comment whose body starts at `start` never ends. -/
def NeverEnds (start : Scanner) (d : Diagnostic) : Prop :=
  d = start.unterminated ∧ ∀ body rest, commentEnd 0 start.rest ≠ .closed body rest

namespace WithinComment

variable {source rest : List Char}

theorem refl (start : Scanner) : WithinComment start start :=
  ⟨[], .refl start, (CommentEnd.after_nil _).symm⟩

theorem onward (h : WithinComment start s) : start.Onward s :=
  let ⟨_, hp, _⟩ := h
  ⟨_, hp⟩

theorem pass (h : WithinComment start s) (hr : s.rest = source ++ rest)
    (he : commentEnd 0 s.rest = (commentEnd 0 rest).after source) :
    WithinComment start (s.pass source rest) := by
  obtain ⟨passed, hp, hc⟩ := h
  exact ⟨passed ++ source, hp.trans (.pass hr), by rw [hc, he, CommentEnd.after_after]; rfl⟩

theorem finds (h : WithinComment start s) (hr : s.rest = ['*', ')'] ++ rest) :
    FindsComment start (some (String.ofList (trim (s.since start)))) (s.pass ['*', ')'] rest) := by
  obtain ⟨body, hp, hc⟩ := h
  have hsince : s.since start = body := by
    rw [Scanner.since, hp.rest]
    simp
  have hpass : s.pass ['*', ')'] rest = start.pass (body ++ ['*', ')']) rest := by
    rw [Scanner.pass, Scanner.pass, hp.position, Position.advance_append, hp.text]
  refine ⟨body, rest, ?_, by rw [hsince], hpass⟩
  rw [hc, hr, List.cons_append, List.cons_append, commentEnd]
  simp [CommentEnd.after]

theorem neverEnds (h : WithinComment start s)
    (he : ∀ body rest, commentEnd 0 s.rest ≠ .closed body rest) :
    NeverEnds start s.unterminated := by
  refine ⟨h.onward.unterminated_eq, fun body rest hb => ?_⟩
  obtain ⟨source, -, hc⟩ := h
  obtain ⟨inner, hi, -⟩ := CommentEnd.after_eq_closed (hc ▸ hb)
  exact he inner rest hi

end WithinComment

/-- What a descent that reads a comment comes to. -/
def ReadsComment (x : Descent κ (Option String)) (s : Scanner) (kept : κ) : Prop :=
  x.Ends s kept
    (fun value after left => s.recognise GrammarText.comment = (.ok value, after) ∧ left = kept)
    fun d => (s.recognise GrammarText.comment).1 = .error d

theorem ReadsComment.eq_attempt {x : Descent κ (Option String)} (h : ReadsComment x s kept) :
    x (s, kept) = attempt (·.recognise GrammarText.comment) (s, kept) := by
  cases h with
  | answered hx _ h => rw [hx, attempt, h.1, h.2]
  | failed hx h =>
    rcases hr : s.recognise GrammarText.comment with ⟨answer, after⟩
    rw [hr] at h
    subst h
    rw [hx, attempt, hr]

/-- A caller needs to know what is recognised. -/
theorem ReadsComment.ends {x : Descent κ (Option String)}
    {answer : Option String → Scanner → κ → Prop} {fault : Diagnostic → Prop}
    (h : ReadsComment x s kept)
    (hfound : ∀ value source rest, GrammarText.comment s.rest = .found value source rest →
      answer (some value) (s.pass source rest) kept)
    (habsent : GrammarText.comment s.rest = .absent → answer none s kept)
    (hunclosed : ∀ source rest, GrammarText.comment s.rest = .unclosed source rest →
      fault s.unterminated) : x.Ends s kept answer fault := by
  refine h.imp ?_ ?_
  · rintro value after left - ⟨hr, rfl⟩
    unfold Scanner.recognise at hr
    split at hr
    · next hc => cases hr; exact hfound _ _ _ hc
    · next hc => cases hr; exact habsent hc
    · cases hr
  · intro d hd
    unfold Scanner.recognise at hd
    split at hd
    · cases hd
    · cases hd
    · next hc => cases hd; exact hunclosed _ _ hc

theorem commentPart_ends {opening : Scanner} {nested : Descent κ (Option String)}
    (hnested : ∀ s, s.left < opening.left → ReadsComment nested s kept)
    (hs : WithinComment start s) (ho : start.left < opening.left)
    (hclose : ¬ ['*', ')'] <+: s.rest) :
    Ends (commentPart (beyond opening nested)) s kept
      (fun found after left =>
        if found then after.left < s.left ∧ WithinComment start after ∧ left = kept
        else NeverEnds start after.unterminated)
      (NeverEnds start) := by
  have hpass {source rest : List Char} (hr : s.rest = source ++ rest ∧ source ≠ [])
      (he : commentEnd 0 s.rest = (commentEnd 0 rest).after source) :
      (s.pass source rest).left < s.left ∧ WithinComment start (s.pass source rest) ∧
        kept = kept :=
    ⟨(Scanner.Passes.pass hr.1).left_lt hr.2, hs.pass hr.1 he, rfl⟩
  have hleft : s.left < opening.left := Nat.lt_of_le_of_lt hs.onward.left_le ho
  refine .anyOf (.isThere (.beyond hleft ((hnested s hleft).ends ?_ (fun hcomment => ?_) ?_)))
  · intro value source rest h
    exact hpass ((comment_isSplitOf _).of_found h) (commentEnd_of_comment h)
  · refine .anyOf (.isThere (.recognise (quotedText_isSplitOf _) ?_ (fun hquoted => ?_) ?_))
    · intro value source rest h
      exact hpass ((quotedText_isSplitOf _).of_found h)
        (commentEnd_of_passage_found (passage_of_quotedText h))
    · have hpassage := passage_of_quotedText_absent hquoted
      refine .anyOf (.isThere (.recognise (specialSequence_isSplitOf _) ?_ (fun hspecial => ?_) ?_))
      · intro value source rest h
        exact hpass ((specialSequence_isSplitOf _).of_found h)
          (commentEnd_of_passage_found (passage_of_specialSequence h))
      · refine .anyOf (.isThere (.bump (fun c rest hr => ?_) fun hr => ?_))
        · refine hpass ⟨hr, by simp⟩ ?_
          rw [hr] at hcomment hspecial hpassage hclose ⊢
          refine commentEnd_of_absent (hpassage.trans hspecial) ?_ ?_
          · rintro more rfl rfl
            exact hclose ⟨more, rfl⟩
          · rintro more rfl rfl
            exact comment_cons_eq_absent_iff.1 hcomment ⟨rfl, rfl⟩
        · refine .pure (hs.neverEnds fun body rest he => ?_)
          rw [hr, commentEnd] at he
          cases he
      · intro source rest h
        exact hs.neverEnds (commentEnd_ne_closed_of_passage (hpassage.trans h))
    · intro source rest h
      exact hs.neverEnds
        (commentEnd_ne_closed_of_passage (passage_of_quotedText_unclosed h))
  · intro source rest h
    exact hs.neverEnds (commentEnd_ne_closed_of_comment h)

theorem commentRound_ends {opening : Scanner} {nested : Descent κ (Option String)}
    (hnested : ∀ s, s.left < opening.left → ReadsComment nested s kept)
    (hs : WithinComment start s) (ho : start.left < opening.left) :
    Ends (commentRound (beyond opening nested) start ()) s kept
      (fun r after left =>
        r.Holds (fun _ => after.left < s.left ∧ WithinComment start after ∧ left = kept)
          fun value => FindsComment start value after ∧ left = kept)
      (NeverEnds start) := by
  refine .scanner (.ifEatOne ?_ fun hclose => ?_)
  · simp only [List.mem_singleton, forall_eq]
    intro rest hr
    exact .pure ⟨hs.finds hr, rfl⟩
  · refine .bind (commentPart_ends hnested hs ho (hclose _ (by simp)))
      fun found after left _ h => ?_
    cases found with
    | true => exact .pure h
    | false => exact .fail h

theorem FindsComment.recognise_eq {rest : List Char} {value : Option String} {after : Scanner}
    (hr : s.rest = ['(', '*'] ++ rest) (h : FindsComment (s.pass ['(', '*'] rest) value after) :
    s.recognise GrammarText.comment = (.ok value, after) := by
  obtain ⟨body, behind, he, rfl, rfl⟩ := h
  have hc : GrammarText.comment s.rest =
      .found (String.ofList (trim body)) ('(' :: '*' :: body ++ ['*', ')']) behind := by
    rw [hr, List.cons_append, List.cons_append, List.nil_append, GrammarText.comment]
    change commentEnd 0 rest = _ at he
    rw [he]
  have hp : s.position.advance ('(' :: '*' :: body ++ ['*', ')']) =
      (s.position.advance ['(', '*']).advance (body ++ ['*', ')']) := by
    rw [← Position.advance_append]
    rfl
  rw [Scanner.recognise, hc]
  simp only [Scanner.pass, hp]

theorem NeverEnds.recognise_eq {rest : List Char} {d : Diagnostic}
    (hr : s.rest = ['(', '*'] ++ rest) (h : NeverEnds (s.pass ['(', '*'] rest) d) :
    (s.recognise GrammarText.comment).1 = .error d := by
  obtain ⟨rfl, hn⟩ := h
  have ho : s.Onward (s.pass ['(', '*'] rest) := ⟨_, .pass hr⟩
  rw [ho.unterminated_eq, Scanner.recognise, hr, List.cons_append, List.cons_append,
    List.nil_append, GrammarText.comment]
  cases he : commentEnd 0 rest with
  | closed body behind => exact absurd he (hn body behind)
  | unclosed source behind => rfl

/-- With more fuel than there are bytes left, a comment is read as it is recognised. -/
theorem comment_ends {fuel : Nat} (h : s.left < fuel) : ReadsComment (comment fuel) s kept := by
  induction fuel generalizing s with
  | zero => omega
  | succ fuel ih =>
    refine .scanner (.ifEatOne ?_ fun hn => ?_)
    · simp only [List.mem_singleton, forall_eq]
      intro rest hr
      refine .scanner ?_
      obtain ⟨start, hstart⟩ : ∃ start, start = s.pass ['(', '*'] rest := ⟨_, rfl⟩
      rw [← hstart]
      have hlt : start.left < s.left := hstart ▸ (Scanner.Passes.pass hr).left_lt (by simp)
      have hloop : Ends (loop (commentRound (beyond s (comment fuel)) start) (fuel + 1) ()) start
          kept (fun value after left => FindsComment start value after ∧ left = kept)
          (NeverEnds start) := by
        refine .loop (fun _ here left => WithinComment start here ∧ left = kept) ?_
          ⟨.refl start, rfl⟩ (by omega)
        rintro ⟨⟩ here _ ⟨hs, rfl⟩
        exact commentRound_ends (fun t ht => ih (by omega)) hs hlt
      subst hstart
      exact hloop.imp (fun _ _ _ _ h => ⟨h.1.recognise_eq hr, h.2⟩) fun _ h => h.recognise_eq hr
    · refine .pure ⟨?_, rfl⟩
      rw [Scanner.recognise, comment_eq_absent_iff.2 (hn _ (by simp))]

end Descent

end GrammarText
