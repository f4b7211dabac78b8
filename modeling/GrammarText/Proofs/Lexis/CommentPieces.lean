import GrammarText.Proofs.Lexis.CommentBody
import GrammarText.Proofs.Scanner

/-!
# What comments are made of

The body of a comment is a row of pieces, and the first closing mark that is in none of them ends
the comment. A text starts with a comment in at most one way, and that is the way it is read.
-/

namespace GrammarText

/-! ## Pieces -/

/-- A mark that stands on both sides of a passage: a quote or a question mark. -/
def isPassageMark (c : Char) : Bool := isQuote c || c == '?'

mutual

/-- A piece of the body of a comment; the second argument is the text behind it. -/
inductive CommentPiece : List Char → List Char → Prop where
  | comment {body after : List Char} (h : CommentPieces body ('*' :: ')' :: after)) :
      CommentPiece ('(' :: '*' :: body ++ ['*', ')']) after
  | passage {mark : Char} {body after : List Char} (hm : isPassageMark mark = true)
      (hb : mark ∉ body) : CommentPiece (mark :: body ++ [mark]) after
  | char {c : Char} {after : List Char} (hm : isPassageMark c = false)
      (hopen : ¬ ['(', '*'] <+: c :: after) (hclose : ¬ ['*', ')'] <+: c :: after) :
      CommentPiece [c] after

/-- A row of pieces with some text behind it. -/
inductive CommentPieces : List Char → List Char → Prop where
  | nil {after : List Char} : CommentPieces [] after
  | cons {piece more after : List Char} (hp : CommentPiece piece (more ++ after))
      (hm : CommentPieces more after) : CommentPieces (piece ++ more) after

end

/-- A comment with that body comes first in the text, and `rest` follows it. -/
structure StartsWithComment (text body rest : List Char) : Prop where
  text_eq : text = '(' :: '*' :: body ++ '*' :: ')' :: rest
  pieces : CommentPieces body ('*' :: ')' :: rest)

/-! ## Passages -/

theorem passage_eq_absent_iff {c : Char} {text : List Char} :
    passage (c :: text) = .absent ↔ isPassageMark c = false := by
  simp [isPassageMark]

theorem passage_of_not_mem {mark : Char} {body : List Char} (hm : isPassageMark mark = true)
    (hb : mark ∉ body) (after : List Char) : ∃ value,
      passage (mark :: body ++ mark :: after) = .found value (mark :: body ++ [mark]) after := by
  cases hq : isQuote mark with
  | true => exact ⟨_, passage_of_quotedText (quotedText_of_not_mem mark hq hb after)⟩
  | false =>
    obtain rfl : mark = '?' := by simpa [isPassageMark, hq] using hm
    have hs := specialSequence_cons (body ++ '?' :: after)
    rw [splitAround?_of_not_mem hb] at hs
    exact ⟨_, passage_of_specialSequence hs⟩

theorem exists_mark_of_passage {text source rest : List Char} {value : String}
    (h : passage text = .found value source rest) : ∃ mark body,
      isPassageMark mark = true ∧ mark ∉ body ∧ source = mark :: body ++ [mark] := by
  rcases Recognition.orElse_eq_found h with hq | ⟨-, hs⟩
  · obtain ⟨quote, hq, hm, hsource, -⟩ := quotedText_eq_found_iff.1 hq
    exact ⟨quote, value.toList, by simp [isPassageMark, hq], hm, hsource⟩
  · obtain ⟨blanks, body, hblanks, -, hm, -, hsource, -⟩ := specialSequence_eq_found hs
    refine ⟨'?', blanks ++ body, rfl, ?_, by simp [hsource]⟩
    rw [List.mem_append]
    rintro (hb | hb)
    · exact absurd (hblanks _ hb) (by decide)
    · exact hm hb

/-! ## The end of a comment -/

@[simp] theorem CommentEnd.after_nil (e : CommentEnd) : e.after [] = e := by
  cases e <;> rfl

@[simp] theorem CommentEnd.after_after (e : CommentEnd) (first second : List Char) :
    (e.after second).after first = e.after (first ++ second) := by
  cases e <;> simp [CommentEnd.after]

mutual

theorem CommentPiece.commentEnd_append {piece after : List Char} :
    CommentPiece piece after → ∀ depth,
      commentEnd depth (piece ++ after) = (commentEnd depth after).after piece
  | .comment h, depth => by
    have hb := h.commentEnd_append (depth + 1)
    simp [commentEnd, hb]
  | .passage hm hb, depth => by
    obtain ⟨value, hp⟩ := passage_of_not_mem hm hb after
    have he : commentEnd depth _ = _ := commentEnd_of_passage hp
    simpa using he
  | .char hm hopen hclose, depth => by
    refine commentEnd_of_absent (passage_eq_absent_iff.2 hm) ?_ ?_
    · rintro more rfl rfl
      exact hclose (List.prefix_append ['*', ')'] more)
    · rintro more rfl rfl
      exact hopen (List.prefix_append ['(', '*'] more)

theorem CommentPieces.commentEnd_append {body after : List Char} :
    CommentPieces body after → ∀ depth,
      commentEnd depth (body ++ after) = (commentEnd depth after).after body
  | .nil, depth => by simp
  | .cons hp hm, depth => by
    rw [List.append_assoc, hp.commentEnd_append, hm.commentEnd_append, CommentEnd.after_after]

end

/-- The text ends the innermost of `depth + 1` comments, then the one around it, and so on. -/
def ClosesComments : Nat → List Char → List Char → Prop
  | 0, body, after => CommentPieces body after
  | depth + 1, body, after => ∃ inner outer, body = inner ++ '*' :: ')' :: outer ∧
      CommentPieces inner ('*' :: ')' :: (outer ++ after)) ∧ ClosesComments depth outer after

theorem ClosesComments.cons {depth : Nat} {piece body after : List Char}
    (hp : CommentPiece piece (body ++ after)) (h : ClosesComments depth body after) :
    ClosesComments depth (piece ++ body) after := by
  cases depth with
  | zero => exact CommentPieces.cons hp h
  | succ depth =>
    obtain ⟨inner, outer, rfl, hi, ho⟩ := h
    have hp : CommentPiece piece (inner ++ '*' :: ')' :: (outer ++ after)) := by simpa using hp
    exact ⟨piece ++ inner, outer, by simp, .cons hp hi, ho⟩

theorem closesComments_of_commentEnd {depth : Nat} {text body rest : List Char}
    (h : commentEnd depth text = .closed body rest) :
    ClosesComments depth body ('*' :: ')' :: rest) := by
  fun_induction commentEnd depth text generalizing body with
  | case1 => cases h
  | case2 => cases h; exact .nil
  | case3 text depth ih =>
    obtain ⟨outer, ho, rfl⟩ := CommentEnd.after_eq_closed h
    exact ⟨[], outer, rfl, .nil, ih ho⟩
  | case4 depth text ih =>
    obtain ⟨body, hb, rfl⟩ := CommentEnd.after_eq_closed h
    -- The first of the comments that are ended is the one that starts here.
    obtain ⟨inner, outer, rfl, hi, ho⟩ := ih hb
    simpa using ho.cons (.comment hi)
  | case5 depth c text _ _ value source left hp ih =>
    obtain ⟨body, hb, rfl⟩ := CommentEnd.after_eq_closed h
    obtain ⟨mark, passed, hm, hpassed, rfl⟩ := exists_mark_of_passage hp
    exact (ih hb).cons (.passage hm hpassed)
  | case6 => cases h
  | case7 depth c text hclose hopen hp ih =>
    obtain ⟨body, hb, rfl⟩ := CommentEnd.after_eq_closed h
    have htext := commentEnd_split depth text
    rw [hb] at htext
    refine (ih hb).cons (.char (passage_eq_absent_iff.1 hp) ?_ ?_)
    · rintro ⟨more, hmore⟩
      rw [← htext] at hmore
      cases hmore
      exact hopen _ rfl rfl
    · rintro ⟨more, hmore⟩
      rw [← htext] at hmore
      cases hmore
      exact hclose _ rfl rfl

theorem commentEnd_eq_closed_iff {text body rest : List Char} :
    commentEnd 0 text = .closed body rest ↔
      text = body ++ '*' :: ')' :: rest ∧ CommentPieces body ('*' :: ')' :: rest) := by
  constructor
  · intro h
    have hs := commentEnd_split 0 text
    rw [h] at hs
    exact ⟨hs, closesComments_of_commentEnd h⟩
  · rintro ⟨rfl, hp⟩
    rw [hp.commentEnd_append 0, commentEnd]
    simp [CommentEnd.after]

/-! ## Whole comments -/

namespace StartsWithComment

variable {text body rest : List Char}

theorem unique (h : StartsWithComment text body rest) {body' rest' : List Char}
    (h' : StartsWithComment text body' rest') : body' = body ∧ rest' = rest := by
  have htext : '(' :: '*' :: (body' ++ '*' :: ')' :: rest') =
      '(' :: '*' :: (body ++ '*' :: ')' :: rest) := h'.text_eq.symm.trans h.text_eq
  have hbody : body' ++ '*' :: ')' :: rest' = body ++ '*' :: ')' :: rest := by simpa using htext
  have hread := commentEnd_eq_closed_iff.2 ⟨rfl, h.pieces⟩
  have hread' := commentEnd_eq_closed_iff.2 ⟨rfl, h'.pieces⟩
  rw [← hbody, hread'] at hread
  cases hread
  exact ⟨rfl, rfl⟩

theorem comment_eq (h : StartsWithComment text body rest) :
    comment text =
      .found (String.ofList (trim body)) ('(' :: '*' :: body ++ ['*', ')']) rest := by
  obtain ⟨rfl, hp⟩ := h
  rw [List.cons_append, List.cons_append, comment, commentEnd_eq_closed_iff.2 ⟨rfl, hp⟩]

end StartsWithComment

theorem exists_unclosed_of_not_startsWithComment {text : List Char} (hopen : ['(', '*'] <+: text)
    (h : ∀ body rest, ¬ StartsWithComment text body rest) :
    ∃ source rest, comment text = .unclosed source rest := by
  obtain ⟨more, rfl⟩ := hopen
  simp only [List.cons_append, List.nil_append, comment] at h ⊢
  cases he : commentEnd 0 more with
  | closed body rest =>
    obtain ⟨rfl, hp⟩ := commentEnd_eq_closed_iff.1 he
    exact absurd ⟨rfl, hp⟩ (h body rest)
  | unclosed source rest => exact ⟨_, _, rfl⟩

namespace Scanner

variable {s : Scanner} {text : List Char}

theorem StandsIn.unterminated_eq (h : s.StandsIn text) : s.unterminated =
    { fault := .unexpectedEnd, position := ⟨byteLength text, 1 + lineFeeds text⟩ } := by
  obtain ⟨before, hs, ho, hl⟩ := h.split
  rw [unterminated, Position.advance, ho, hl, hs, byteLength_append, lineFeeds_append,
    Nat.add_assoc]

theorem recognise_of_startsWithComment {body rest : List Char}
    (h : StartsWithComment s.rest body rest) :
    s.recognise comment = (.ok (some (String.ofList (trim body))),
      s.pass ('(' :: '*' :: body ++ ['*', ')']) rest) := by
  rw [recognise, h.comment_eq]

theorem recognise_of_not_startsWithComment (hopen : ['(', '*'] <+: s.rest)
    (h : ∀ body rest, ¬ StartsWithComment s.rest body rest) :
    (s.recognise comment).1 = .error s.unterminated := by
  obtain ⟨source, rest, hc⟩ := exists_unclosed_of_not_startsWithComment hopen h
  rw [recognise, hc]

/-- Where an opening mark comes next, a comment is passed if the text goes on with one, which is the
only one that it can go on with. Otherwise the text ends too early. -/
theorem recognise_comment (hs : s.StandsIn text) (hopen : ['(', '*'] <+: s.rest) :
    ((∃ value, (s.recognise comment).1 = .ok (some value)) ↔
        ∃ body rest, StartsWithComment s.rest body rest) ∧
      (∀ body rest, StartsWithComment s.rest body rest →
        s.recognise comment = (.ok (some (String.ofList (trim body))),
            s.pass ('(' :: '*' :: body ++ ['*', ')']) rest) ∧
          ∀ body' rest', StartsWithComment s.rest body' rest' → body' = body ∧ rest' = rest) ∧
      ((∀ body rest, ¬ StartsWithComment s.rest body rest) →
        (s.recognise comment).1 = .error
          { fault := .unexpectedEnd, position := ⟨byteLength text, 1 + lineFeeds text⟩ }) := by
  rw [← hs.unterminated_eq]
  refine ⟨⟨?_, ?_⟩, ?_, recognise_of_not_startsWithComment hopen⟩
  · rintro ⟨value, hvalue⟩
    by_contra hnone
    have hnot : ∀ body rest, ¬ StartsWithComment s.rest body rest := by
      intro body rest h
      exact hnone ⟨body, rest, h⟩
    rw [recognise_of_not_startsWithComment hopen hnot] at hvalue
    cases hvalue
  · rintro ⟨body, rest, h⟩
    exact ⟨_, by rw [recognise_of_startsWithComment h]⟩
  · intro body rest h
    exact ⟨recognise_of_startsWithComment h, fun _ _ h' => h.unique h'⟩

/-- Before a comment on the second line of `é\n(* (*'*)'*)\n?*)?*)*)`. -/
def beforeNested : Scanner :=
  ⟨"é\n(* (*'*)'*)\n?*)?*)*)".toList, "(* (*'*)'*)\n?*)?*)*)".toList, ⟨3, 2⟩⟩

theorem beforeNested_starts :
    StartsWithComment beforeNested.rest " (*'*)'*)\n?*)?".toList "*)".toList := by
  have hquoted : CommentPieces (['\'', '*', ')', '\''] ++ []) "*)\n?*)?*)*)".toList :=
    .cons (@CommentPiece.passage '\'' ['*', ')'] _ rfl (by decide)) .nil
  have hspecial : CommentPieces (['\n'] ++ (['?', '*', ')', '?'] ++ [])) "*)*)".toList :=
    .cons (.char rfl (by decide) (by decide))
      (.cons (@CommentPiece.passage '?' ['*', ')'] _ rfl (by decide)) .nil)
  have hblank : CommentPiece [' '] "(*'*)'*)\n?*)?*)*)".toList :=
    .char rfl (by decide) (by decide)
  exact ⟨rfl, .cons hblank (.cons (.comment hquoted) hspecial)⟩

theorem recognise_comment_nested :
    beforeNested.StandsIn beforeNested.text ∧ ['(', '*'] <+: beforeNested.rest ∧
      beforeNested.recognise comment = (.ok (some "(*'*)'*)\n?*)?"),
        ⟨beforeNested.text, "*)".toList, ⟨21, 3⟩⟩) := by
  have hs : beforeNested.StandsIn beforeNested.text := ⟨rfl, "é\n".toList, rfl, rfl, rfl⟩
  have hopen : ['(', '*'] <+: beforeNested.rest := ⟨_, rfl⟩
  have h := ((recognise_comment hs hopen).2.1 _ _ beforeNested_starts).1
  exact ⟨hs, hopen, h⟩

end Scanner

end GrammarText
