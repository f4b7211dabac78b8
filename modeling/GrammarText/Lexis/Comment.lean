import GrammarText.Lexis.Delimited

/-!
# Nested comments

A comment stands between `(*` and `*)`. Comments nest, and a terminal or a special sequence inside a
comment is passed over whole, so that a closing mark inside either does not count.
-/

namespace GrammarText

/-- A stretch of a comment in which no mark counts: a terminal or a special sequence. -/
def passage (text : List Char) : Recognition String :=
  (quotedText text).orElse fun _ => specialSequence text

theorem passage_isSplitOf (text : List Char) : (passage text).IsSplitOf text :=
  (quotedText_isSplitOf text).orElse (specialSequence_isSplitOf text)

/-- What the search for the end of a comment comes to. -/
inductive CommentEnd where
  /-- The body of the comment, and what follows its closing mark. -/
  | closed (body rest : List Char)
  /-- There is no end: what was read of the text, and what was left when the search stopped. -/
  | unclosed (source rest : List Char)
deriving Repr

/-- The same end, seen from before `piece`. -/
def CommentEnd.after (piece : List Char) : CommentEnd → CommentEnd
  | closed body rest => closed (piece ++ body) rest
  | unclosed source rest => unclosed (piece ++ source) rest

/-- Looks for the mark that closes a comment, from a place within it. `depth` comments are open
inside the one whose end is looked for. -/
def commentEnd (depth : Nat) (text : List Char) : CommentEnd :=
  match text with
  | [] => .unclosed [] []
  | '*' :: ')' :: more =>
    match depth with
    | 0 => .closed [] more
    | depth + 1 => (commentEnd depth more).after ['*', ')']
  | '(' :: '*' :: more => (commentEnd (depth + 1) more).after ['(', '*']
  | c :: more =>
    match _h : passage (c :: more) with
    | .found _ source rest => (commentEnd depth rest).after source
    | .unclosed source rest => .unclosed source rest
    | .absent => (commentEnd depth more).after [c]
termination_by text.length
decreasing_by
  · simp +arith
  · simp +arith
  · exact (passage_isSplitOf _).length_lt _h
  · simp

/-- The end of a comment and the parts before it make up the text. -/
theorem commentEnd_split (depth : Nat) (text : List Char) :
    match commentEnd depth text with
    | .closed body rest => text = body ++ '*' :: ')' :: rest
    | .unclosed source rest => text = source ++ rest := by
  fun_induction commentEnd depth text with
  | case1 => rfl
  | case2 => rfl
  | case3 more depth ih =>
    cases h : commentEnd depth more <;> simp_all [CommentEnd.after]
  | case4 depth more ih =>
    cases h : commentEnd (depth + 1) more <;> simp_all [CommentEnd.after]
  | case5 depth c more _ _ value source rest hp ih =>
    have hs := (passage_isSplitOf (c :: more))
    rw [hp] at hs
    rw [hs.1]
    cases h : commentEnd depth rest <;> simp_all [CommentEnd.after]
  | case6 depth c more _ _ source rest hp =>
    have hs := (passage_isSplitOf (c :: more))
    rw [hp] at hs
    exact hs.1
  | case7 depth c more _ _ hp ih =>
    cases h : commentEnd depth more <;> simp_all [CommentEnd.after]

/-- A comment with all that it holds. Its value is the body without the blanks at its two ends. -/
def comment (text : List Char) : Recognition String :=
  match text with
  | '(' :: '*' :: more =>
    match commentEnd 0 more with
    | .closed body rest =>
      .found (String.ofList (trim body)) ('(' :: '*' :: body ++ ['*', ')']) rest
    | .unclosed source rest => .unclosed ('(' :: '*' :: source) rest
  | _ => .absent

theorem comment_isSplitOf (text : List Char) : (comment text).IsSplitOf text := by
  unfold comment
  split
  · next more =>
    have hs := commentEnd_split 0 more
    split <;> simp_all [Recognition.IsSplitOf]
  · trivial

end GrammarText
