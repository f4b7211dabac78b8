import GrammarText.Proofs.Lexis.CommentBody

/-!
# Stretches of a text

Comments, quoted terminals and special sequences can be found without knowing the tokens of a text.
A scan from left to right cuts the text into them and the characters between them.
-/

namespace GrammarText

/-- A part of a text. -/
inductive Stretch where
  /-- A comment with all that it holds. Its body is without the blanks at its two ends. -/
  | comment (body : String) (source : List Char)
  /-- A quoted terminal or a special sequence. -/
  | passage (source : List Char)
  /-- Any other character. -/
  | char (c : Char)
  /-- A comment or a passage that never ends. -/
  | unclosed (source : List Char)

namespace Stretch

def source : Stretch → List Char
  | comment _ source => source
  | passage source => source
  | char c => [c]
  | unclosed source => source

def body? : Stretch → Option String
  | comment body _ => some body
  | _ => none

/-- The text of the stretch, or one blank in the place of a comment. -/
def blanked : Stretch → List Char
  | comment _ _ => [' ']
  | stretch => stretch.source

end Stretch

/-- Cuts a text into stretches, from left to right. -/
def stretches (text : List Char) : List Stretch :=
  match text with
  | [] => []
  | c :: more =>
    match _hc : comment (c :: more) with
    | .found body source rest => .comment body source :: stretches rest
    | .unclosed source rest => [.unclosed (source ++ rest)]
    | .absent =>
      match _hp : passage (c :: more) with
      | .found _ source rest => .passage source :: stretches rest
      | .unclosed source rest => [.unclosed (source ++ rest)]
      | .absent => .char c :: stretches more
termination_by text.length
decreasing_by
  · exact (comment_isSplitOf _).length_lt _hc
  · exact (passage_isSplitOf _).length_lt _hp
  · simp

/-- The bodies of the comments of a text. -/
def commentBodies (text : List Char) : List String := (stretches text).filterMap Stretch.body?

/-- The text with a blank in the place of each comment. -/
def blankComments (text : List Char) : List Char := (stretches text).flatMap Stretch.blanked

variable {c : Char} {text more source rest : List Char}

/-! ## The first stretch -/

theorem stretches_cons (c : Char) (more : List Char) : stretches (c :: more) =
    match comment (c :: more) with
    | .found body source rest => .comment body source :: stretches rest
    | .unclosed source rest => [.unclosed (source ++ rest)]
    | .absent =>
      match passage (c :: more) with
      | .found _ source rest => .passage source :: stretches rest
      | .unclosed source rest => [.unclosed (source ++ rest)]
      | .absent => .char c :: stretches more := by
  rw [stretches]
  cases comment (c :: more) with
  | absent => cases passage (c :: more) <;> rfl
  | _ => rfl

theorem stretches_comment {body : String} (h : comment (c :: more) = .found body source rest) :
    stretches (c :: more) = .comment body source :: stretches rest := by
  rw [stretches_cons, h]

theorem stretches_passage {value : String} (hc : comment (c :: more) = .absent)
    (h : passage (c :: more) = .found value source rest) :
    stretches (c :: more) = .passage source :: stretches rest := by
  rw [stretches_cons, hc, h]

theorem stretches_char (hc : comment (c :: more) = .absent)
    (hp : passage (c :: more) = .absent) : stretches (c :: more) = .char c :: stretches more := by
  rw [stretches_cons, hc, hp]

/-! ## Characters that start no stretch of their own -/

/-- The character starts neither a comment nor a passage. -/
def isInert (c : Char) : Bool := c != '(' && !isQuote c && c != '?'

theorem stretches_inert (hc : isInert c = true) :
    stretches (c :: more) = .char c :: stretches more := by
  simp only [isInert, Bool.and_eq_true, bne_iff_ne, Bool.not_eq_true'] at hc
  exact stretches_char (comment_cons_eq_absent hc.1.1)
    (passage_cons_eq_absent_iff.2 ⟨hc.1.2, hc.2⟩)

theorem stretches_append_of_inert (h : ∀ c ∈ source, isInert c = true) :
    stretches (source ++ rest) = source.map .char ++ stretches rest := by
  induction source with
  | nil => rfl
  | cons c source ih =>
    obtain ⟨hc, hs⟩ := List.forall_mem_cons.1 h
    rw [List.cons_append, stretches_inert hc, ih hs, List.map_cons, List.cons_append]

@[simp] theorem filterMap_body?_map_char (source : List Char) :
    (source.map Stretch.char).filterMap Stretch.body? = [] :=
  List.filterMap_eq_nil_iff.2 (by simp [Stretch.body?])

@[simp] theorem flatMap_blanked_map_char (source : List Char) :
    (source.map Stretch.char).flatMap Stretch.blanked = source := by
  induction source with
  | nil => rfl
  | cons c source ih => rw [List.map_cons, List.flatMap_cons, ih]; rfl

/-! ## Blanked comments -/

/-- The first text starts as the second does, or with a blank. -/
def StartsAlike (next rest : List Char) : Prop :=
  next.head? = rest.head? ∨ ∃ blank more, next = blank :: more ∧ isBlank blank = true

theorem startsAlike_blankComments (text : List Char) : StartsAlike (blankComments text) text := by
  unfold blankComments
  fun_cases stretches text with
  | case1 => exact .inl rfl
  | case2 c more body source rest => exact .inr ⟨' ', _, rfl, isBlank_space⟩
  | case3 c more source rest hc =>
    left
    simp [Stretch.blanked, Stretch.source, ((comment_isSplitOf _).of_unclosed hc).1]
  | case4 c more _ value source rest hp =>
    obtain ⟨hs, hne⟩ := (passage_isSplitOf _).of_found hp
    obtain ⟨d, tail, rfl⟩ := List.exists_cons_of_ne_nil hne
    exact .inl (congrArg List.head? hs).symm
  | case5 c more _ source rest hp =>
    left
    simp [Stretch.blanked, Stretch.source, ((passage_isSplitOf _).of_unclosed hp).1]
  | case6 => exact .inl rfl

end GrammarText
