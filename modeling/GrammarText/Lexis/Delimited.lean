import GrammarText.Lexis.Recognition
import GrammarText.Text.CharClass
import GrammarText.Text.Search

/-!
# Text between marks

Constructs that run from an opening mark to the first closing one: quoted terminals, special
sequences between question marks, and block comments. None of them can hold its own closing mark.
-/

namespace GrammarText

/-- The construct that is opened by `opening`, ends at the first `closing`, and has the value of its
body. -/
def between (opening closing text : List Char) : Recognition (List Char) :=
  match splitAround? closing text with
  | some (body, rest) => .found body (opening ++ body ++ closing) rest
  | none => .unclosed opening text

theorem between_isSplitOf {opening : List Char} (h : opening ≠ []) (closing text : List Char) :
    (between opening closing text).IsSplitOf (opening ++ text) := by
  unfold between
  split
  · next hs => exact ⟨by simp [eq_append_of_splitAround? hs], by simp [h]⟩
  · exact ⟨rfl, h⟩

/-- A quotation mark, single or double. -/
def isQuote (c : Char) : Bool := c == '\'' || c == '"'

/-- A terminal in single or double quotes. The body is taken as it stands and ends at the next such
quote. -/
def quotedText (text : List Char) : Recognition String :=
  match text with
  | [] => .absent
  | c :: more => if isQuote c then (between [c] [c] more).map String.ofList else .absent

theorem quotedText_isSplitOf (text : List Char) : (quotedText text).IsSplitOf text := by
  cases text with
  | nil => trivial
  | cons c more =>
    simp only [quotedText]
    split
    · exact (between_isSplitOf (by simp) _ _).map
    · trivial

/-- A special sequence between question marks. Its value is without the blanks at its two ends. -/
def specialSequence (text : List Char) : Recognition String :=
  match text with
  | '?' :: more =>
    (between ('?' :: more.takeWhile isBlank) ['?'] (more.dropWhile isBlank)).map
      fun body => String.ofList (trimEnd body)
  | _ => .absent

theorem specialSequence_isSplitOf (text : List Char) : (specialSequence text).IsSplitOf text := by
  unfold specialSequence
  split
  · next more =>
    have h := between_isSplitOf (List.cons_ne_nil '?' (more.takeWhile isBlank)) ['?']
      (more.dropWhile isBlank)
    rw [List.cons_append, List.takeWhile_append_dropWhile] at h
    exact h.map
  · trivial

/-- A comment that starts with a slash and a star and ends at the first star and slash. -/
def blockComment (text : List Char) : Recognition String :=
  match text with
  | '/' :: '*' :: more => (between ['/', '*'] ['*', '/'] more).map String.ofList
  | _ => .absent

theorem blockComment_isSplitOf (text : List Char) : (blockComment text).IsSplitOf text := by
  unfold blockComment
  split
  · exact (between_isSplitOf (by simp) _ _).map
  · trivial

end GrammarText
