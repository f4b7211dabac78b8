import GrammarText.Lexis.Recognition
import GrammarText.Text.CharClass
import GrammarText.Text.Position

/-!
# From text to lexemes

A lexicon says what the comments and the tokens of a notation are. `Lexicon.read` cuts a text into
lexemes: each is a token with its place and with what stands in the gap before it, blanks and
comments. No text is without lexemes: what is no token of the notation becomes a token too, and
whoever reads the lexemes refuses it.
-/

namespace GrammarText

/-- A token, the text it takes and the text after it. -/
structure Piece (Token : Type) where
  token : Token
  source : List Char
  rest : List Char

/-- The two parts make up `text`, and the token takes at least one character. -/
def Piece.IsSplitOf {Token : Type} (text : List Char) (piece : Piece Token) : Prop :=
  text = piece.source ++ piece.rest ∧ piece.source ≠ []

theorem Piece.IsSplitOf.length_lt {Token : Type} {text : List Char} {piece : Piece Token}
    (h : piece.IsSplitOf text) : piece.rest.length < text.length := by
  obtain ⟨rfl, hs⟩ := h
  have := List.length_pos_iff.2 hs
  simp; omega

/-- Makes a token of what was recognised. A construct without an end takes the whole text and
becomes the token `unclosed`. -/
def Recognition.toPiece? {α Token : Type} (token : α → Token) (unclosed : Token) :
    Recognition α → Option (Piece Token)
  | .found value source rest => some ⟨token value, source, rest⟩
  | .absent => none
  | .unclosed source rest => some ⟨unclosed, source ++ rest, []⟩

theorem Recognition.IsSplitOf.piece {α Token : Type} {text : List Char} {r : Recognition α}
    (h : r.IsSplitOf text) {token : α → Token} {unclosed : Token} {piece : Piece Token}
    (hp : r.toPiece? token unclosed = some piece) : piece.IsSplitOf text := by
  cases r with
  | found value source rest => cases hp; exact h
  | absent => cases hp
  | unclosed source rest => cases hp; exact ⟨by simp [h.1], by simp [h.2]⟩

/-- The comments and the tokens of a notation. -/
structure Lexicon (Token : Type) where
  /-- Recognises a comment; its value is what a reader keeps of it. -/
  comment : List Char → Recognition String
  /-- Reads the token that starts with the given character. -/
  token : Char → List Char → Piece Token
  /-- A comment is a part of the text it is found in. -/
  comment_isSplitOf : ∀ text, (comment text).IsSplitOf text
  /-- A token is a part of the text it is read from. -/
  token_isSplitOf : ∀ c more, (token c more).IsSplitOf (c :: more)

/-- Blanks and comments between two tokens. -/
structure Gap where
  comments : List String
  source : List Char
  rest : List Char

/-- A token in its place. -/
structure Lexeme (Token : Type) where
  /-- The comments in the gap before the token. -/
  comments : List String
  /-- There is no gap before the token. -/
  glued : Bool
  /-- The place of its first character. -/
  start : Position
  token : Token

/-- A text as a row of lexemes. -/
structure Lexed (Token : Type) where
  lexemes : List (Lexeme Token)
  /-- The comments after the last lexeme, or `none` if the text ends within a comment. -/
  trailing : Option (List String)
  /-- The end of the text. -/
  stop : Position

namespace Lexicon

variable {Token : Type} (L : Lexicon Token)

/-- Reads blanks and comments as far as they go; `none` if a comment among them does not end. -/
def gap (text : List Char) : Option Gap :=
  match _h : L.comment (text.dropWhile isBlank) with
  | .found body source rest =>
    match gap rest with
    | some g => some ⟨body :: g.comments, text.takeWhile isBlank ++ source ++ g.source, g.rest⟩
    | none => none
  | .absent => some ⟨[], text.takeWhile isBlank, text.dropWhile isBlank⟩
  | .unclosed _ _ => none
termination_by text.length
decreasing_by
  have := (L.comment_isSplitOf _).length_lt _h
  have := (List.dropWhile_sublist isBlank (l := text)).length_le
  omega

/-- A gap and what follows it make up the text. -/
theorem gap_split {text : List Char} {g : Gap} (h : L.gap text = some g) :
    text = g.source ++ g.rest := by
  fun_induction L.gap text generalizing g with
  | case1 text body source rest hc g' hg ih =>
    cases h
    have hs := L.comment_isSplitOf (text.dropWhile isBlank)
    rw [hc] at hs
    have ht := List.takeWhile_append_dropWhile (p := isBlank) (l := text)
    rw [hs.1, ih hg] at ht
    simpa using ht.symm
  | case2 => cases h
  | case3 => cases h; simp
  | case4 => cases h

/-- Cuts a text, the first character of which is at `place`, into lexemes. -/
def readFrom (place : Position) (text : List Char) : Lexed Token :=
  match _h : L.gap text with
  | none => ⟨[], none, place.advance text⟩
  | some g =>
    match _hr : g.rest with
    | [] => ⟨[], some g.comments, place.advance g.source⟩
    | c :: more =>
      let start := place.advance g.source
      let piece := L.token c more
      let after := readFrom (start.advance piece.source) piece.rest
      let lexeme := ⟨g.comments, g.source.isEmpty, start, piece.token⟩
      { after with lexemes := lexeme :: after.lexemes }
termination_by text.length
decreasing_by
  have hg := congrArg List.length (L.gap_split _h)
  have hp := (L.token_isSplitOf c more).length_lt
  simp only [_hr, List.length_append] at hg
  omega

/-- Cuts a text into lexemes. -/
def read (text : List Char) : Lexed Token := L.readFrom .start text

end Lexicon

end GrammarText
