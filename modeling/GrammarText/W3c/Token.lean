import GrammarText.Lexis.Delimited
import GrammarText.Lexis.Lexicon
import GrammarText.Lexis.Word
import GrammarText.W3c.Tree

/-!
# Tokens of the W3C notation

Rules have no terminator: a word starts a new rule exactly if the defining mark follows it.
`markHeads` finds those words beforehand, so that nobody has to look ahead while reading.
-/

namespace GrammarText.W3c

/-- A token of the W3C notation. -/
inductive Token where
  /-- A word; `head` says whether the defining mark comes next. -/
  | symbol (name : String) (head : Bool)
  | literal (text : String)
  /-- The mark between the name of a rule and its expression. -/
  | defining
  | opening
  | closing
  | bar
  | minus
  /-- The mark for how often the expression right before it comes. -/
  | suffix (occurrence : Occurrence)
  /-- The beginning of a set of characters. -/
  | characterSet
  /-- A literal that never ends. -/
  | unclosed
  /-- A character that starts no token. -/
  | other (c : Char)
deriving DecidableEq, Repr

/-- The token of a mark, or of a character that is none. -/
def Token.ofMark : Char → List Char → Piece Token
  | ':', ':' :: '=' :: more => ⟨.defining, [':', ':', '='], more⟩
  | '(', more => ⟨.opening, ['('], more⟩
  | ')', more => ⟨.closing, [')'], more⟩
  | '|', more => ⟨.bar, ['|'], more⟩
  | '-', more => ⟨.minus, ['-'], more⟩
  | '?', more => ⟨.suffix .optional, ['?'], more⟩
  | '*', more => ⟨.suffix .zeroOrMore, ['*'], more⟩
  | '+', more => ⟨.suffix .oneOrMore, ['+'], more⟩
  | '[', more => ⟨.characterSet, ['['], more⟩
  | '#', more => ⟨.characterSet, ['#'], more⟩
  | c, more => ⟨.other c, [c], more⟩

theorem Token.ofMark_isSplitOf (c : Char) (more : List Char) :
    (ofMark c more).IsSplitOf (c :: more) := by
  unfold ofMark
  split <;> exact ⟨rfl, by simp⟩

/-- Reads the token that starts with `c`. -/
def Token.read (c : Char) (more : List Char) : Piece Token :=
  ((word (c :: more)).toPiece? (Token.symbol · false) Token.unclosed
    <|> (quotedText (c :: more)).toPiece? Token.literal Token.unclosed).getD (ofMark c more)

theorem Token.read_isSplitOf (c : Char) (more : List Char) :
    (read c more).IsSplitOf (c :: more) := by
  unfold read
  cases h₁ : (word (c :: more)).toPiece? (Token.symbol · false) Token.unclosed with
  | some piece => exact (word_isSplitOf _).piece h₁
  | none =>
    cases h₂ : (quotedText (c :: more)).toPiece? Token.literal Token.unclosed with
    | some piece => exact (quotedText_isSplitOf _).piece h₂
    | none => exact ofMark_isSplitOf c more

/-- The comments and the tokens of the W3C notation. -/
def lexicon : Lexicon Token where
  comment := blockComment
  token := Token.read
  comment_isSplitOf := blockComment_isSplitOf
  token_isSplitOf := Token.read_isSplitOf

/-- Marks the words that the defining mark follows. -/
def markHeads : List (Lexeme Token) → List (Lexeme Token)
  | [] => []
  | lexeme :: more =>
    match lexeme.token, more with
    | .symbol name _, next :: _ =>
      { lexeme with token := .symbol name (next.token == .defining) } :: markHeads more
    | _, _ => lexeme :: markHeads more

/-- Cuts a text into lexemes, the heads of rules marked. -/
def lexemes (text : List Char) : Lexed Token :=
  let lexed := lexicon.read text
  { lexed with lexemes := markHeads lexed.lexemes }

end GrammarText.W3c
