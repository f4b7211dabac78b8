import GrammarText.Iso.Tree
import GrammarText.Lexis.Comment
import GrammarText.Lexis.Lexicon
import GrammarText.Lexis.Word

/-!
# Tokens of the ISO notation

Several marks have two or three spellings; they are one token. Of two marks that start alike the
longer one is meant, and a bracket with a star after it opens a comment.
-/

namespace GrammarText.Iso

/-- A token of the ISO notation. -/
inductive Token where
  /-- A name, without blanks. -/
  | name (text : String)
  /-- A number in decimal digits, of any size. -/
  | count (n : Nat)
  | terminal (text : String)
  | special (text : String)
  | opening (bracket : Bracket)
  | closing (bracket : Bracket)
  /-- The mark between the name of a rule and its definitions. -/
  | defining
  | separator
  | comma
  | minus
  | star
  | terminator
  /-- A terminal or a special sequence that never ends. -/
  | unclosed
  /-- A character that starts no token. -/
  | other (c : Char)
deriving DecidableEq, Repr

/-- The token of a mark, or of a character that is none. -/
def Token.ofMark : Char → List Char → Piece Token
  | '[', more => ⟨.opening .optional, ['['], more⟩
  | '(', '/' :: more => ⟨.opening .optional, ['(', '/'], more⟩
  | '\x7b', more => ⟨.opening .repeated, ['\x7b'], more⟩
  | '(', ':' :: more => ⟨.opening .repeated, ['(', ':'], more⟩
  | '(', more => ⟨.opening .grouped, ['('], more⟩
  | ']', more => ⟨.closing .optional, [']'], more⟩
  | '/', ')' :: more => ⟨.closing .optional, ['/', ')'], more⟩
  | '\x7d', more => ⟨.closing .repeated, ['\x7d'], more⟩
  | ':', ')' :: more => ⟨.closing .repeated, [':', ')'], more⟩
  | ')', more => ⟨.closing .grouped, [')'], more⟩
  | '=', more => ⟨.defining, ['='], more⟩
  | '|', more => ⟨.separator, ['|'], more⟩
  | '!', more => ⟨.separator, ['!'], more⟩
  | '/', more => ⟨.separator, ['/'], more⟩
  | ',', more => ⟨.comma, [','], more⟩
  | '-', more => ⟨.minus, ['-'], more⟩
  | '*', more => ⟨.star, ['*'], more⟩
  | ';', more => ⟨.terminator, [';'], more⟩
  | '.', more => ⟨.terminator, ['.'], more⟩
  | c, more => ⟨.other c, [c], more⟩

theorem Token.ofMark_isSplitOf (c : Char) (more : List Char) :
    (ofMark c more).IsSplitOf (c :: more) := by
  unfold ofMark
  split <;> exact ⟨rfl, by simp⟩

/-- Reads the token that starts with `c`. -/
def Token.read (c : Char) (more : List Char) : Piece Token :=
  ((metaName (c :: more)).toPiece? Token.name Token.unclosed
    <|> (decimal (c :: more)).toPiece? Token.count Token.unclosed
    <|> (quotedText (c :: more)).toPiece? Token.terminal Token.unclosed
    <|> (specialSequence (c :: more)).toPiece? Token.special Token.unclosed).getD (ofMark c more)

theorem Token.read_isSplitOf (c : Char) (more : List Char) :
    (read c more).IsSplitOf (c :: more) := by
  unfold read
  cases h₁ : (metaName (c :: more)).toPiece? Token.name Token.unclosed with
  | some piece => exact (metaName_isSplitOf _).piece h₁
  | none =>
    cases h₂ : (decimal (c :: more)).toPiece? Token.count Token.unclosed with
    | some piece => exact (decimal_isSplitOf _).piece h₂
    | none =>
      cases h₃ : (quotedText (c :: more)).toPiece? Token.terminal Token.unclosed with
      | some piece => exact (quotedText_isSplitOf _).piece h₃
      | none =>
        cases h₄ : (specialSequence (c :: more)).toPiece? Token.special Token.unclosed with
        | some piece => exact (specialSequence_isSplitOf _).piece h₄
        | none => exact ofMark_isSplitOf c more

/-- The comments and the tokens of the ISO notation. -/
def lexicon : Lexicon Token where
  comment := comment
  token := Token.read
  comment_isSplitOf := comment_isSplitOf
  token_isSplitOf := Token.read_isSplitOf

end GrammarText.Iso
