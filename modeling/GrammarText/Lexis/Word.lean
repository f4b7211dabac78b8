import GrammarText.Lexis.Recognition
import GrammarText.Text.CharClass

/-!
# Words and numbers

Names in which blanks do not count, words of plain letters, and counts in decimal digits.
-/

namespace GrammarText

/-- The longest prefix of characters of a class, if it is not empty. -/
def run (p : Char → Bool) (text : List Char) : Recognition (List Char) :=
  match text.takeWhile p with
  | [] => .absent
  | c :: more => .found (c :: more) (c :: more) (text.dropWhile p)

theorem run_isSplitOf (p : Char → Bool) (text : List Char) : (run p text).IsSplitOf text := by
  unfold run
  split
  · trivial
  · next c more h => exact ⟨by rw [← h, List.takeWhile_append_dropWhile], by simp⟩

/-- A character that may follow the first letter of a name. -/
def continuesName (c : Char) : Bool := isLetter c || isNumeral c || isBlank c

/-- A name: a letter, then letters, numerals and blanks. Its value is without the blanks, also those
at the end. -/
def metaName (text : List Char) : Recognition String :=
  match text with
  | [] => .absent
  | c :: more =>
    if isLetter c then
      let tail := more.takeWhile continuesName
      .found (String.ofList ((c :: tail).filter fun d => !isBlank d)) (c :: tail)
        (more.dropWhile continuesName)
    else .absent

theorem metaName_isSplitOf (text : List Char) : (metaName text).IsSplitOf text := by
  cases text with
  | nil => trivial
  | cons c more =>
    simp only [metaName]
    split
    · exact ⟨by simp, by simp⟩
    · trivial

/-- A word of ASCII letters. -/
def word (text : List Char) : Recognition String := (run Char.isAlpha text).map String.ofList

theorem word_isSplitOf (text : List Char) : (word text).IsSplitOf text := (run_isSplitOf _ _).map

/-- A number in ASCII digits, of any length. -/
def decimal (text : List Char) : Recognition Nat :=
  (run Char.isDigit text).map fun digits => Nat.ofDigitChars 10 digits 0

theorem decimal_isSplitOf (text : List Char) : (decimal text).IsSplitOf text :=
  (run_isSplitOf _ _).map

/-- One more than the greatest count: counts take at most 64 bits. -/
def countBound : Nat := 0x10000000000000000

end GrammarText
