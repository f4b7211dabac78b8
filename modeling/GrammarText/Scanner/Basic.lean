import GrammarText.Diagnostic
import GrammarText.Lexis.Comment
import GrammarText.Lexis.Word

/-!
# A place that moves through a text

A scanner stands at one place of a text. What it reads it also passes, and offset and line are kept
along the way. An operation that finds nothing leaves the scanner where it was.
-/

namespace GrammarText

/-- A text and a place in it. -/
structure Scanner where
  text : List Char
  rest : List Char
  position : Position

namespace Scanner

variable {α : Type}

/-- A scanner before the first character of a text. -/
def ofText (text : String) : Scanner := ⟨text.toList, text.toList, .start⟩

/-- The scanner after `source`, where `rest` follows. -/
def pass (s : Scanner) (source rest : List Char) : Scanner :=
  { s with rest, position := s.position.advance source }

/-- Whether the scanner stands at the end of the text. -/
def isAtEnd (s : Scanner) : Bool := s.rest.isEmpty

/-- Whether `mark` comes next. -/
def startsWith (s : Scanner) (mark : List Char) : Bool := (afterMark? mark s.rest).isSome

/-- Passes one character. -/
def bump (s : Scanner) : Option Char × Scanner :=
  match s.rest with
  | [] => (none, s)
  | c :: more => (some c, s.pass [c] more)

/-- Passes `mark`, if it comes next. -/
def eat (s : Scanner) (mark : List Char) : Bool × Scanner :=
  match afterMark? mark s.rest with
  | some after => (true, s.pass mark after)
  | none => (false, s)

/-- Passes all characters of a class that come next. -/
def readWhile (s : Scanner) (p : Char → Bool) : List Char × Scanner :=
  (s.rest.takeWhile p, s.pass (s.rest.takeWhile p) (s.rest.dropWhile p))

/-- Passes the blanks that come next. -/
def skipBlanks (s : Scanner) : Scanner := (s.readWhile isBlank).2

/-- Passes all that stands before the first `mark`, if there is one. -/
def readUntil (s : Scanner) (mark : List Char) : Option (List Char) × Scanner :=
  match splitAround? mark s.rest with
  | some (before, after) => (some before, s.pass before (mark ++ after))
  | none => (none, s)

/-- Does `f` and then returns to the place where the scanner stands. -/
def speculate (s : Scanner) (f : Scanner → α × Scanner) : α × Scanner := ((f s).1, s)

/-! ## Faults -/

/-- A fault at this place. -/
def diagnose (s : Scanner) (fault : Fault) : Diagnostic := { fault, position := s.position }

/-- A fault at this place, which is that the text ends if it does. -/
def expected (s : Scanner) (fault : Fault) : Diagnostic :=
  s.diagnose (if s.isAtEnd then .unexpectedEnd else fault)

/-- A construct that never ends: the text ends too early. -/
def unterminated (s : Scanner) : Diagnostic :=
  { fault := .unexpectedEnd, position := s.position.advance s.rest }

/-! ## Constructs -/

/-- Passes a construct. If that never ends, the scanner stands where the search for its end
stopped. -/
def recognise (s : Scanner) (recogniser : List Char → Recognition α) :
    Except Diagnostic (Option α) × Scanner :=
  match recogniser s.rest with
  | .found value source rest => (.ok (some value), s.pass source rest)
  | .absent => (.ok none, s)
  | .unclosed source rest => (.error s.unterminated, s.pass source rest)

/-- Passes a number. One that is too large is passed too, and is a fault at its first digit. -/
def count (s : Scanner) : Except Diagnostic (Option Nat) × Scanner :=
  match s.recognise decimal with
  | (.ok (some n), after) =>
    if n < countBound then (.ok (some n), after) else (.error (s.diagnose .countTooLarge), after)
  | answer => answer

/-- Whether a comment comes next, perhaps after blanks. -/
def atComment (s : Scanner) : Bool := s.skipBlanks.startsWith ['(', '*']

end Scanner

end GrammarText
