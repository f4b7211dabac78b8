import GrammarText.Scanner.Basic

/-!
# Programs for a scanner

Whatever can be done with a scanner is an action, and rows of actions are done one after the other.
An action that ends in a fault does not stop those that follow.
-/

namespace GrammarText.Scanner

/-- Something that is done with a scanner. -/
inductive Action where
  | offset
  | line
  /-- Tells the text after the place. -/
  | rest
  | isAtEnd
  | peek
  /-- Tells the character after the next one. -/
  | peekSecond
  | bump
  | startsWith (mark : String)
  /-- Passes a mark, and tells whether it was there. -/
  | eat (mark : String)
  | skipBlanks
  /-- Passes a mark, and tells it. -/
  | readMark (mark : String)
  /-- Passes all before a mark. -/
  | readUntil (mark : String)
  /-- Passes ASCII digits, at least one. -/
  | readDigits
  | readNone (characters : String)
  /-- Tells the text between two offsets. -/
  | slice (first last : Nat)
  /-- Does some actions and returns. -/
  | speculate (actions : List Action)
  /-- A fault at this place. -/
  | diagnose (fault : Fault)
  /-- A fault at this place, or the end of the text. -/
  | expected (fault : Fault)
  | unterminated
  /-- Tells whether a comment comes next, perhaps after blanks. -/
  | atComment
  | metaName
  | word
  | count
  | terminal
  | special
  /-- Passes a comment that may hold comments. -/
  | comment
  /-- Passes a comment that ends at its first closing mark. -/
  | blockComment

/-- What an action tells. -/
inductive Answer where
  | nothing
  | truth (b : Bool)
  | number (n : Nat)
  | text (s : String)
  | fault (d : Diagnostic)
  /-- What each of some actions tells, and where the scanner stands after it. -/
  | answers (steps : List (Answer × Position))

namespace Answer

/-- A text, if there is one. -/
def ofText? : Option (List Char) → Answer
  | some s => text (String.ofList s)
  | none => nothing

/-- What is told of a construct: a text, nothing or a fault. -/
def ofExcept {α : Type} (answer : α → Answer) : Except Diagnostic (Option α) → Answer
  | .ok (some value) => answer value
  | .ok none => nothing
  | .error d => fault d

end Answer

mutual

/-- Does an action. -/
def Action.perform (s : Scanner) : Action → Answer × Scanner
  | .offset => (.number s.position.offset, s)
  | .line => (.number s.position.line, s)
  | .rest => (.text (String.ofList s.rest), s)
  | .isAtEnd => (.truth s.isAtEnd, s)
  | .peek => (.ofText? (s.rest.head?.map fun c => [c]), s)
  | .peekSecond => (.ofText? (s.rest[1]?.map fun c => [c]), s)
  | .bump => s.bump.map (fun c? => .ofText? (c?.map fun c => [c])) id
  | .startsWith mark => (.truth (s.startsWith mark.toList), s)
  | .eat mark => (s.eat mark.toList).map .truth id
  | .skipBlanks => (.nothing, s.skipBlanks)
  | .readMark mark =>
    (s.eat mark.toList).map (fun there => if there then .text mark else .nothing) id
  | .readUntil mark => (s.readUntil mark.toList).map .ofText? id
  | .readDigits =>
    (s.recognise (run Char.isDigit)).map (.ofExcept fun digits => .text (String.ofList digits)) id
  | .readNone characters =>
    (s.readWhile fun c => !characters.toList.contains c).map
      (fun passed => .text (String.ofList passed)) id
  | .slice first last => (.text (String.ofList (sliceBytes s.text first last)), s)
  | .speculate actions => s.speculate fun s => (Action.performAll s actions).map .answers id
  | .diagnose fault => (.fault (s.diagnose fault), s)
  | .expected fault => (.fault (s.expected fault), s)
  | .unterminated => (.fault s.unterminated, s)
  | .atComment => (.truth s.atComment, s)
  | .metaName => (s.recognise GrammarText.metaName).map (.ofExcept .text) id
  | .word => (s.recognise GrammarText.word).map (.ofExcept .text) id
  | .count => s.count.map (.ofExcept .number) id
  | .terminal => (s.recognise quotedText).map (.ofExcept .text) id
  | .special => (s.recognise specialSequence).map (.ofExcept .text) id
  | .comment => (s.recognise GrammarText.comment).map (.ofExcept .text) id
  | .blockComment =>
    match s.recognise GrammarText.blockComment with
    | (.ok found, after) => (.truth found.isSome, after)
    | (.error d, after) => (.fault d, after)

/-- Does some actions, one after the other. -/
def Action.performAll (s : Scanner) : List Action → List (Answer × Position) × Scanner
  | [] => ([], s)
  | action :: more =>
    let (answer, after) := Action.perform s action
    let (steps, last) := Action.performAll after more
    ((answer, after.position) :: steps, last)

end

end GrammarText.Scanner
