/-!
# Places in a text

A place is counted in two ways at once: in bytes of the UTF-8 form from the start of the text, and
in lines. Both counts are kept while a text is read, so that neither has to be found again from the
text.
-/

namespace GrammarText

/-- The number of bytes of a text in UTF-8. -/
def byteLength : List Char → Nat
  | [] => 0
  | c :: more => c.utf8Size + byteLength more

/-- The number of line feeds in a text. -/
def lineFeeds (text : List Char) : Nat := text.count '\n'

@[simp] theorem byteLength_nil : byteLength [] = 0 := rfl

@[simp] theorem byteLength_append (a b : List Char) :
    byteLength (a ++ b) = byteLength a + byteLength b := by
  induction a with
  | nil => simp
  | cons c more ih => simp [byteLength, ih, Nat.add_assoc]

@[simp] theorem lineFeeds_nil : lineFeeds [] = 0 := rfl

@[simp] theorem lineFeeds_append (a b : List Char) :
    lineFeeds (a ++ b) = lineFeeds a + lineFeeds b := by
  simp [lineFeeds]

/-- A byte offset and the line it lies on. -/
structure Position where
  /-- The number of bytes before the place. -/
  offset : Nat
  /-- The line of the place; the first line is line one. -/
  line : Nat
deriving DecidableEq, Repr

namespace Position

/-- The place before the first character of a text. -/
def start : Position := ⟨0, 1⟩

/-- The place that is reached from `p` by reading `text`. -/
def advance (p : Position) (text : List Char) : Position :=
  ⟨p.offset + byteLength text, p.line + lineFeeds text⟩

@[simp] theorem advance_nil (p : Position) : p.advance [] = p := rfl

@[simp] theorem advance_append (p : Position) (a b : List Char) :
    p.advance (a ++ b) = (p.advance a).advance b := by
  simp [advance, Nat.add_assoc]

end Position

end GrammarText
