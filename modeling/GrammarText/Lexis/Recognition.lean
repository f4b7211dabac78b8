/-!
# Recognising one construct

A recogniser looks at a text and says whether a construct starts there and where it ends. Whatever
it answers, what it has read and what is left make up the text it was given.
-/

namespace GrammarText

/-- What a recogniser finds at the start of a text. -/
inductive Recognition (α : Type) where
  /-- The construct is there: its value, the text it takes and the text after it. -/
  | found (value : α) (source rest : List Char)
  | absent
  /-- The construct starts and never ends: the text read before the search for its end, and what is
  left. -/
  | unclosed (source rest : List Char)
deriving Repr

namespace Recognition

variable {α : Type} {text : List Char}

/-- The answer is about `text`: its two parts make up the text, and a construct takes at least one
character. -/
def IsSplitOf (text : List Char) : Recognition α → Prop
  | found _ source rest => text = source ++ rest ∧ source ≠ []
  | absent => True
  | unclosed source rest => text = source ++ rest ∧ source ≠ []

theorem IsSplitOf.of_found {r : Recognition α} {value : α} {source rest : List Char}
    (h : r.IsSplitOf text) (hr : r = found value source rest) :
    text = source ++ rest ∧ source ≠ [] := by
  subst hr
  exact h

theorem IsSplitOf.of_unclosed {r : Recognition α} {source rest : List Char}
    (h : r.IsSplitOf text) (hr : r = unclosed source rest) : text = source ++ rest ∧ source ≠ [] := by
  subst hr
  exact h

theorem IsSplitOf.length_lt {r : Recognition α} {value : α} {source rest : List Char}
    (h : r.IsSplitOf text) (hr : r = found value source rest) : rest.length < text.length := by
  obtain ⟨rfl, hs⟩ := h.of_found hr
  have := List.length_pos_iff.2 hs
  simp; omega

/-- Applies a function to the value of a construct. -/
def map {β : Type} (f : α → β) : Recognition α → Recognition β
  | found value source rest => found (f value) source rest
  | absent => absent
  | unclosed source rest => unclosed source rest

theorem IsSplitOf.map {β : Type} {f : α → β} {r : Recognition α} (h : r.IsSplitOf text) :
    (r.map f).IsSplitOf text := by
  cases r <;> exact h

/-- What the second recogniser finds where the first finds nothing. -/
def orElse (r : Recognition α) (other : Unit → Recognition α) : Recognition α :=
  match r with
  | absent => other ()
  | r => r

theorem IsSplitOf.orElse {r : Recognition α} {other : Unit → Recognition α}
    (h : r.IsSplitOf text) (ho : (other ()).IsSplitOf text) : (r.orElse other).IsSplitOf text := by
  cases r with
  | absent => exact ho
  | found => exact h
  | unclosed => exact h

end Recognition

end GrammarText
