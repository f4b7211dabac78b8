/-!
# Cutting a text

A text is cut around the first occurrence of a mark, and by byte offsets.
-/

namespace GrammarText

/-- What follows `mark` in a text that starts with it. -/
def afterMark? : List Char → List Char → Option (List Char)
  | [], text => some text
  | _ :: _, [] => none
  | m :: mark, c :: more => if m = c then afterMark? mark more else none

theorem eq_append_of_afterMark? {mark text after : List Char}
    (h : afterMark? mark text = some after) : text = mark ++ after := by
  induction mark generalizing text with
  | nil => simpa [afterMark?] using h
  | cons m mark ih =>
    cases text with
    | nil => simp [afterMark?] at h
    | cons c text =>
      simp only [afterMark?] at h
      split at h
      · next hmc => simp [ih h, hmc]
      · cases h

/-- Cuts a text around the first occurrence of `mark`, into what stands before it and what stands
after it. -/
def splitAround? (mark : List Char) (text : List Char) : Option (List Char × List Char) :=
  match afterMark? mark text with
  | some after => some ([], after)
  | none =>
    match text with
    | [] => none
    | c :: more =>
      match splitAround? mark more with
      | some (before, after) => some (c :: before, after)
      | none => none

theorem eq_append_of_splitAround? {mark text before after : List Char}
    (h : splitAround? mark text = some (before, after)) : text = before ++ mark ++ after := by
  induction text generalizing before with
  | nil =>
    rw [splitAround?] at h
    split at h
    · next hp => cases h; simpa using eq_append_of_afterMark? hp
    · cases h
  | cons c more ih =>
    rw [splitAround?] at h
    split at h
    · next hp => cases h; simpa using eq_append_of_afterMark? hp
    · split at h
      · next hs => cases h; simp [ih hs]
      · cases h

/-- The text from the given byte offset on. -/
def dropBytes : Nat → List Char → List Char
  | 0, text => text
  | _ + 1, [] => []
  | n + 1, c :: more => dropBytes (n + 1 - c.utf8Size) more

/-- The text up to the given byte offset. -/
def takeBytes : Nat → List Char → List Char
  | 0, _ => []
  | _ + 1, [] => []
  | n + 1, c :: more => c :: takeBytes (n + 1 - c.utf8Size) more

/-- The text between two byte offsets. -/
def sliceBytes (text : List Char) (first last : Nat) : List Char :=
  takeBytes (last - first) (dropBytes first text)

end GrammarText
