import GrammarText.Proofs.Descent.Basic
import GrammarText.Proofs.Lexis.Prefix

/-!
# Reading on from a place

A reader that has come to some place reads on from there. What it comes to depends on its state and
on the text that is left; blanks and comments can be passed before.
-/

namespace GrammarText

variable {Token : Type}

/-- A text with one more lexeme before it. -/
def Lexed.cons (lexeme : Lexeme Token) (lexed : Lexed Token) : Lexed Token :=
  { lexed with lexemes := lexeme :: lexed.lexemes }

namespace Lexicon

variable {L : Lexicon Token} {text source rest : List Char} {body : String} {g : Gap}

/-! ## The end of a gap -/

theorem takeWhile_eq_nil_of_dropWhile {p : Char → Bool} (h : text.dropWhile p = text) :
    text.takeWhile p = [] := by
  have ht := List.takeWhile_append_dropWhile (p := p) (l := text)
  rwa [h, List.append_left_eq_self] at ht

/-- Neither a blank nor a comment comes first. -/
structure Rests (L : Lexicon Token) (text : List Char) : Prop where
  not_blank : text.dropWhile isBlank = text
  absent : L.comment text = .absent

theorem Rests.nil (L : Lexicon Token) : L.Rests [] := by
  refine ⟨rfl, by_contra fun hc => ?_⟩
  obtain ⟨c, more, h⟩ := eq_cons_of_comment rfl hc
  cases h

theorem Rests.gap_eq (h : L.Rests text) : L.gap text = some ⟨[], [], text⟩ := by
  rw [gap_of_absent (by rw [h.not_blank, h.absent]), takeWhile_eq_nil_of_dropWhile h.not_blank,
    h.not_blank]

theorem rests_of_gap (hg : L.gap text = some g) : L.Rests g.rest := by
  cases hr : g.rest with
  | nil => exact .nil L
  | cons c more =>
    obtain ⟨hb, hc⟩ := gap_stops hg hr
    exact ⟨by simp [hb], hc⟩

theorem gap_eq (L : Lexicon Token) (text : List Char) : L.gap text =
    match L.comment (text.dropWhile isBlank) with
    | .found body source rest => (L.gap rest).map fun g =>
        ⟨body :: g.comments, text.takeWhile isBlank ++ source ++ g.source, g.rest⟩
    | .absent => some ⟨[], text.takeWhile isBlank, text.dropWhile isBlank⟩
    | .unclosed _ _ => none := by
  rw [gap]
  split
  · next rest hc =>
    rw [hc]
    cases hg : L.gap rest <;> simp [hg]
  · next hc => rw [hc]
  · next hc => rw [hc]

theorem gap_dropWhile (L : Lexicon Token) (text : List Char) : L.gap text =
    (L.gap (text.dropWhile isBlank)).map fun g =>
      ⟨g.comments, text.takeWhile isBlank ++ g.source, g.rest⟩ := by
  have hd := List.dropWhile_idempotent isBlank text
  rw [gap_eq, gap_eq L (text.dropWhile isBlank), hd, takeWhile_eq_nil_of_dropWhile hd]
  cases L.comment (text.dropWhile isBlank) with
  | found body source rest => simp [Function.comp_def]
  | absent => simp
  | unclosed => rfl

/-! ## Within a gap -/

/-- On the way from `s` a part of the gap that starts there has been passed, with the given comments
in it. -/
def WithinGap (L : Lexicon Token) (s here : Scanner) (comments : List String) : Prop :=
  ∃ passed, s.Passes passed here ∧
    L.gap s.rest = (L.gap here.rest).map fun g =>
      ⟨comments ++ g.comments, passed ++ g.source, g.rest⟩

namespace WithinGap

variable {s here : Scanner} {comments : List String}

theorem refl (L : Lexicon Token) (s : Scanner) : L.WithinGap s s [] :=
  ⟨[], .refl s, by cases L.gap s.rest <;> rfl⟩

theorem onward (h : L.WithinGap s here comments) : s.Onward here :=
  let ⟨_, hp, _⟩ := h
  ⟨_, hp⟩

theorem gap_eq_none (h : L.WithinGap s here comments)
    (hb : here.rest.dropWhile isBlank = here.rest)
    (hc : L.comment here.rest = .unclosed source rest) : L.gap s.rest = none := by
  obtain ⟨passed, -, hg⟩ := h
  rw [hg, gap_eq, hb, hc]
  rfl

theorem gap_eq_some (h : L.WithinGap s here comments) (hr : L.Rests here.rest) :
    ∃ g, L.gap s.rest = some g ∧ here = s.pass g.source g.rest ∧ comments = g.comments := by
  obtain ⟨passed, hp, hg⟩ := h
  rw [hr.gap_eq] at hg
  refine ⟨_, hg, ?_, by simp⟩
  simp only [List.append_nil]
  obtain ⟨text, rest, position⟩ := here
  cases hp.text
  cases hp.position
  rfl

theorem skipBlanks (h : L.WithinGap s here comments) :
    L.WithinGap s here.skipBlanks comments := by
  obtain ⟨passed, hp, hg⟩ := h
  refine ⟨passed ++ here.rest.takeWhile isBlank, hp.trans (here.readWhile_passes isBlank), ?_⟩
  rw [hg, gap_dropWhile]
  simp [Function.comp_def, Scanner.skipBlanks, Scanner.readWhile, Scanner.pass]

theorem comment (h : L.WithinGap s here comments) (hb : here.rest.dropWhile isBlank = here.rest)
    (hc : L.comment here.rest = .found body source rest) :
    L.WithinGap s (here.pass source rest) (comments ++ [body]) := by
  obtain ⟨passed, hp, hg⟩ := h
  refine ⟨passed ++ source, hp.trans (.pass ((L.comment_isSplitOf _).of_found hc).1), ?_⟩
  rw [hg, gap_eq, hb, hc, takeWhile_eq_nil_of_dropWhile hb]
  simp [Function.comp_def, Scanner.pass]

end WithinGap

/-! ## One lexeme -/

section Lexemes

variable {place : Position} {c : Char} {more : List Char} {piece : Piece Token}

theorem readFrom_of_gap_eq_none (h : L.gap text = none) :
    L.readFrom place text = ⟨[], none, place.advance text⟩ := by
  rw [readFrom]
  split <;> simp_all

theorem readFrom_nil (L : Lexicon Token) (place : Position) :
    L.readFrom place [] = ⟨[], some [], place⟩ := by
  rw [readFrom_of_nil (Rests.nil L).gap_eq rfl, Position.advance_nil]

theorem readFrom_of_gap (hg : L.gap text = some g) (hr : g.rest = c :: more)
    (ht : L.token c more = piece) : L.readFrom place text =
      (L.readFrom ((place.advance g.source).advance piece.source) piece.rest).cons
        ⟨g.comments, g.source.isEmpty, place.advance g.source, piece.token⟩ :=
  readFrom_of_cons hg hr ht

theorem readFrom_of_rests (h : L.Rests (c :: more)) (ht : L.token c more = piece) :
    L.readFrom place (c :: more) = (L.readFrom (place.advance piece.source) piece.rest).cons
      ⟨[], true, place, piece.token⟩ :=
  readFrom_of_cons h.gap_eq rfl ht

end Lexemes

end Lexicon

theorem exists_quote_of_quotedText {text : List Char} (h : quotedText text ≠ .absent) :
    ∃ c more, text = c :: more ∧ isQuote c = true := by
  cases text with
  | nil => exact absurd rfl h
  | cons c more => exact ⟨c, more, rfl, by simpa using h⟩

/-! ## Readers -/

namespace Reader

variable {State Result : Type} (R : Reader Token State Result)

/-- Reads the lexemes of a text that `state` has been reached before. -/
def runOn (lexed : Lexed Token) (state : State) : Except Diagnostic Result := do
  let state ← lexed.lexemes.foldlM (R.advance lexed.stop) state
  R.conclude lexed.stop lexed.trailing state

variable {lexed : Lexed Token} {lexeme : Lexeme Token} {state next : State}

theorem runOn_cons_of_ok (h : R.step state lexeme = .ok next) :
    R.runOn (lexed.cons lexeme) state = R.runOn lexed next := by
  rw [runOn, Lexed.cons, List.foldlM_cons, advance, h]
  rfl

theorem runOn_cons_of_error {fault : Fault} (h : R.step state lexeme = .error fault) :
    R.runOn (lexed.cons lexeme) state =
      .error (R.diagnostic state fault lexeme.start lexed.stop) := by
  rw [runOn, Lexed.cons, List.foldlM_cons, advance, h]
  rfl

/-- Two lexemes with which the same is done need not be told apart. -/
theorem runOn_cons_congr {state' : State} {lexeme' : Lexeme Token}
    (hstep : R.step state lexeme = R.step state' lexeme') (hstart : lexeme.start = lexeme'.start)
    (hrule : ∀ fault, R.step state lexeme = .error fault →
      R.rule? state fault = R.rule? state' fault) :
    R.runOn (lexed.cons lexeme) state = R.runOn (lexed.cons lexeme') state' := by
  cases h : R.step state' lexeme' with
  | ok next => rw [R.runOn_cons_of_ok h, R.runOn_cons_of_ok (hstep.trans h)]
  | error fault =>
    rw [R.runOn_cons_of_error h, R.runOn_cons_of_error (hstep.trans h), hstart, diagnostic,
      hrule fault (hstep.trans h)]
    rfl

end Reader

end GrammarText
