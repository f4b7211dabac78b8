import GrammarText.Lexis.Lexicon
import Mathlib.Data.List.TakeWhile

/-!
# Transcripts

A transcript lists the comments and tokens of a text in their order, whether or not the text ends
within a comment. It is found one blank, comment or token at a time, so two texts can be compared
from left to right. `Lexicon.transcript_readFrom` says that it lists what the lexemes hold.
-/

namespace GrammarText

/-! ## Entries -/

/-- A comment or a token of a text. -/
inductive Entry (α : Type) where
  | comment (body : String)
  | token (value : α)

namespace Entry

variable {α β : Type}

def token? : Entry α → Option α
  | .comment _ => none
  | .token value => some value

def comment? : Entry α → Option String
  | .comment body => some body
  | .token _ => none

def map (f : α → β) : Entry α → Entry β
  | .comment body => .comment body
  | .token value => .token (f value)

end Entry

section Entries

variable {α : Type}

@[simp 1100] theorem filterMap_comment?_comments (comments : List String) :
    (comments.map (Entry.comment (α := α))).filterMap Entry.comment? = comments := by
  induction comments with
  | nil => rfl
  | cons comment comments ih => simp [Entry.comment?, ih]

@[simp 1100] theorem filterMap_token?_comments (comments : List String) :
    (comments.map (Entry.comment (α := α))).filterMap Entry.token? = [] :=
  List.filterMap_eq_nil_iff.2 (by simp [Entry.token?])

@[simp] theorem filterMap_comment?_token (value : α) (entries : List (Entry α)) :
    (.token value :: entries).filterMap Entry.comment? = entries.filterMap Entry.comment? := rfl

@[simp] theorem filterMap_token?_token (value : α) (entries : List (Entry α)) :
    (.token value :: entries).filterMap Entry.token? =
      value :: entries.filterMap Entry.token? := rfl

@[simp 1100] theorem filterMap_token?_map {β : Type} (f : α → β) (entries : List (Entry α)) :
    (entries.map (Entry.map f)).filterMap Entry.token? =
      (entries.filterMap Entry.token?).map f := by
  induction entries with
  | nil => rfl
  | cons entry entries ih =>
    cases entry with
    | comment => exact ih
    | token value => exact congrArg (f value :: ·) ih

end Entries

/-! ## Transcripts -/

/-- What is read of a text, up to a comment that never ends. -/
structure Transcript (α : Type) where
  entries : List (Entry α)
  /-- The text has no comment that never ends. -/
  closed : Bool

namespace Transcript

variable {α β : Type}

/-- The transcript of a text that has the given entries before what `t` lists. -/
def prepend (entries : List (Entry α)) (t : Transcript α) : Transcript α :=
  ⟨entries ++ t.entries, t.closed⟩

def map (f : α → β) (t : Transcript α) : Transcript β := ⟨t.entries.map (Entry.map f), t.closed⟩

/-- What is listed of the tokens. -/
def tokens (t : Transcript α) : List α := t.entries.filterMap Entry.token?

@[simp] theorem prepend_prepend (l m : List (Entry α)) (t : Transcript α) :
    (t.prepend m).prepend l = t.prepend (l ++ m) := by
  simp [prepend]

theorem prepend_eq_iff {l entries : List (Entry α)} {closed : Bool} {t : Transcript α} :
    t.prepend l = ⟨entries, closed⟩ ↔ ∃ after, entries = l ++ after ∧ t = ⟨after, closed⟩ := by
  constructor
  · intro h
    cases h
    exact ⟨t.entries, rfl, rfl⟩
  · rintro ⟨after, rfl, rfl⟩
    rfl

theorem tokens_prepend (entries : List (Entry α)) (t : Transcript α) :
    (t.prepend entries).tokens = entries.filterMap Entry.token? ++ t.tokens :=
  List.filterMap_append

@[simp 1100] theorem tokens_prepend_comment (body : String) (t : Transcript α) :
    (t.prepend [.comment body]).tokens = t.tokens := rfl

@[simp 1100] theorem tokens_prepend_token (value : α) (t : Transcript α) :
    (t.prepend [.token value]).tokens = value :: t.tokens := rfl

@[simp] theorem map_prepend (f : α → β) (entries : List (Entry α)) (t : Transcript α) :
    (t.prepend entries).map f = (t.map f).prepend (entries.map (Entry.map f)) := by
  simp [prepend, map]

theorem tokens_map (f : α → β) (t : Transcript α) : (t.map f).tokens = t.tokens.map f :=
  filterMap_token?_map f t.entries

end Transcript

theorem Position.advance_split {text source rest : List Char} (h : text = source ++ rest)
    (place : Position) (more : List Char) :
    (place.advance source).advance (rest ++ more) = place.advance (text ++ more) := by
  rw [h, List.append_assoc]
  exact (advance_append place source (rest ++ more)).symm

/-- The place `p` of a text, when the text stands behind `before`. -/
def Position.behind (before : List Char) (p : Position) : Position :=
  ⟨byteLength before + p.offset, lineFeeds before + p.line⟩

theorem Position.behind_start (before : List Char) :
    start.behind before = start.advance before := by
  simp [behind, advance, start, Nat.add_comm]

theorem Position.behind_advance (before text : List Char) (p : Position) :
    (p.advance text).behind before = (p.behind before).advance text := by
  simp [behind, advance, Nat.add_assoc]

namespace Lexicon

variable {Token α β : Type} (L : Lexicon Token) (view : Bool → Position → Token → α)

/-- The transcript of a text, the first character of which is at `place`. `glued` says that no gap
comes before it, and `view` what is listed of a token. -/
def transcript (glued : Bool) (place : Position) (text : List Char) : Transcript α :=
  match text with
  | [] => ⟨[], true⟩
  | c :: more =>
    if isBlank c then transcript false (place.advance [c]) more
    else
      match _h : L.comment (c :: more) with
      | .found body source rest =>
        (transcript false (place.advance source) rest).prepend [.comment body]
      | .unclosed _ _ => ⟨[], false⟩
      | .absent =>
        let piece := L.token c more
        (transcript true (place.advance piece.source) piece.rest).prepend
          [.token (view glued place piece.token)]
termination_by text.length
decreasing_by
  · simp
  · exact (L.comment_isSplitOf _).length_lt _h
  · exact (L.token_isSplitOf c more).length_lt

variable {L view} {glued : Bool} {place : Position} {c : Char} {text more source rest : List Char}
  {body : String} {token : Token}

/-! ## One construct -/

@[simp] theorem transcript_nil : L.transcript view glued place [] = ⟨[], true⟩ := by
  rw [transcript]

theorem transcript_blank (hc : isBlank c = true) : L.transcript view glued place (c :: more) =
    L.transcript view false (place.advance [c]) more := by
  rw [transcript, if_pos hc]

theorem transcript_comment (hc : isBlank c = false)
    (hr : L.comment (c :: more) = .found body source rest) :
    L.transcript view glued place (c :: more) =
      (L.transcript view false (place.advance source) rest).prepend [.comment body] := by
  rw [transcript, if_neg (by simp [hc])]
  split <;> simp_all

theorem transcript_unclosed (hc : isBlank c = false)
    (hr : L.comment (c :: more) = .unclosed source rest) :
    L.transcript view glued place (c :: more) = ⟨[], false⟩ := by
  rw [transcript, if_neg (by simp [hc])]
  split <;> simp_all

theorem transcript_token (hc : isBlank c = false) (hr : L.comment (c :: more) = .absent)
    (ht : L.token c more = ⟨token, source, rest⟩) : L.transcript view glued place (c :: more) =
      (L.transcript view true (place.advance source) rest).prepend
        [.token (view glued place token)] := by
  rw [transcript, if_neg (by simp [hc])]
  split <;> simp_all

/-! ## A gap -/

theorem transcript_blanks {blanks : List Char} (hb : ∀ c ∈ blanks, isBlank c = true) :
    L.transcript view glued place (blanks ++ text) =
      L.transcript view (glued && blanks.isEmpty) (place.advance blanks) text := by
  induction blanks generalizing glued place with
  | nil => simp
  | cons c blanks ih =>
    obtain ⟨hc, hb⟩ := List.forall_mem_cons.1 hb
    rw [List.cons_append, transcript_blank hc, ih hb, ← Position.advance_append]
    simp

theorem isBlank_eq_false_of_dropWhile (h : text.dropWhile isBlank = c :: more) :
    isBlank c = false := by
  have := List.head?_dropWhile_not isBlank text
  rwa [h] at this

theorem transcript_dropWhile : L.transcript view glued place text =
    L.transcript view (glued && (text.takeWhile isBlank).isEmpty)
      (place.advance (text.takeWhile isBlank)) (text.dropWhile isBlank) := by
  have hb : ∀ c ∈ text.takeWhile isBlank, isBlank c = true := fun _ => List.mem_takeWhile_imp
  rw [← transcript_blanks hb, List.takeWhile_append_dropWhile]

theorem eq_cons_of_comment {r : Recognition String} (h : L.comment text = r) (hr : r ≠ .absent) :
    ∃ c more, text = c :: more := by
  cases text with
  | cons c more => exact ⟨c, more, rfl⟩
  | nil =>
    have hs := L.comment_isSplitOf []
    rw [h] at hs
    cases r with
    | absent => exact absurd rfl hr
    | found => simp [Recognition.IsSplitOf] at hs; exact absurd hs.1.1 hs.2
    | unclosed => simp [Recognition.IsSplitOf] at hs; exact absurd hs.1.1 hs.2

/-- A gap ends where there is neither a blank nor a comment. -/
theorem gap_stops {g : Gap} (hg : L.gap text = some g) (hr : g.rest = c :: more) :
    isBlank c = false ∧ L.comment (c :: more) = .absent := by
  fun_induction L.gap text generalizing g with
  | case1 text body source rest hc g' hg' ih => cases hg; exact ih hg' hr
  | case2 => cases hg
  | case3 text hc => cases hg; exact ⟨isBlank_eq_false_of_dropWhile hr, hr ▸ hc⟩
  | case4 => cases hg

/-- The transcript of a text lists the comments of the gap at its start and then the rest. -/
theorem transcript_gap {g : Gap} (hg : L.gap text = some g) : L.transcript view glued place text =
    (L.transcript view (glued && g.source.isEmpty) (place.advance g.source) g.rest).prepend
      (g.comments.map .comment) := by
  fun_induction L.gap text generalizing glued place g with
  | case1 text body source rest hr g' hg' ih =>
    cases hg
    obtain ⟨c, more, hd⟩ := eq_cons_of_comment hr (by simp)
    have hs := ((L.comment_isSplitOf _).of_found hr).2
    have he : (text.takeWhile isBlank ++ source ++ g'.source).isEmpty = false := by
      simp [hs]
    rw [hd] at hr
    rw [transcript_dropWhile, hd, transcript_comment (isBlank_eq_false_of_dropWhile hd) hr, ih hg']
    simp only [he, Bool.false_and, Bool.and_false, Transcript.prepend_prepend,
      Position.advance_append]
    rfl
  | case2 => cases hg
  | case3 text => cases hg; exact transcript_dropWhile
  | case4 => cases hg

theorem transcript_of_gap_eq_none (hg : L.gap text = none) :
    ∃ comments : List String,
      L.transcript view glued place text = ⟨comments.map .comment, false⟩ := by
  fun_induction L.gap text generalizing glued place with
  | case1 => cases hg
  | case2 text body source rest hr hg' ih =>
    obtain ⟨c, more, hd⟩ := eq_cons_of_comment hr (by simp)
    rw [hd] at hr
    obtain ⟨comments, hc⟩ := @ih false ((place.advance (text.takeWhile isBlank)).advance source) hg'
    refine ⟨body :: comments, ?_⟩
    rw [transcript_dropWhile, hd, transcript_comment (isBlank_eq_false_of_dropWhile hd) hr, hc]
    rfl
  | case3 => cases hg
  | case4 text source rest hr =>
    obtain ⟨c, more, hd⟩ := eq_cons_of_comment hr (by simp)
    rw [hd] at hr
    refine ⟨[], ?_⟩
    rw [transcript_dropWhile, hd, transcript_unclosed (isBlank_eq_false_of_dropWhile hd) hr]
    rfl

/-- The text is made of blanks and complete comments. -/
inductive IsGap (L : Lexicon Token) : List Char → Prop where
  | nil : IsGap L []
  | blank {c : Char} {more : List Char} (hc : isBlank c = true) (h : IsGap L more) :
      IsGap L (c :: more)
  | comment {text source rest : List Char} {body : String}
      (hr : L.comment text = .found body source rest) (h : IsGap L rest) : IsGap L text

theorem not_isGap_cons (hb : isBlank c = false) (hr : L.comment (c :: more) = .absent) :
    ¬ L.IsGap (c :: more) := by
  intro h
  cases h with
  | blank hc => rw [hb] at hc; cases hc
  | comment hc => rw [hr] at hc; cases hc

/-- A text without tokens is a gap, if its comments end. -/
theorem isGap_of_transcript (hc : (L.transcript view glued place text).closed = true)
    (ht : (L.transcript view glued place text).tokens = []) : L.IsGap text := by
  fun_induction L.transcript view glued place text with
  | case1 => exact .nil
  | case2 glued place c more hb ih => exact .blank hb (ih hc ht)
  | case3 glued place c more hb body source rest hr ih => exact .comment hr (ih hc ht)
  | case4 => cases hc
  | case5 => cases ht

end Lexicon

/-! ## A whole text -/

/-- The entries of a lexeme in its place. -/
def Lexeme.placed {Token α : Type} (view : Bool → Position → Token → α) (lexeme : Lexeme Token) :
    List (Entry α) :=
  lexeme.comments.map .comment ++ [.token (view lexeme.glued lexeme.start lexeme.token)]

namespace Lexicon

variable {Token α β : Type} {L : Lexicon Token} {view : Bool → Position → Token → α}
  {glued : Bool} {place : Position} {text : List Char}

/-- A transcript lists what the lexemes hold. The comments after the last one are not kept if one
of them never ends. -/
theorem transcript_readFrom (L : Lexicon Token) (view : Bool → Position → Token → α)
    (place : Position) (text : List Char) : ∃ comments : List String,
    L.transcript view true place text =
      ⟨(L.readFrom place text).lexemes.flatMap (Lexeme.placed view) ++ comments.map .comment,
        (L.readFrom place text).trailing.isSome⟩ ∧
    ∀ kept ∈ (L.readFrom place text).trailing, kept = comments := by
  fun_induction L.readFrom place text with
  | case1 place text hg =>
    have hnone : ∃ comments : List String, L.transcript view true place text =
      ⟨comments.map .comment, false⟩ := transcript_of_gap_eq_none hg
    obtain ⟨comments, hc⟩ := hnone
    exact ⟨comments, by simpa using hc, by simp⟩
  | case2 place text g hg hr =>
    refine ⟨g.comments, ?_, by simp⟩
    rw [transcript_gap hg, hr]
    simp [Transcript.prepend]
  | case3 place text g hg c more hr start piece after lexeme ih =>
    obtain ⟨comments, hc, hk⟩ := ih
    obtain ⟨hb, hcomment⟩ := gap_stops hg hr
    have ht : L.token c more = ⟨piece.token, piece.source, piece.rest⟩ := rfl
    refine ⟨comments, ?_, hk⟩
    rw [transcript_gap hg, hr, transcript_token hb hcomment ht, hc]
    simp [Transcript.prepend, Lexeme.placed, lexeme, start, after]

/-- The tokens that a transcript lists are those of the lexemes. -/
theorem tokens_transcript : (L.transcript view true place text).tokens =
    (L.readFrom place text).lexemes.map fun lexeme =>
      view lexeme.glued lexeme.start lexeme.token := by
  obtain ⟨comments, hc, -⟩ := transcript_readFrom L view place text
  rw [hc, Transcript.tokens, List.filterMap_append, filterMap_token?_comments, List.append_nil]
  induction (L.readFrom place text).lexemes with
  | nil => rfl
  | cons lexeme more ih =>
    rw [List.flatMap_cons, List.filterMap_append, ih, Lexeme.placed, List.filterMap_append,
      filterMap_token?_comments]
    rfl

theorem closed_transcript : (L.transcript view true place text).closed =
    (L.readFrom place text).trailing.isSome := by
  obtain ⟨comments, hc, -⟩ := transcript_readFrom L view place text
  rw [hc]

/-! ## Other views and other places -/

theorem map_transcript (f : α → β) : (L.transcript view glued place text).map f =
    L.transcript (fun glued place token => f (view glued place token)) glued place text := by
  fun_induction L.transcript view glued place text with
  | case1 => rw [transcript_nil]; rfl
  | case2 glued place c more hc ih => rw [transcript_blank hc, ih]
  | case3 glued place c more hc body source rest hr ih =>
    rw [transcript_comment (by simpa using hc) hr, Transcript.map_prepend, ih]
    rfl
  | case4 glued place c more hc source rest hr =>
    rw [transcript_unclosed (by simpa using hc) hr]
    rfl
  | case5 glued place c more hc hr piece ih =>
    have ht : L.token c more = ⟨piece.token, piece.source, piece.rest⟩ := rfl
    rw [transcript_token (by simpa using hc) hr ht, Transcript.map_prepend, ih]
    rfl

/-- If places are not listed, it does not matter where the text stands. -/
theorem transcript_congr_place (hv : ∀ glued p q token, view glued p token = view glued q token)
    (place' : Position) :
    L.transcript view glued place text = L.transcript view glued place' text := by
  fun_induction L.transcript view glued place text generalizing place' with
  | case1 => rw [transcript_nil]
  | case2 glued place c more hc ih => rw [transcript_blank hc, ih]
  | case3 glued place c more hc body source rest hr ih =>
    rw [transcript_comment (by simpa using hc) hr, ih]
  | case4 glued place c more hc source rest hr => rw [transcript_unclosed (by simpa using hc) hr]
  | case5 glued place c more hc hr piece ih =>
    have ht : L.token c more = ⟨piece.token, piece.source, piece.rest⟩ := rfl
    rw [transcript_token (by simpa using hc) hr ht, hv glued place place', ih]

/-- A gap before a text shows only in a token that comes right behind it. -/
theorem transcript_congr_glued {glued' : Bool}
    (hv : ∀ c more, text = c :: more → isBlank c = false → L.comment (c :: more) = .absent →
      view glued place (L.token c more).token = view glued' place (L.token c more).token) :
    L.transcript view glued place text = L.transcript view glued' place text := by
  cases text with
  | nil => rw [transcript_nil, transcript_nil]
  | cons c more =>
    cases hc : isBlank c with
    | true => rw [transcript_blank hc, transcript_blank hc]
    | false =>
      cases hr : L.comment (c :: more) with
      | found => rw [transcript_comment hc hr, transcript_comment hc hr]
      | unclosed => rw [transcript_unclosed hc hr, transcript_unclosed hc hr]
      | absent => rw [transcript_token hc hr rfl, transcript_token hc hr rfl, hv c more rfl hc hr]

/-- A text is read in the same way wherever it stands. -/
theorem transcript_behind (before : List Char) :
    L.transcript view glued (place.behind before) text =
      L.transcript (fun glued place token => view glued (place.behind before) token) glued place
        text := by
  fun_induction L.transcript (fun glued place token => view glued (place.behind before) token) glued
    place text with
  | case1 => rw [transcript_nil]
  | case2 glued place c more hc ih => rw [transcript_blank hc, ← Position.behind_advance, ih]
  | case3 glued place c more hc body source rest hr ih =>
    rw [transcript_comment (by simpa using hc) hr, ← Position.behind_advance, ih]
  | case4 glued place c more hc source rest hr => rw [transcript_unclosed (by simpa using hc) hr]
  | case5 glued place c more hc hr piece ih =>
    have ht : L.token c more = ⟨piece.token, piece.source, piece.rest⟩ := rfl
    rw [transcript_token (by simpa using hc) hr ht, ← Position.behind_advance, ih]

end Lexicon

end GrammarText
