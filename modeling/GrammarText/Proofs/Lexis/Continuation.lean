import GrammarText.Lexis.Comment
import GrammarText.Lexis.Word

/-!
# Text that goes on

A construct that has ended is recognised in the same way whatever text follows it.
-/

namespace GrammarText

/-! ## Marks -/

theorem afterMark?_self_append (mark text : List Char) :
    afterMark? mark (mark ++ text) = some text := by
  induction mark with
  | nil => rfl
  | cons c mark ih => simpa [afterMark?] using ih

theorem afterMark?_append {mark text after : List Char} (more : List Char)
    (h : afterMark? mark text = some after) :
    afterMark? mark (text ++ more) = some (after ++ more) := by
  rw [eq_append_of_afterMark? h, List.append_assoc]
  exact afterMark?_self_append _ _

/-- A text that is as long as the mark already shows that it does not start with it. -/
theorem afterMark?_append_of_none {mark text : List Char} (more : List Char)
    (h : afterMark? mark text = none) (hl : mark.length ≤ text.length) :
    afterMark? mark (text ++ more) = none := by
  induction mark generalizing text with
  | nil => simp [afterMark?] at h
  | cons m mark ih =>
    cases text with
    | nil => simp at hl
    | cons c text =>
      simp only [afterMark?, List.cons_append] at h ⊢
      split
      · next hmc => exact ih (by simpa [hmc] using h) (by simpa using hl)
      · rfl

/-- The first mark in a text is the first whatever comes after it. -/
theorem splitAround?_again {mark text before after : List Char}
    (h : splitAround? mark text = some (before, after)) (next : List Char) :
    splitAround? mark (before ++ mark ++ next) = some (before, next) := by
  induction text generalizing before with
  | nil =>
    rw [splitAround?] at h
    split at h
    · cases h; rw [List.nil_append, splitAround?.eq_def, afterMark?_self_append]
    · cases h
  | cons c text ih =>
    rw [splitAround?] at h
    split at h
    · cases h; rw [List.nil_append, splitAround?.eq_def, afterMark?_self_append]
    · next hp =>
      split at h
      · next before _ hs =>
        cases h
        -- The mark does not start at `c`, and the text up to the end of the mark shows that.
        have hn : afterMark? mark (c :: before ++ mark) = none := by
          refine Option.eq_none_iff_forall_not_mem.2 fun rest hr => ?_
          have := afterMark?_append after hr
          rw [List.cons_append, List.cons_append, ← eq_append_of_splitAround? hs, hp] at this
          cases this
        have hl : mark.length ≤ (c :: before ++ mark).length := by simp; omega
        have := afterMark?_append_of_none next hn hl
        rw [List.cons_append, List.cons_append] at this ⊢
        rw [splitAround?.eq_def, this]
        simp only [ih hs]
      · cases h

theorem splitAround?_append {mark text before after : List Char} (more : List Char)
    (h : splitAround? mark text = some (before, after)) :
    splitAround? mark (text ++ more) = some (before, after ++ more) := by
  rw [eq_append_of_splitAround? h, List.append_assoc]
  exact splitAround?_again h _

/-! ## What a recogniser answers -/

namespace Recognition

variable {α β : Type}

theorem map_eq_found {f : α → β} {r : Recognition α} {value : β} {source rest : List Char}
    (h : r.map f = .found value source rest) : ∃ a, r = .found a source rest ∧ f a = value := by
  cases r with
  | found a _ _ => cases h; exact ⟨a, rfl, rfl⟩
  | absent => cases h
  | unclosed => cases h

@[simp] theorem map_eq_unclosed_iff {f : α → β} {r : Recognition α} {source rest : List Char} :
    r.map f = .unclosed source rest ↔ r = .unclosed source rest := by
  cases r <;> simp [map]

@[simp] theorem map_eq_absent_iff {f : α → β} {r : Recognition α} :
    r.map f = .absent ↔ r = .absent := by
  cases r <;> simp [map]

@[simp] theorem orElse_eq_absent_iff {r : Recognition α} {other : Unit → Recognition α} :
    r.orElse other = .absent ↔ r = .absent ∧ other () = .absent := by
  cases r <;> simp [orElse]

theorem orElse_eq_found {r : Recognition α} {other : Unit → Recognition α} {value : α}
    {source rest : List Char} (h : r.orElse other = .found value source rest) :
    r = .found value source rest ∨ r = .absent ∧ other () = .found value source rest := by
  cases r with
  | absent => exact .inr ⟨rfl, h⟩
  | found => exact .inl h
  | unclosed => cases h

end Recognition

/-! ## Runs of a class -/

theorem takeWhile_append_of_stop {p : Char → Bool} {c : Char} (hc : p c = false)
    (text more : List Char) : (text ++ c :: more).takeWhile p = text.takeWhile p := by
  induction text with
  | nil => simp [hc]
  | cons d text ih => by_cases hd : p d <;> simp [hd, ih]

theorem dropWhile_append_of_stop {p : Char → Bool} {c : Char} (hc : p c = false)
    (text more : List Char) : (text ++ c :: more).dropWhile p = text.dropWhile p ++ c :: more := by
  induction text with
  | nil => simp [hc]
  | cons d text ih => by_cases hd : p d <;> simp [hd, ih]

@[simp] theorem run_ne_unclosed {p : Char → Bool} {text source rest : List Char} :
    run p text ≠ .unclosed source rest := by
  unfold run
  split <;> simp

@[simp] theorem metaName_ne_unclosed {text source rest : List Char} :
    metaName text ≠ .unclosed source rest := by
  cases text with
  | nil => simp [metaName]
  | cons c text => simp only [metaName]; split <;> simp

theorem run_append {p : Char → Bool} {c : Char} {text value source rest : List Char}
    (more : List Char) (hc : p c = false) (h : run p text = .found value source rest) :
    run p (text ++ c :: more) = .found value source (rest ++ c :: more) := by
  unfold run at h ⊢
  rw [takeWhile_append_of_stop hc, dropWhile_append_of_stop hc]
  split at h
  · cases h
  · cases h; rfl

theorem word_append {c : Char} {text source rest : List Char} {value : String}
    (more : List Char) (hc : c.isAlpha = false) (h : word text = .found value source rest) :
    word (text ++ c :: more) = .found value source (rest ++ c :: more) := by
  obtain ⟨letters, hr, rfl⟩ := Recognition.map_eq_found h
  rw [word, run_append more hc hr]
  rfl

@[simp] theorem word_cons_eq_absent_iff {c : Char} {text : List Char} :
    word (c :: text) = .absent ↔ c.isAlpha = false := by
  by_cases hc : c.isAlpha <;> simp [word, run, hc]

/-! ## Constructs between marks -/

theorem between_again {opening closing text value source rest : List Char}
    (h : between opening closing text = .found value source rest) (next : List Char) :
    source = opening ++ value ++ closing ∧
      between opening closing (value ++ closing ++ next) = .found value source next := by
  unfold between at h ⊢
  split at h
  · next hs => cases h; exact ⟨rfl, by rw [splitAround?_again hs next]⟩
  · cases h

theorem between_append {opening closing text value source rest : List Char} (more : List Char)
    (h : between opening closing text = .found value source rest) :
    between opening closing (text ++ more) = .found value source (rest ++ more) := by
  unfold between at h ⊢
  split at h
  · next hs => cases h; rw [splitAround?_append more hs]
  · cases h

@[simp] theorem between_ne_absent {opening closing text : List Char} :
    between opening closing text ≠ .absent := by
  unfold between
  split <;> simp

theorem quotedText_append {text source rest : List Char} {value : String} (more : List Char)
    (h : quotedText text = .found value source rest) :
    quotedText (text ++ more) = .found value source (rest ++ more) := by
  cases text with
  | nil => cases h
  | cons c text =>
    simp only [quotedText, List.cons_append] at h ⊢
    split at h
    · next hq =>
      obtain ⟨body, hb, rfl⟩ := Recognition.map_eq_found h
      rw [if_pos hq, between_append more hb]
      rfl
    · cases h

@[simp] theorem quotedText_cons_eq_absent_iff {c : Char} {text : List Char} :
    quotedText (c :: text) = .absent ↔ isQuote c = false := by
  by_cases hc : isQuote c = true <;> simp [quotedText, hc]

@[simp] theorem specialSequence_cons_eq_absent_iff {c : Char} {text : List Char} :
    specialSequence (c :: text) = .absent ↔ c ≠ '?' := by
  unfold specialSequence
  split
  · next h => cases h; simp
  · next h => simpa using fun hc => h text (by rw [hc])

theorem blockComment_again {text source rest : List Char} {value : String}
    (h : blockComment text = .found value source rest) (next : List Char) :
    blockComment (source ++ next) = .found value source next := by
  unfold blockComment at h
  split at h
  · obtain ⟨body, hb, rfl⟩ := Recognition.map_eq_found h
    obtain ⟨hs, hb⟩ := between_again hb next
    have ht : source ++ next = '/' :: '*' :: (body ++ ['*', '/'] ++ next) := by simp [hs]
    rw [ht, blockComment, hb]
    rfl
  · cases h

theorem blockComment_append {text source rest : List Char} {value : String} (more : List Char)
    (h : blockComment text = .found value source rest) :
    blockComment (text ++ more) = .found value source (rest ++ more) := by
  rw [((blockComment_isSplitOf text).of_found h).1, List.append_assoc]
  exact blockComment_again h _

/-! ## Nested comments -/

/-- Whether a passage starts at a place can be told from its first character. -/
@[simp] theorem passage_cons_eq_absent_iff {c : Char} {text : List Char} :
    passage (c :: text) = .absent ↔ isQuote c = false ∧ c ≠ '?' := by
  simp [passage]

theorem CommentEnd.after_eq_closed {piece body rest : List Char} {e : CommentEnd}
    (h : e.after piece = .closed body rest) :
    ∃ inner, e = .closed inner rest ∧ piece ++ inner = body := by
  cases e with
  | closed inner _ => cases h; exact ⟨inner, rfl, rfl⟩
  | unclosed => cases h

theorem commentEnd_of_passage {depth : Nat} {c : Char} {text source rest : List Char}
    {value : String} (h : passage (c :: text) = .found value source rest) :
    commentEnd depth (c :: text) = (commentEnd depth rest).after source := by
  have hc : isQuote c = true ∨ c = '?' := by
    cases hq : isQuote c with
    | true => exact .inl rfl
    | false =>
      refine .inr (Decidable.byContradiction fun hne => ?_)
      have : passage (c :: text) = .absent := passage_cons_eq_absent_iff.2 ⟨hq, hne⟩
      simp [this] at h
  have hm : c ≠ '*' ∧ c ≠ '(' := by
    constructor <;> rintro rfl <;> revert hc <;> decide
  rw [commentEnd.eq_def]
  split
  · next h' => cases h'
  · next h' => cases h'; exact absurd rfl hm.1
  · next h' => cases h'; exact absurd rfl hm.2
  · next h' =>
    cases h'
    split <;> simp_all

theorem commentEnd_of_absent {depth : Nat} {c : Char} {text : List Char}
    (hp : passage (c :: text) = .absent) (hclose : ∀ more, c = '*' → text ≠ ')' :: more)
    (hopen : ∀ more, c = '(' → text ≠ '*' :: more) :
    commentEnd depth (c :: text) = (commentEnd depth text).after [c] := by
  rw [commentEnd.eq_def]
  split
  · next h' => cases h'
  · next h' => cases h'; exact absurd rfl (hclose _ rfl)
  · next h' => cases h'; exact absurd rfl (hopen _ rfl)
  · next h' =>
    cases h'
    split <;> simp_all

end GrammarText
