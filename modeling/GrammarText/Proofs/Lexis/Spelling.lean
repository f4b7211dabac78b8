import GrammarText.Proofs.Lexis.Transcript

/-!
# What a text spells

A text spells a row of comments and tokens. `Lexicon.Spells` says so one character or construct at a
time, without places; `spells_iff_transcript` says that this is what the transcript of the text
lists.
-/

namespace GrammarText

variable {Token α : Type}

namespace Lexicon

variable (L : Lexicon Token) (view : Bool → Token → α)

/-- The entries that a text spells. The first argument says that no gap comes before the text. -/
inductive Spells : Bool → List Char → List (Entry α) → Prop where
  | nil {glued : Bool} : Spells glued [] []
  | blank {glued : Bool} {c : Char} {more : List Char} {entries : List (Entry α)}
      (hc : isBlank c = true) (h : Spells false more entries) : Spells glued (c :: more) entries
  | comment {glued : Bool} {c : Char} {more source rest : List Char} {body : String}
      {entries : List (Entry α)} (hc : isBlank c = false)
      (hr : L.comment (c :: more) = .found body source rest) (h : Spells false rest entries) :
      Spells glued (c :: more) (.comment body :: entries)
  | token {glued : Bool} {c : Char} {more source rest : List Char} {token : Token}
      {entries : List (Entry α)} (hc : isBlank c = false) (hr : L.comment (c :: more) = .absent)
      (ht : L.token c more = ⟨token, source, rest⟩) (h : Spells true rest entries) :
      Spells glued (c :: more) (.token (view glued token) :: entries)

variable {L view} {glued : Bool} {c : Char} {text more source rest : List Char}
  {entries : List (Entry α)} {body : String} {token : Token}

/-! ## One construct -/

theorem spells_blank_iff (hc : isBlank c = true) :
    L.Spells view glued (c :: more) entries ↔ L.Spells view false more entries := by
  constructor
  · intro h
    cases h with
    | blank _ h => exact h
    | comment hc' => simp [hc] at hc'
    | token hc' => simp [hc] at hc'
  · exact .blank hc

theorem spells_token_iff (hc : isBlank c = false) (hr : L.comment (c :: more) = .absent)
    (ht : L.token c more = ⟨token, source, rest⟩) :
    L.Spells view glued (c :: more) entries ↔
      ∃ after, entries = .token (view glued token) :: after ∧ L.Spells view true rest after := by
  constructor
  · intro h
    cases h with
    | blank hc' => simp [hc] at hc'
    | comment _ hr' => cases hr.symm.trans hr'
    | token _ _ ht' h => cases ht.symm.trans ht'; exact ⟨_, rfl, h⟩
  · rintro ⟨after, rfl, h⟩
    exact .token hc hr ht h

theorem spells_blanks_iff {blanks : List Char} (hb : ∀ c ∈ blanks, isBlank c = true) :
    L.Spells view glued (blanks ++ text) entries ↔
      L.Spells view (glued && blanks.isEmpty) text entries := by
  induction blanks generalizing glued with
  | nil => simp
  | cons c blanks ih =>
    rw [List.cons_append, spells_blank_iff (hb c (by simp)), ih fun d hd => hb d (by simp [hd])]
    simp

/-! ## A gap -/

theorem spells_dropWhile_iff :
    L.Spells view glued text entries ↔
      L.Spells view (glued && (text.takeWhile isBlank).isEmpty) (text.dropWhile isBlank)
        entries := by
  have hb : ∀ c ∈ text.takeWhile isBlank, isBlank c = true := fun _ => List.mem_takeWhile_imp
  rw [← spells_blanks_iff hb, List.takeWhile_append_dropWhile]

/-! ## A whole text -/

/-- A text spells what its transcript lists, unless it ends within a comment. -/
theorem spells_iff_transcript {place : Position} : L.Spells view glued text entries ↔
    L.transcript (fun glued _ token => view glued token) glued place text = ⟨entries, true⟩ := by
  constructor
  · intro h
    induction h generalizing place with
    | nil => exact transcript_nil
    | blank hc _ ih => rw [transcript_blank hc, ih]
    | comment hc hr _ ih => rw [transcript_comment hc hr, ih]; rfl
    | token hc hr ht _ ih => rw [transcript_token hc hr ht, ih]; rfl
  · intro h
    fun_induction L.transcript (fun glued _ token => view glued token) glued place text
      generalizing entries with
    | case1 => cases h; exact .nil
    | case2 glued place c more hc ih => exact .blank hc (ih h)
    | case3 glued place c more hc body source rest hr ih =>
      obtain ⟨after, rfl, ht⟩ := Transcript.prepend_eq_iff.1 h
      exact .comment (by simpa using hc) hr (ih ht)
    | case4 => cases h
    | case5 glued place c more hc hr piece =>
      rename_i ih
      obtain ⟨after, rfl, ht⟩ := Transcript.prepend_eq_iff.1 h
      exact .token (by simpa using hc) hr rfl (ih ht)

/-- A text that does not end within a comment spells something. -/
theorem exists_spells_of_trailing (view : Bool → Token → α) {comments : List String}
    (h : (L.read text).trailing = some comments) : ∃ entries, L.Spells view true text entries := by
  have hc : (L.transcript (fun glued _ token => view glued token) true .start text).closed =
      true := by
    rw [closed_transcript, ← read, h]
    rfl
  exact ⟨_, spells_iff_transcript.2 (congrArg (Transcript.mk _) hc)⟩

end Lexicon

end GrammarText
