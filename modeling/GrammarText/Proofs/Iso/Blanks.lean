import GrammarText.Proofs.Iso.Appending
import GrammarText.Proofs.Iso.Outline

/-!
# Blanks between ISO tokens

Where one token ends and the next begins, it does not matter how many blanks there are or which. One
can do without any if the two characters they part do not run into each other.
-/

namespace GrammarText.Iso

/-! ## Comments and tokens without places -/

/-- The comments and tokens of a text. -/
def contents (text : List Char) : Transcript Token :=
  lexicon.transcript (fun _ _ token => token) true .start text

variable {c : Char} {body name : String} {text more source rest blanks next : List Char}
  {token : Token}

theorem transcript_eq_contents {glued : Bool} {place : Position} :
    lexicon.transcript (fun _ _ token => token) glued place text = contents text := by
  rw [contents, Lexicon.transcript_congr_place (fun _ _ _ _ => rfl) .start]
  exact Lexicon.transcript_congr_glued fun _ _ _ _ _ => rfl

theorem contents_blank (hc : isBlank c = true) : contents (c :: more) = contents more := by
  rw [contents, Lexicon.transcript_blank hc, transcript_eq_contents]

theorem contents_blanks (hb : ∀ c ∈ blanks, isBlank c = true) :
    contents (blanks ++ text) = contents text := by
  rw [contents, Lexicon.transcript_blanks hb, transcript_eq_contents]

theorem contents_comment (hc : isBlank c = false)
    (hr : comment (c :: more) = .found body source rest) :
    contents (c :: more) = (contents rest).prepend [.comment body] := by
  rw [contents, Lexicon.transcript_comment hc hr, transcript_eq_contents]

theorem contents_token (hc : isBlank c = false) (hr : comment (c :: more) = .absent)
    (ht : Token.read c more = ⟨token, source, rest⟩) :
    contents (c :: more) = (contents rest).prepend [.token token] := by
  rw [contents, Lexicon.transcript_token hc hr ht, transcript_eq_contents]

/-! ## Texts that go on -/

theorem contents_comment_append (hc : isBlank c = false)
    (hr : comment (c :: more) = .found body source rest) (next : List Char) :
    contents (c :: more ++ next) = (contents (rest ++ next)).prepend [.comment body] :=
  contents_comment hc (comment_append next hr)

theorem contents_token_append (hc : isBlank c = false) (hr : comment (c :: more) = .absent)
    (ht : Token.read c more = ⟨token, source, rest⟩) (hu : token ≠ .unclosed)
    (hn : GoesOn token source rest next) :
    contents (c :: more ++ next) = (contents (rest ++ next)).prepend [.token token] :=
  contents_token hc (comment_append_of_absent hr ht hn) (Token.read_append ht hu hn)

theorem goesOn_of_apart (ht : Token.read c more = ⟨token, source, rest⟩)
    (hend : ¬ (rest = [] ∧ token.isName = true)) (ha : Apart (c :: more) next) :
    GoesOn token source rest next := by
  by_cases hr : rest = []
  · subst hr
    obtain ⟨tail, rfl, rfl⟩ := Token.source_eq ht
    rw [List.append_nil] at ha
    exact .inr ⟨by simpa using hend, ha⟩
  · exact .inl hr

/-! ## Blanks after a text -/

/-- The blanks after a name belong to it, and so does what goes on with it behind them. -/
theorem metaName_append_blanks (h : metaName text = .found name text [])
    (hb : ∀ c ∈ blanks, isBlank c = true) : ∃ source, metaName (text ++ (blanks ++ next)) =
      .found (String.ofList ((text ++ next.takeWhile continuesName).filter fun d => !isBlank d))
        source (next.dropWhile continuesName) := by
  obtain ⟨c, tail, hl, ht, -, -, rfl, -⟩ := metaName_eq_found_iff.1 h
  have hfilter : blanks.filter (fun d => !isBlank d) = [] :=
    List.filter_eq_nil_iff.2 fun d hd => by simp [hb d hd]
  refine ⟨c :: (tail ++ (blanks ++ next.takeWhile continuesName)),
    metaName_eq_found_iff.2 ⟨c, _, hl, ?_, not_of_head?_dropWhile, ?_, rfl, ?_⟩⟩
  · intro d hd
    rcases List.mem_append.1 hd with hd | hd
    · exact ht d hd
    · rcases List.mem_append.1 hd with hd | hd
      · simp [continuesName, hb d hd]
      · exact List.mem_takeWhile_imp hd
  · rw [← List.cons_append, List.filter_append, List.filter_append, List.filter_append, hfilter,
      List.nil_append]
  · simp

theorem contents_append_blanks_of_name (hc : isBlank c = false)
    (h : Token.read c more = ⟨.name name, source, []⟩) (hb : ∀ c ∈ blanks, isBlank c = true) :
    contents (c :: more ++ (blanks ++ next)) = (contents (next.dropWhile continuesName)).prepend
      [.token (.name (String.ofList
        ((c :: more ++ next.takeWhile continuesName).filter fun d => !isBlank d)))] := by
  have hn := Token.metaName_of_read h
  obtain rfl : c :: more = source := by simpa using ((metaName_isSplitOf _).of_found hn).1
  obtain ⟨source, hm⟩ : ∃ source, metaName (c :: more ++ (blanks ++ next)) = .found _ source _ :=
    metaName_append_blanks hn hb
  have hcomment : comment (c :: (more ++ (blanks ++ next))) = .absent := by
    obtain ⟨_, _, hl, -, -, -, he, -⟩ := metaName_eq_found_iff.1 hn
    cases he
    exact comment_cons_eq_absent (ne_of_class rfl hl)
  exact contents_token hc hcomment (Token.read_of_metaName hm)

/-- The blanks after a text that ends outside comments and passages can be changed. -/
theorem contents_append_blanks {glued : Bool} {entries : List (Entry Token)}
    {blanks blanks' : List Char} (h : lexicon.Spells (fun _ token => token) glued text entries)
    (hu : ∀ token ∈ entries.filterMap Entry.token?, token.role ≠ .unclosed)
    (hb : ∀ c ∈ blanks, isBlank c = true) (hb' : ∀ c ∈ blanks', isBlank c = true)
    (ha : Apart text (blanks ++ next)) (ha' : Apart text (blanks' ++ next)) :
    contents (text ++ (blanks ++ next)) = contents (text ++ (blanks' ++ next)) := by
  induction h with
  | nil => rw [List.nil_append, List.nil_append, contents_blanks hb, contents_blanks hb']
  | @blank _ c more _ hc _ ih =>
    have happend : c :: more = [c] ++ more := rfl
    rw [List.cons_append, List.cons_append, contents_blank hc, contents_blank hc]
    rw [happend] at ha ha'
    exact ih hu ha.of_append ha'.of_append
  | comment hc hr _ ih =>
    rw [contents_comment_append hc hr, contents_comment_append hc hr]
    rw [((comment_isSplitOf _).of_found hr).1] at ha ha'
    rw [ih hu ha.of_append ha'.of_append]
  | @token _ c more source rest token _ hc hr ht _ ih =>
    obtain ⟨hrole, hu⟩ := List.forall_mem_cons.1 hu
    by_cases hend : rest = [] ∧ token.isName = true
    · -- A name takes the blanks behind it, and drops them.
      obtain ⟨rfl, hname⟩ := hend
      cases token with
      | name name =>
        rw [contents_append_blanks_of_name hc ht hb, contents_append_blanks_of_name hc ht hb']
      | _ => cases hname
    · have hunclosed : token ≠ .unclosed := by
        rintro rfl
        exact hrole rfl
      rw [contents_token_append hc hr ht hunclosed (goesOn_of_apart ht hend ha),
        contents_token_append hc hr ht hunclosed (goesOn_of_apart ht hend ha')]
      obtain ⟨tail, rfl, rfl⟩ := Token.source_eq ht
      rw [← List.cons_append] at ha ha'
      rw [ih hu ha.of_append ha'.of_append]

/-! ## Whole texts -/

theorem apart_blanks (hb : ∀ c ∈ blanks, isBlank c = true)
    (hn : blanks = [] → Apart text next) : Apart text (blanks ++ next) := by
  cases blanks with
  | nil => exact hn rfl
  | cons c blanks => exact apart_of_isBlank (hb c (by simp))

/-- Outside comments, terminals and special sequences any blanks are as good as any others, and as
good as none if what they part does not run into each other. -/
theorem Grammar.parse_blanks {before blanks blanks' after : String}
    (ho : outline.endsOutside before.toList = true) (hne : blanks ≠ "")
    (hb : ∀ c ∈ blanks.toList, isBlank c = true) (hb' : ∀ c ∈ blanks'.toList, isBlank c = true)
    (ha : blanks' = "" → Apart before.toList after.toList) :
    Agree Grammar.onLineOne (Grammar.parse (before ++ blanks ++ after))
      (Grammar.parse (before ++ blanks' ++ after)) := by
  obtain ⟨entries, hs, hu⟩ := outline_describes.exists_spells true ho
  have hc := contents_append_blanks hs hu hb hb'
    (apart_blanks hb fun h => absurd (String.toList_eq_nil_iff.1 h) hne)
    (apart_blanks hb' fun h => ha (String.toList_eq_nil_iff.1 h))
  rw [agree_iff, ← outcome_parse, ← outcome_parse]
  simp only [String.toList_append, List.append_assoc]
  exact congrArg Grammar.outcome hc

def repetitionAlone : Grammar :=
  ⟨[⟨"ab", 1, [],
    [[⟨⟨[], some 2, .sequence .grouped [[⟨.ofPrimary (.terminal "x"), none⟩]]⟩, none⟩],
      [⟨⟨["y"], some 7, .name "d"⟩, none⟩]]⟩], []⟩

/-- Blanks between a count and its mark make no difference, and a fault stays the same fault. -/
theorem Grammar.parse_blanks_in_repetition :
    outline.endsOutside "a\nb = 2 * ('x' ) | 7".toList = true ∧ "\n\u2003" ≠ "" ∧
      (∀ c ∈ "\n\u2003".toList, isBlank c = true) ∧
        (Apart "a\nb = 2 * ('x' ) | 7".toList "* (* y *) d ;".toList ∧
          Agree Grammar.onLineOne
            (Grammar.parse ("a\nb = 2 * ('x' ) | 7" ++ "\n\u2003" ++ "* (* y *) d ;"))
            (Grammar.parse ("a\nb = 2 * ('x' ) | 7" ++ "" ++ "* (* y *) d ;")) ∧
          Grammar.parse "a\nb = 2 * ('x' ) | 7\n\u2003* (* y *) d ;" = .ok repetitionAlone ∧
          Grammar.parse "a\nb = 2 * ('x' ) | 7* (* y *) d ;" = .ok repetitionAlone) ∧
        Apart "a\nb = 2 * ('x' ) | 7".toList "- d ;".toList ∧
          Agree Grammar.onLineOne
            (Grammar.parse ("a\nb = 2 * ('x' ) | 7" ++ "\n\u2003" ++ "- d ;"))
            (Grammar.parse ("a\nb = 2 * ('x' ) | 7" ++ "" ++ "- d ;")) ∧
          Grammar.parse "a\nb = 2 * ('x' ) | 7\n\u2003- d ;" =
            .error ⟨.expectedRepetition, ⟨24, 3⟩, some ⟨"ab", 1⟩⟩ ∧
          Grammar.parse "a\nb = 2 * ('x' ) | 7- d ;" =
            .error ⟨.expectedRepetition, ⟨20, 2⟩, some ⟨"ab", 1⟩⟩ := by
  have ho : outline.endsOutside "a\nb = 2 * ('x' ) | 7".toList = true := by
    with_unfolding_all rfl
  have hb : ∀ c ∈ "\n\u2003".toList, isBlank c = true := List.all_eq_true.1 rfl
  have hstar : Apart "a\nb = 2 * ('x' ) | 7".toList "* (* y *) d ;".toList := by
    rintro _ ⟨⟩ _ ⟨⟩
    rfl
  have hminus : Apart "a\nb = 2 * ('x' ) | 7".toList "- d ;".toList := by
    rintro _ ⟨⟩ _ ⟨⟩
    rfl
  refine ⟨ho, by decide, hb,
    ⟨hstar, parse_blanks ho (by decide) hb (by simp) fun _ => hstar, ?_, ?_⟩,
    hminus, parse_blanks ho (by decide) hb (by simp) fun _ => hminus, ?_, ?_⟩
  all_goals with_unfolding_all rfl

end GrammarText.Iso
