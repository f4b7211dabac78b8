import GrammarText.Proofs.Iso.Appending
import GrammarText.Proofs.Iso.Relocation
import GrammarText.Proofs.Iso.Tokenization

/-!
# One ISO grammar behind another

A text that is read as a grammar ends with a terminator, so it can be followed by any text, and that
is read as it is read alone. Only its places, its earlier rules and its first comments are others.
-/

namespace GrammarText.Iso

/-! ## Where a grammar may end -/

section Ends

variable {state last : State} {token : Token} {entries : List (Entry Token)}

theorem Body.Step.eq_terminator {body : Body} {comments left : List String}
    {definitions : DefinitionsList} (h : Body.Step body comments token left (.whole definitions)) :
    token = .terminator := by
  generalize hp : Progress.whole definitions = progress at h
  induction h with
  | terminator => rfl
  | empty _ ih => exact ih hp
  | _ => cases hp

theorem State.Step.eq_terminator (h : State.Step state (.token token) last)
    (hp : last.place = .between) : token = .terminator := by
  cases h with
  | rule hb => exact hb.eq_terminator
  | _ => cases hp

/-- A grammar whose rules are all complete ends with a terminator. -/
theorem State.eq_terminator_of_foldlM (h : entries.foldlM feed state = .ok last)
    (hp : last.place = .between) (hl : entries.getLast? = some (.token token)) :
    token = .terminator := by
  obtain ⟨init, rfl⟩ := List.getLast?_eq_some_iff.1 hl
  obtain ⟨next, -, hn⟩ := foldlM_append_eq_ok_iff.1 h
  obtain ⟨_, hs, hr⟩ := foldlM_cons_eq_ok_iff.1 hn
  cases hr
  exact (feed_eq_ok_iff.1 hs).eq_terminator hp

/-- Something of a rule has been read. -/
def State.Started (state : State) : Prop := state.place ≠ .between ∨ state.rules ≠ []

theorem State.Step.started_of_token (h : State.Step state (.token token) last) : last.Started := by
  cases h with
  | rule => exact .inr (by simp)
  | _ => exact .inl (by simp)

theorem State.Step.started {entry : Entry Token} (h : State.Step state entry last)
    (hs : state.Started) : last.Started := by
  cases entry with
  | comment => cases h; exact hs
  | token => exact h.started_of_token

theorem State.started_of_foldlM (h : entries.foldlM feed state = .ok last)
    (hm : .token token ∈ entries) : last.Started := by
  obtain ⟨init, more, rfl⟩ := List.append_of_mem hm
  obtain ⟨next, -, hn⟩ := foldlM_append_eq_ok_iff.1 h
  obtain ⟨_, hs, hr⟩ := foldlM_cons_eq_ok_iff.1 hn
  exact foldlM_invariant (q := fun _ => True) (fun hs _ hf => (feed_eq_ok_iff.1 hf).started hs)
    (feed_eq_ok_iff.1 hs).started_of_token (fun _ _ => trivial) hr

end Ends

/-! ## The entries of two texts -/

section Transcripts

variable {glued : Bool} {place : Position} {c : Char} {text more source rest next : List Char}
  {token : Token} {entries : List (Entry (Position × Token))}

theorem Token.apart_of_terminator (h : read c more = ⟨.terminator, source, rest⟩) :
    Apart source next := by
  cases reads h with
  | mark _ _ _ _ hm =>
    unfold ofMark at hm
    split at hm <;> cases hm <;> rintro _ ⟨⟩ d - <;> rfl

/-- What comes behind a terminator does not go on with it. -/
theorem Token.goesOn_of_terminator (h : read c more = ⟨token, source, rest⟩)
    (hend : rest = [] → token = .terminator) : GoesOn token source rest next := by
  by_cases hr : rest = []
  · rw [hend hr] at h ⊢
    exact .inr ⟨rfl, apart_of_terminator h⟩
  · exact .inl hr

/-- Behind a text that has ended with a terminator, the next text is listed as it is. -/
theorem transcript_append (h : lexicon.transcript placed glued place text = ⟨entries, true⟩)
    (hu : ∀ value ∈ entries.filterMap Entry.token?, value.2 ≠ .unclosed)
    (hl : ∀ value, entries.getLast? = some (.token value) → value.2 = .terminator) :
    lexicon.transcript placed glued place (text ++ next) =
      (lexicon.transcript placed true (place.advance text) next).prepend entries := by
  fun_induction lexicon.transcript placed glued place text generalizing entries with
  | case1 glued place =>
    cases h
    rw [List.nil_append, Position.advance_nil]
    exact Lexicon.transcript_congr_glued fun _ _ _ _ _ => rfl
  | case2 glued place c more hb ih =>
    rw [List.cons_append, Lexicon.transcript_blank hb, ih h hu hl, ← Position.advance_append]
    rfl
  | case3 glued place c more hb body source rest hr ih =>
    obtain ⟨after, rfl, hafter⟩ := Transcript.prepend_eq_iff.1 h
    have hcomment := comment_append next hr
    rw [List.cons_append] at hcomment ⊢
    rw [Lexicon.transcript_comment (by simpa using hb) hcomment,
      ih hafter hu fun value h => hl value (by simp [List.getLast?_cons, h]),
      Transcript.prepend_prepend, ((comment_isSplitOf _).of_found hr).1, Position.advance_append]
  | case4 => cases h
  | case5 glued place c more hb hr piece =>
    rename_i ih
    obtain ⟨after, rfl, hafter⟩ := Transcript.prepend_eq_iff.1 h
    have ht : Token.read c more = ⟨piece.token, piece.source, piece.rest⟩ := rfl
    obtain ⟨hunclosed, hu⟩ := List.forall_mem_cons.1 hu
    -- Only the last token meets the next text, and that token is a terminator.
    have hgoes : GoesOn piece.token piece.source piece.rest next := by
      refine Token.goesOn_of_terminator ht fun hrest => ?_
      rw [hrest, Lexicon.transcript_nil] at hafter
      cases hafter
      exact hl _ rfl
    rw [List.cons_append, Lexicon.transcript_token (by simpa using hb)
      (comment_append_of_absent hr ht hgoes) (Token.read_append ht hunclosed hgoes),
      ih hafter hu fun value h => hl value (by simp [List.getLast?_cons, h]),
      Transcript.prepend_prepend, (Token.read_isSplitOf c more).1, Position.advance_append]
    rfl

end Transcripts

/-! ## The state after a grammar -/

/-- The rules of the second grammar behind those of the first. The comments after the first grammar
are comments of the rule that comes next. -/
def Grammar.followedBy (first second : Grammar) : Grammar :=
  ⟨first.rules ++ second.rules.modifyHead (Rule.lead first.trailingComments),
    second.trailingComments⟩

/-- The state, when the text stands behind `before`, which has been read as `grammar`. -/
def State.after (before : List Char) (grammar : Grammar) (state : State) : State :=
  ((state.behind before).lead grammar.trailingComments).onto grammar.rules.reverse

section After

variable {before : List Char} {grammar : Grammar} {stop : Position} {state : State}

theorem State.readEntry_after (before : List Char) (grammar : Grammar) (stop : Position)
    (state : State) (entry : Entry (Position × Token)) :
    readEntry (stop.behind before) (state.after before grammar) (moved before entry) =
      ((readEntry stop state entry).map (after before grammar)).mapError
        (Diagnostic.behind before) := by
  rw [after, readEntry_onto, readEntry_lead, readEntry_behind]
  cases readEntry stop state entry <;> rfl

theorem State.rule?_after : (state.after before grammar).rule? =
    state.rule?.map (RuleContext.behind before) := by
  obtain ⟨rules, pending, place⟩ := state
  cases rules <;> cases place <;> rfl

theorem State.finish_after (before : List Char) (grammar : Grammar) (hs : state.Started) :
    (state.after before grammar).finish [] =
      (state.finish []).map fun next => grammar.followedBy (next.behind before) := by
  obtain ⟨rules, pending, place⟩ := state
  cases place with
  | named => cases rules <;> rfl
  | within => cases rules <;> rfl
  | between =>
    -- Without a rule there is none to take the comments, and the first grammar would end here.
    cases rules with
    | nil => simp [Started] at hs
    | cons first rules =>
      refine State.finish_eq_some_iff.2 ⟨rfl, ?_, ?_⟩
      · simp [after, onto, lead, behind, leadFirst]
      · simp [after, onto, lead, behind, leadFirst, Grammar.followedBy, Grammar.behind]

theorem State.conclude_after {closed : Bool} (hs : closed = true → state.Started) :
    reader.conclude (stop.behind before) (if closed then some [] else none)
        (state.after before grammar) =
      ((reader.conclude stop (if closed then some [] else none) state).map
        fun next => grammar.followedBy (next.behind before)).mapError
          (Diagnostic.behind before) := by
  have hd : reader.diagnostic (state.after before grammar) .unexpectedEnd (stop.behind before)
      (stop.behind before) = (reader.diagnostic state .unexpectedEnd stop stop).behind before := by
    simp [Reader.diagnostic, reader, State.rule?_after, Diagnostic.behind]
  simp only [Reader.conclude, hd]
  cases closed with
  | false => rfl
  | true =>
    have hf := State.finish_after before grammar (hs rfl)
    simp only [reader, if_pos, Option.bind_some, hf]
    cases state.finish [] <;> rfl

end After

/-! ## Whole texts -/

section Texts

variable {entries : List (Entry (Position × Token))} {stop stop' : Position} {state next : State}

/-- The end of a text counts only for faults. -/
theorem State.readEntry_eq_ok_of {entry : Entry (Position × Token)}
    (h : readEntry stop state entry = .ok next) : readEntry stop' state entry = .ok next := by
  cases entry with
  | comment => exact h
  | token value =>
    simp only [readEntry, Reader.advance] at h ⊢
    cases hs : reader.step state ⟨[], false, value.1, value.2⟩ with
    | error fault => rw [hs] at h; cases h
    | ok next => rw [hs] at h; exact h

theorem State.foldlM_feed_of_readEntry
    (h : entries.foldlM (readEntry stop) reader.initial = .ok state) :
    (entries.map (Entry.map Prod.snd)).foldlM feed ⟨[], [], .between⟩ = .ok state.onLineOne := by
  have hfold : (entries.map (Entry.map Prod.snd)).foldlM feed ⟨[], [], .between⟩ = _ :=
    foldlM_map_eq_mapError (State.feed_onLineOne stop) entries reader.initial
  rw [hfold, h]
  rfl

theorem State.eq_of_finish {grammar : Grammar} (h : state.finish [] = some grammar) :
    state = ⟨grammar.rules.reverse, grammar.trailingComments, .between⟩ := by
  obtain ⟨rules, pending, place⟩ := state
  obtain ⟨rfl, -, rfl⟩ := finish_eq_some_iff.1 h
  simp

theorem State.ne_unclosed_of_foldlM
    (h : entries.foldlM (readEntry stop) reader.initial = .ok state) :
    ∀ value ∈ entries.filterMap Entry.token?, value.2 ≠ .unclosed := by
  intro value hm hv
  have hk := isKnown_of_foldlM (foldlM_feed_of_readEntry h)
  rw [filterMap_token?_map] at hk
  have := hk _ (List.mem_map_of_mem hm)
  rw [hv] at this
  cases this

/-- Between two rules the last token is a terminator. -/
theorem State.last_eq_terminator
    (h : entries.foldlM (readEntry stop) reader.initial = .ok state) (hp : state.place = .between)
    {value : Position × Token} (hl : entries.getLast? = some (.token value)) :
    value.2 = .terminator := by
  refine eq_terminator_of_foldlM (foldlM_feed_of_readEntry h) ?_ ?_
  · simp [onLineOne, hp, Place.onLineOne]
  · rw [List.getLast?_map, hl]
    rfl

theorem Grammar.exists_state_of_ofTranscript {t : Transcript (Position × Token)} {grammar : Grammar}
    (h : Grammar.ofTranscript stop t = .ok grammar) : t.closed = true ∧ ∃ state,
      t.entries.foldlM (State.readEntry stop) reader.initial = .ok state ∧
        state.finish [] = some grammar := by
  rw [ofTranscript] at h
  cases hr : t.entries.foldlM (State.readEntry stop) reader.initial with
  | error d => rw [hr] at h; cases h
  | ok state =>
    rw [hr, ok_bind] at h
    obtain ⟨comments, hc, hf⟩ := reader.conclude_eq_ok_iff.1 h
    split at hc
    · next ht => cases hc; exact ⟨ht, state, rfl, hf⟩
    · cases hc

/-- What has been read of a text that is a grammar. -/
theorem exists_entries_of_parse {text : String} {grammar : Grammar}
    (h : Grammar.parse text = .ok grammar) : ∃ entries, transcript text.toList = ⟨entries, true⟩ ∧
      (∀ value ∈ entries.filterMap Entry.token?, value.2 ≠ .unclosed) ∧
      (∀ value, entries.getLast? = some (.token value) → value.2 = .terminator) ∧
      ∀ stop, entries.foldlM (State.readEntry stop) reader.initial =
        .ok ⟨grammar.rules.reverse, grammar.trailingComments, .between⟩ := by
  rw [parse_eq_ofTranscript] at h
  obtain ⟨hc, state, hr, hf⟩ := Grammar.exists_state_of_ofTranscript h
  refine ⟨_, congrArg (Transcript.mk _) hc, State.ne_unclosed_of_foldlM hr, ?_, fun stop => ?_⟩
  · intro value hl
    exact State.last_eq_terminator hr (State.finish_eq_some_iff.1 hf).1 hl
  · rw [← State.eq_of_finish hf]
    exact foldlM_eq_ok_of_imp State.readEntry_eq_ok_of hr

theorem State.finish_of_not_started (hs : ¬ state.Started) (comments : List String) :
    state.finish comments = none := by
  obtain ⟨rules, pending, place⟩ := state
  obtain ⟨rfl, rfl⟩ : place = .between ∧ rules = [] := by simpa [Started] using hs
  rfl

theorem State.started_of_onLineOne (h : state.onLineOne.Started) : state.Started := by
  obtain ⟨rules, pending, place⟩ := state
  cases place with
  | between => simpa [Started, onLineOne, Place.onLineOne] using h
  | _ => exact .inl (by simp)

/-- A text of which nothing of a rule has been read is a gap. -/
theorem isGap_of_not_started {text : List Char} (hc : (transcript text).closed = true)
    (hr : (transcript text).entries.foldlM (State.readEntry stop) reader.initial = .ok state)
    (hs : ¬ state.Started) : lexicon.IsGap text := by
  refine Lexicon.isGap_of_transcript hc (List.eq_nil_iff_forall_not_mem.2 fun value hm => hs ?_)
  obtain ⟨entry, he, hv⟩ := List.mem_filterMap.1 hm
  cases entry with
  | comment => cases hv
  | token =>
    cases hv
    exact State.started_of_onLineOne
      (State.started_of_foldlM (State.foldlM_feed_of_readEntry hr) (List.mem_map_of_mem he))

theorem State.after_initial (before : List Char) (grammar : Grammar) :
    State.after before grammar reader.initial =
      ⟨grammar.rules.reverse, grammar.trailingComments, .between⟩ := by
  simp [after, onto, lead, behind, Place.behind, reader]

end Texts

namespace Grammar

variable {first second : String} {grammar : Grammar}

theorem ofTranscript_prepend {entries : List (Entry (Position × Token))} {before : List Char}
    {t : Transcript (Position × Token)} {stop : Position}
    (hrun : ∀ stop, entries.foldlM (State.readEntry stop) reader.initial =
      .ok ⟨grammar.rules.reverse, grammar.trailingComments, .between⟩)
    (hs : ∀ state, t.entries.foldlM (State.readEntry stop) reader.initial = .ok state →
      t.closed = true → state.Started) :
    ofTranscript (stop.behind before)
        ((t.map fun value => (value.1.behind before, value.2)).prepend entries) =
      ((ofTranscript stop t).map fun next => grammar.followedBy (next.behind before)).mapError
        (Diagnostic.behind before) := by
  have hfold := foldlM_map_eq_mapError (State.readEntry_after before grammar stop) t.entries
    reader.initial
  rw [State.after_initial] at hfold
  rw [ofTranscript, ofTranscript]
  change (entries ++ t.entries.map (moved before)).foldlM _ _ >>= _ = _
  rw [List.foldlM_append, hrun, ok_bind, hfold]
  cases hr : t.entries.foldlM (State.readEntry stop) reader.initial with
  | error d => rfl
  | ok state => exact State.conclude_after (hs state hr)

/-- Of a text that is no gap, something of a rule has been read at its end. -/
theorem started_of_not_isGap {state : State}
    (hg : ∀ d, parse second = .error d → ¬ lexicon.IsGap second.toList)
    (hr : (transcript second.toList).entries.foldlM
      (State.readEntry (Position.start.advance second.toList)) reader.initial = .ok state)
    (hc : (transcript second.toList).closed = true) : state.Started := by
  by_contra hn
  have hf : reader.finish state [] = none := State.finish_of_not_started hn []
  have herror := parse_eq_ofTranscript second
  rw [ofTranscript, hr, ok_bind, hc, Reader.conclude, if_pos rfl, Option.bind_some, hf] at herror
  exact hg _ herror (isGap_of_not_started hc hr hn)

/-- A text that does more than add comments is read behind a grammar as it is read alone. -/
theorem parse_append_eq (h : parse first = .ok grammar)
    (hg : ∀ d, parse second = .error d → ¬ lexicon.IsGap second.toList) :
    parse (first ++ second) =
      ((parse second).map fun next => grammar.followedBy (next.behind first.toList)).mapError
        (Diagnostic.behind first.toList) := by
  obtain ⟨entries, ht, hu, hl, hrun⟩ := exists_entries_of_parse h
  have hstop : Position.start.advance (first ++ second).toList =
      (Position.start.advance second.toList).behind first.toList := by
    rw [String.toList_append, Position.advance_append, Position.behind_advance,
      Position.behind_start]
  have htranscript : transcript (first ++ second).toList =
      ((transcript second.toList).map fun value =>
        (value.1.behind first.toList, value.2)).prepend entries := by
    rw [String.toList_append, transcript, transcript_append ht hu hl, ← Position.behind_start,
      Lexicon.transcript_behind, transcript, Lexicon.map_transcript]
    rfl
  rw [parse_eq_ofTranscript (first ++ second), htranscript, hstop,
    ofTranscript_prepend hrun fun _ => started_of_not_isGap hg, ← parse_eq_ofTranscript]

/-- Behind a grammar a text is read as it is read alone. If it is a grammar, it adds its rules, and
the comments that still wait go to the first of them; a fault in it is where it was, counted from the
start of the first grammar. -/
theorem parse_append (h : parse first = .ok grammar) :
    (∀ next, parse second = .ok next →
      parse (first ++ second) = .ok (grammar.followedBy (next.behind first.toList))) ∧
    ∀ d, parse second = .error d → ¬ lexicon.IsGap second.toList →
      parse (first ++ second) = .error (d.behind first.toList) := by
  constructor
  · intro next hn
    rw [parse_append_eq h (by simp [hn]), hn]
    rfl
  · intro d hd hgap
    rw [parse_append_eq h fun _ _ => hgap, hd]
    rfl

def leading : Grammar := ⟨[⟨"a", 1, [], [[⟨.ofPrimary (.terminal "x"), none⟩]]⟩], ["c"]⟩

def following : Grammar :=
  ⟨[⟨"b", 1, ["d"], [[⟨.ofPrimary .empty, none⟩]]⟩,
    ⟨"e", 2, [], [[⟨.ofPrimary (.name "b"), none⟩]]⟩], []⟩

theorem parse_leading : parse "a = 'x'\n; (* c *)\n" = .ok leading := by
  with_unfolding_all rfl

theorem parse_following : parse "(* d *) b = ;\ne = b ;" = .ok following := by
  with_unfolding_all rfl

theorem parse_unseparated : parse "\nb = 'y' 'z' ;" =
    .error ⟨.expectedTerminator, ⟨9, 2⟩, some ⟨"b", 2⟩⟩ := by
  with_unfolding_all rfl

theorem not_isGap_unseparated : ¬ lexicon.IsGap "\nb = 'y' 'z' ;".toList := by
  intro h
  generalize ht : "\nb = 'y' 'z' ;".toList = text at h
  cases h with
  | nil => cases ht
  | blank _ h => cases ht; exact Lexicon.not_isGap_cons rfl rfl h
  | comment hr => subst ht; cases hr

theorem parse_append_leading :
    parse "a = 'x'\n; (* c *)\n" = .ok leading ∧
      (parse "(* d *) b = ;\ne = b ;" = .ok following ∧
        parse ("a = 'x'\n; (* c *)\n" ++ "(* d *) b = ;\ne = b ;") =
          .ok (leading.followedBy (following.behind "a = 'x'\n; (* c *)\n".toList))) ∧
      parse "\nb = 'y' 'z' ;" = .error ⟨.expectedTerminator, ⟨9, 2⟩, some ⟨"b", 2⟩⟩ ∧
        ¬ lexicon.IsGap "\nb = 'y' 'z' ;".toList ∧
          parse ("a = 'x'\n; (* c *)\n" ++ "\nb = 'y' 'z' ;") =
            .error (Diagnostic.behind "a = 'x'\n; (* c *)\n".toList
              ⟨.expectedTerminator, ⟨9, 2⟩, some ⟨"b", 2⟩⟩) :=
  ⟨parse_leading, ⟨parse_following, (parse_append parse_leading).1 _ parse_following⟩,
    parse_unseparated, not_isGap_unseparated,
    (parse_append parse_leading).2 _ parse_unseparated not_isGap_unseparated⟩

end Grammar

end GrammarText.Iso
