import GrammarText.Proofs.W3c.Gaps
import GrammarText.Proofs.W3c.Steps
import Mathlib.Data.Prod.Basic

/-!
# One W3C grammar behind another

A rule ends where the next one starts, and only there or with the text. So behind a text that is
read as a grammar, a blank apart, the rules of another are read as they are read alone: the first of
them ends the rule that the first text has ended with. Only the lines are others.
-/

namespace GrammarText.W3c

/-! ## Tokens with their places -/

/-- A token as it is read, with its place. -/
def placed (glued : Bool) (start : Position) (token : Token) : Position × Token :=
  (start, token.seen glued)

/-- Marks the words that the defining mark follows. -/
def headedAt (tokens : List (Position × Token)) : List (Position × Token) :=
  (tokens.map Prod.fst).zip (headed (tokens.map Prod.snd))

theorem length_headed (tokens : List Token) : (headed tokens).length = tokens.length := by
  fun_induction headed tokens <;> simp_all

theorem headedAt_append {tokens more : List (Position × Token)}
    (ht : ∀ name, .symbol name true ∉ tokens.map Prod.snd)
    (hm : (more.map Prod.snd).head? ≠ some .defining) :
    headedAt (tokens ++ more) = headedAt tokens ++ headedAt more := by
  have hl : (tokens.map Prod.fst).length = (headed (tokens.map Prod.snd)).length := by
    simp [length_headed]
  simp only [headedAt, List.map_append]
  rw [headed_append ht hm, List.zip_append hl]

theorem headedAt_map (f : Position → Position) (tokens : List (Position × Token)) :
    headedAt (tokens.map (Prod.map f id)) = (headedAt tokens).map (Prod.map f id) := by
  simp only [headedAt, List.map_map, Prod.map_fst', Prod.map_snd', Function.id_comp]
  rw [← List.zip_map, List.map_id, List.map_map]

/-! ## Reading them -/

namespace State

/-- The state after one more token in its place. -/
def feedAt (state : State) (value : Position × Token) : Except Fault State :=
  state.step ⟨[], true, value.1, value.2⟩

theorem feedAt_placed (state : State) (lexeme : Lexeme Token) :
    state.feedAt (placed lexeme.glued lexeme.start lexeme.token) = state.step lexeme := by
  obtain ⟨rules, place⟩ := state
  obtain ⟨comments, glued, start, token⟩ := lexeme
  cases place with
  | between => cases glued <;> cases token <;> rfl
  | named rule => cases glued <;> cases token <;> rfl
  | within rule body =>
    simp only [feedAt, placed, step, Body.step_seen]
    rcases body.step glued token with fault | body | expression
    · rfl
    · rfl
    · cases glued <;> cases token <;> rfl

end State

/-- The comments and tokens of a text, these with their places. -/
def transcript (text : List Char) : Transcript (Position × Token) :=
  lexicon.transcript placed true .start text

theorem headedAt_transcript (text : List Char) : headedAt (transcript text).tokens =
    (markHeads (lexicon.read text).lexemes).map
      fun lexeme => placed lexeme.glued lexeme.start lexeme.token := by
  rw [headedAt, transcript, Lexicon.tokens_transcript, ← Lexicon.read, List.map_map, List.map_map]
  change (List.map Lexeme.start _).zip
    (headed (List.map (fun l : Lexeme Token => l.token.seen l.glued) _)) = _
  rw [← map_start_markHeads, ← map_markHeads, List.zip_map']
  rfl

theorem Grammar.parse_eq_ok_iff {text : String} {grammar : Grammar} :
    parse text = .ok grammar ↔ (transcript text.toList).closed = true ∧ ∃ state,
      (headedAt (transcript text.toList).tokens).foldlM State.feedAt ⟨[], .between⟩ = .ok state ∧
        state.finish = some grammar := by
  have hfold (lexemes : List (Lexeme Token)) (state : State) :
      (lexemes.map fun lexeme => placed lexeme.glued lexeme.start lexeme.token).foldlM
        State.feedAt state = lexemes.foldlM State.step state := by
    rw [List.foldlM_map]
    simp only [State.feedAt_placed]
  rw [headedAt_transcript, hfold, transcript, Lexicon.closed_transcript, ← Lexicon.read,
    Option.isSome_iff_exists, parse, reader.run_eq_ok_iff]
  constructor
  · rintro ⟨state, hs, comments, hc, hf⟩
    exact ⟨⟨comments, hc⟩, state, hs, hf⟩
  · rintro ⟨⟨comments, hc⟩, state, hs, hf⟩
    exact ⟨state, hs, comments, hc, hf⟩

/-- What has been read of a text that is a grammar. -/
theorem exists_entries_of_parse {text : String} {grammar : Grammar}
    (h : Grammar.parse text = .ok grammar) : ∃ entries, transcript text.toList = ⟨entries, true⟩ ∧
      (∀ name, .symbol name true ∉ (entries.filterMap Entry.token?).map Prod.snd) ∧
      .unclosed ∉ (entries.filterMap Entry.token?).map Prod.snd ∧ ∃ state,
        (headedAt (entries.filterMap Entry.token?)).foldlM State.feedAt ⟨[], .between⟩ = .ok state ∧
          state.finish = some grammar := by
  obtain ⟨hclosed, state, hr, hf⟩ := Grammar.parse_eq_ok_iff.1 h
  obtain ⟨tokens, ⟨spelled, hs, rfl⟩, ho⟩ := exists_spells_of_parse h
  have hmap : (transcript text.toList).tokens.map Prod.snd = spelled.filterMap Entry.token? := by
    rw [← Transcript.tokens_map, transcript, Lexicon.map_transcript]
    exact congrArg Transcript.tokens (Lexicon.spells_iff_transcript.1 hs)
  refine ⟨_, congrArg (Transcript.mk _) hclosed, ?_, ?_, state, hr, hf⟩
  · intro name hm
    exact hs.not_mem_head name (hmap ▸ hm)
  · intro hm
    obtain ⟨last, hl, -⟩ := Grammar.ofTokens_eq_ok_iff.1 ho
    exact State.not_mem_unclosed_of_foldlM hl ((mem_headed_iff (by simp)).2 (hmap ▸ hm))

/-! ## Two texts -/

section Transcripts

variable {glued : Bool} {place : Position} {d : Char} {text next : List Char}
  {entries : List (Entry (Position × Token))}

/-- A text that comes behind another, a blank apart, is listed as it is. -/
theorem transcript_append (hd : isBlank d = true)
    (h : lexicon.transcript placed glued place text = ⟨entries, true⟩)
    (hu : .unclosed ∉ (entries.filterMap Entry.token?).map Prod.snd) :
    lexicon.transcript placed glued place (text ++ d :: next) =
      (lexicon.transcript placed false (place.advance (text ++ [d])) next).prepend entries := by
  fun_induction lexicon.transcript placed glued place text generalizing entries with
  | case1 =>
    cases h
    exact Lexicon.transcript_blank hd
  | case2 glued place c more hb ih =>
    rw [List.cons_append, Lexicon.transcript_blank hb, ih h hu, ← Position.advance_append]
    rfl
  | case3 glued place c more hb body source rest hr ih =>
    obtain ⟨after, rfl, hafter⟩ := Transcript.prepend_eq_iff.1 h
    have hcomment := blockComment_append (d :: next) hr
    rw [List.cons_append] at hcomment ⊢
    rw [Lexicon.transcript_comment (by simpa using hb) hcomment, ih hafter hu,
      Transcript.prepend_prepend,
      Position.advance_split ((blockComment_isSplitOf _).of_found hr).1]
  | case4 => cases h
  | case5 glued place c more hb hr piece =>
    rename_i ih
    obtain ⟨after, rfl, hafter⟩ := Transcript.prepend_eq_iff.1 h
    have ht : Token.read c more = ⟨piece.token, piece.source, piece.rest⟩ := rfl
    have hs : c :: more = piece.source ++ piece.rest := (Token.read_isSplitOf c more).1
    obtain ⟨hseen, hu⟩ : .unclosed ≠ piece.token.seen glued ∧
        Token.unclosed ∉ (after.filterMap Entry.token?).map Prod.snd :=
      List.ne_and_not_mem_of_not_mem_cons hu
    have hunclosed : piece.token ≠ .unclosed := by
      intro hpiece
      rw [hpiece, Token.seen_eq_self (by simp)] at hseen
      exact hseen rfl
    -- A blank ends the last token of the text, as the end of the text does.
    have hboundary := isBoundary_of_isBlank hd
    rw [List.cons_append, Lexicon.transcript_token (by simpa using hb)
      (blockComment_append_of_absent next hboundary hr)
      (Token.read_append next hboundary ht hunclosed), ih hafter hu, Transcript.prepend_prepend,
      Position.advance_split hs]

/-- Before the head of a rule a gap does not show. -/
theorem transcript_unglued
    (h : ∀ value ∈ (lexicon.transcript placed true place text).tokens.head?,
      ∃ name, value.2 = .symbol name false) :
    lexicon.transcript placed false place text = lexicon.transcript placed true place text := by
  refine Lexicon.transcript_congr_glued fun c more ht hc hr => ?_
  subst ht
  rw [Lexicon.transcript_token hc hr rfl] at h
  obtain ⟨name, hname⟩ := h _ rfl
  have htoken : (lexicon.token c more).token = .symbol name false := hname
  rw [htoken]
  rfl

end Transcripts

/-! ## Rules behind other rules -/

/-- The rule, some lines further down. -/
def Rule.lower (lines : Nat) (rule : Rule) : Rule := { rule with line := rule.line + lines }

def Place.lower (lines : Nat) : Place → Place
  | .between => .between
  | .named rule => .named { rule with line := rule.line + lines }
  | .within rule body => .within { rule with line := rule.line + lines } body

/-- The state, some lines further down and behind the rules `earlier`, which stand last first. -/
def State.after (lines : Nat) (earlier : List Rule) (state : State) : State :=
  ⟨state.rules.map (Rule.lower lines) ++ earlier, state.place.lower lines⟩

section After

variable {before : List Char} {earlier : List Rule} {state last : State}

theorem State.startRule_after (before : List Char) (earlier rules : List Rule) (start : Position)
    (token : Token) :
    startRule (rules.map (Rule.lower (lineFeeds before)) ++ earlier)
        ⟨[], true, start.behind before, token⟩ =
      (startRule rules ⟨[], true, start, token⟩).map (after (lineFeeds before) earlier) := by
  cases token with
  | symbol =>
    simp [startRule, after, Place.lower, Except.map, Position.behind, Nat.add_comm]
  | _ => rfl

theorem State.feedAt_after (before : List Char) (earlier : List Rule) (state : State)
    (value : Position × Token) :
    (state.after (lineFeeds before) earlier).feedAt (value.map (Position.behind before) id) =
      (state.feedAt value).map (after (lineFeeds before) earlier) := by
  obtain ⟨rules, place⟩ := state
  obtain ⟨start, token⟩ := value
  cases place with
  | between => exact startRule_after before earlier rules start token
  | named rule => cases token <;> rfl
  | within rule body =>
    simp only [feedAt, after, Place.lower, step, Prod.map, id]
    rcases body.step true token with fault | body | expression
    · rfl
    · rfl
    · exact startRule_after before earlier (⟨rule.name, rule.line, expression⟩ :: rules) start token

theorem State.finish_after (lines : Nat) (earlier : List Rule) (state : State) :
    (state.after lines earlier).finish = state.finish.map fun next =>
      ⟨earlier.reverse ++ next.rules.map (Rule.lower lines)⟩ := by
  obtain ⟨rules, place⟩ := state
  cases place with
  | between => simp [after, Place.lower, finish]
  | named rule => rfl
  | within rule body =>
    simp only [after, Place.lower, finish]
    cases body.finish <;> simp [Rule.lower]

theorem headedAt_symbol (start : Position) (name : String) (more : List (Position × Token)) :
    headedAt ((start, .symbol name false) :: more) =
      (start, .symbol name ((more.map Prod.snd).head? == some .defining)) :: headedAt more := by
  rw [headedAt, List.map_cons, List.map_cons, headed_symbol]
  rfl

/-- A text does not end behind the name of a rule, and only the defining mark can follow. -/
theorem defining_of_foldlM {tokens : List (Position × Token)} {rules : List Rule}
    {rule : RuleContext} {grammar : Grammar}
    (h : (headedAt tokens).foldlM State.feedAt ⟨rules, .named rule⟩ = .ok last)
    (hf : last.finish = some grammar) :
    ((tokens.map Prod.snd).head? == some .defining) = true := by
  rw [← head?_headed_beq]
  unfold headedAt at h
  generalize headed (tokens.map Prod.snd) = marked at h ⊢
  cases hs : tokens.map Prod.fst with
  | nil => rw [hs] at h; cases h; cases hf
  | cons start starts =>
    cases marked with
    | nil => rw [hs] at h; cases h; cases hf
    | cons token marked =>
      rw [hs] at h
      obtain ⟨body, hb, -⟩ := foldlM_cons_eq_ok_iff.1 h
      cases token <;> cases hb
      rfl

theorem exists_head_of_foldlM {first : Position × Token} {more : List (Position × Token)}
    {rules : List Rule} {grammar : Grammar}
    (hm : ∀ name, .symbol name true ∉ (first :: more).map Prod.snd)
    (h : (headedAt (first :: more)).foldlM State.feedAt ⟨rules, .between⟩ = .ok last)
    (hf : last.finish = some grammar) : ∃ name, first.2 = .symbol name false ∧
      headedAt (first :: more) = (first.1, .symbol name true) :: headedAt more := by
  obtain ⟨start, token⟩ := first
  cases token with
  | symbol name head =>
    obtain rfl : head = false := by
      cases head with
      | false => rfl
      | true => exact absurd (List.mem_cons_self ..) (hm name)
    rw [headedAt_symbol] at h ⊢
    obtain ⟨named, hn, hr⟩ := foldlM_cons_eq_ok_iff.1 h
    cases hn
    exact ⟨name, rfl, by rw [defining_of_foldlM hr hf]⟩
  | _ =>
    rw [headedAt, List.map_cons, List.map_cons, headed_cons (by simp)] at h
    obtain ⟨named, hn, -⟩ := foldlM_cons_eq_ok_iff.1 h
    cases hn

theorem symbol_of_foldlM {tokens : List (Position × Token)} {grammar : Grammar}
    (hm : ∀ name, .symbol name true ∉ tokens.map Prod.snd)
    (h : (headedAt tokens).foldlM State.feedAt ⟨[], .between⟩ = .ok last)
    (hf : last.finish = some grammar) :
    ∀ value ∈ tokens.head?, ∃ name, value.2 = .symbol name false := by
  intro value hv
  obtain ⟨more, rfl⟩ := List.head?_eq_some_iff.1 hv
  obtain ⟨name, hs, -⟩ := exists_head_of_foldlM hm h hf
  exact ⟨name, hs⟩

/-- Where the first grammar might end, the second is read as it is alone. -/
theorem State.Ended.exists_run {tokens : List (Position × Token)} {grammar : Grammar}
    (he : State.Ended state earlier)
    (hm : ∀ name, .symbol name true ∉ tokens.map Prod.snd)
    (h : (headedAt tokens).foldlM State.feedAt ⟨[], .between⟩ = .ok last)
    (hf : last.finish = some grammar) (before : List Char) : ∃ final,
      ((headedAt tokens).map (Prod.map (Position.behind before) id)).foldlM State.feedAt state =
          .ok final ∧
        final.finish =
          some ⟨earlier.reverse ++ grammar.rules.map (Rule.lower (lineFeeds before))⟩ := by
  cases tokens with
  | nil =>
    cases h
    cases hf
    refine ⟨state, rfl, ?_⟩
    rw [he.finish_eq]
    simp
  | cons first more =>
    obtain ⟨name, -, hhead⟩ := exists_head_of_foldlM hm h hf
    have hfold := foldlM_map_eq_map (State.feedAt_after before earlier)
      (headedAt (first :: more)) ⟨[], .between⟩
    -- The name of a rule is read alike where no rule has begun and where one has ended.
    have hstart (start : Position) : state.feedAt (start, .symbol name true) =
        (State.after (lineFeeds before) earlier ⟨[], .between⟩).feedAt (start, .symbol name true) :=
      he.step_head rfl
    refine ⟨last.after (lineFeeds before) earlier, ?_, by rw [finish_after, hf]; rfl⟩
    rw [h, hhead] at hfold
    rw [hhead, List.map_cons, List.foldlM_cons]
    exact (congrArg (· >>= _) (hstart _)).trans hfold

end After

/-! ## Whole texts -/

namespace Grammar

variable {first second text : String} {grammar next : Grammar} {d : Char}

theorem parse_of_blank (hd : isBlank d = true) (h : parse first = .ok grammar)
    (hn : parse second = .ok next) (ht : text.toList = first.toList ++ d :: second.toList) :
    parse text = .ok
      ⟨grammar.rules ++ next.rules.map (Rule.lower (lineFeeds (first.toList ++ [d])))⟩ := by
  obtain ⟨entries, hfirst, hheads, hu, state, hr, hf⟩ := exists_entries_of_parse h
  obtain ⟨others, hsecond, hheads', -, last, hr', hf'⟩ := exists_entries_of_parse hn
  -- The second text starts with a word, so the blank before it does not show in its tokens.
  have hsymbol := symbol_of_foldlM hheads' hr' hf'
  have hglued : lexicon.transcript placed false .start second.toList = ⟨others, true⟩ := by
    rw [← hsecond]
    exact transcript_unglued (by rwa [← transcript, hsecond])
  have htranscript : transcript text.toList = (Transcript.map
      (Prod.map (Position.behind (first.toList ++ [d])) id) ⟨others, true⟩).prepend entries := by
    rw [ht, transcript, transcript_append hd hfirst hu, ← Position.behind_start,
      Lexicon.transcript_behind, ← hglued, Lexicon.map_transcript]
    rfl
  obtain ⟨final, hfinal, hresult⟩ :=
    (State.Ended.of_finish hf).exists_run hheads' hr' hf' (first.toList ++ [d])
  rw [List.reverse_reverse] at hresult
  refine parse_eq_ok_iff.2 ⟨by rw [htranscript]; rfl, final, ?_, hresult⟩
  rw [htranscript, Transcript.tokens_prepend, Transcript.tokens_map, headedAt_append hheads ?_,
    headedAt_map]
  · exact foldlM_append_eq_ok_iff.2 ⟨state, hr, hfinal⟩
  · rw [List.map_map, List.head?_map]
    intro hdefining
    obtain ⟨value, hv, hvalue⟩ := Option.map_eq_some_iff.1 hdefining
    obtain ⟨name, hname⟩ := hsymbol value hv
    cases hname.symm.trans hvalue

/-- Two grammars on lines one below the other are one grammar: the last rule of the first ends where
the first rule of the second starts. -/
theorem parse_after_lineFeed (h : parse first = .ok grammar) (hn : parse second = .ok next) :
    parse (first ++ "\n" ++ second) =
      .ok ⟨grammar.rules ++ next.rules.map (Rule.lower (1 + lineFeeds first.toList))⟩ := by
  have hl : lineFeeds (first.toList ++ ['\n']) = 1 + lineFeeds first.toList := by
    rw [lineFeeds_append, Nat.add_comm]
    rfl
  rw [← hl]
  exact parse_of_blank (d := '\n') rfl h hn (by simp)

def openEnded : Grammar :=
  ⟨[⟨"a", 1, .ofContent (.list [.ofContent (.symbol "b"), .ofContent (.symbol "c")])⟩]⟩

def starting : Grammar :=
  ⟨[⟨"c", 1, .ofContent (.symbol "a")⟩, ⟨"d", 2, .ofContent (.symbol "c")⟩]⟩

theorem parse_openEnded : parse "a ::= b /*\n*/ c" = .ok openEnded := by
  with_unfolding_all rfl

theorem parse_starting : parse "c ::= a\nd ::= c" = .ok starting := by
  with_unfolding_all rfl

theorem parse_starting_after_lineFeed :
    parse "a ::= b /*\n*/ c" = .ok openEnded ∧ parse "c ::= a\nd ::= c" = .ok starting ∧
      parse ("a ::= b /*\n*/ c" ++ "\n" ++ "c ::= a\nd ::= c") =
        .ok ⟨openEnded.rules ++
          starting.rules.map (Rule.lower (1 + lineFeeds "a ::= b /*\n*/ c".toList))⟩ :=
  ⟨parse_openEnded, parse_starting, parse_after_lineFeed parse_openEnded parse_starting⟩

end Grammar

end GrammarText.W3c
