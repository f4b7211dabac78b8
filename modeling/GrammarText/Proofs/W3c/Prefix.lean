import GrammarText.Proofs.Heads
import GrammarText.Proofs.Lexis.Prefix
import GrammarText.Proofs.W3c.Steps

/-!
# The text before a W3C rule

A rule is named where the one before it has ended, so the text before its name is a grammar. There
the words before the name are marked as they are in the whole text.
-/

namespace GrammarText.W3c

/-! ## Tokens before less text -/

section Tokens

variable {c : Char} {tail before after more : List Char} {token : Token}

theorem Token.ofMark_again
    (h : ofMark c (tail ++ (before ++ after)) = ⟨token, c :: tail, before ++ after⟩) :
    ofMark c (tail ++ before) = ⟨token, c :: tail, before⟩ := by
  generalize hm : tail ++ (before ++ after) = more at h
  unfold ofMark at h
  split at h <;> cases h <;> try rfl
  -- The characters behind the mark do not make it a defining mark.
  next hdefining =>
  rw [List.nil_append, ofMark] <;> try assumption
  rintro rest rfl rfl
  exact hdefining (rest ++ after) rfl (by simp)

theorem Token.read_again (hu : token ≠ .unclosed)
    (h : read c (tail ++ (before ++ after)) = ⟨token, c :: tail, before ++ after⟩) :
    read c (tail ++ before) = ⟨token, c :: tail, before⟩ := by
  cases reads h with
  | symbol hw =>
    obtain ⟨rfl, hne, ha, hstop, -⟩ := word_eq_found_iff.1 hw
    have hstop' : ∀ d ∈ before.head?, d.isAlpha = false :=
      fun d hd => hstop d (List.mem_head?_append_of_mem_head? hd)
    exact read_of_word (word_eq_found_iff.2 ⟨rfl, hne, ha, hstop', rfl⟩)
  | literal hq =>
    obtain ⟨quote, hquote, -, hs, -⟩ := quotedText_eq_found_iff.1 hq
    have ha : c.isAlpha = false := by
      cases hs
      simp only [isQuote, Bool.or_eq_true, beq_iff_eq] at hquote
      rcases hquote with rfl | rfl <;> rfl
    exact read_of_quotedText ha (quotedText_again hq before)
  | unclosed => exact absurd rfl hu
  | mark ha hq hm => rw [read_eq_ofMark ha hq, ofMark_again hm]

theorem lexicon_stable : lexicon.Stable Token.role where
  comment := blockComment_again
  absent h := blockComment_cons_eq_absent_iff.2 fun ⟨hc, hs⟩ =>
    blockComment_cons_eq_absent_iff.1 h ⟨hc, List.mem_head?_append_of_mem_head? hs⟩
  token {c tail before after token} hu h := by
    refine Token.read_again ?_ h
    rintro rfl
    exact hu rfl

theorem lexicon_separates : lexicon.Separates Token.role Char.isAlpha where
  blank := isAlpha_of_isBlank
  comment h c hc := by
    rw [getLast?_blockComment h] at hc
    cases hc
    rfl
  token {c next more source rest token} hu h hs d hd := by
    cases Token.reads h with
    | symbol h =>
      obtain ⟨-, -, -, hstop, -⟩ := word_eq_found_iff.1 h
      rw [hstop next rfl] at hs
      cases hs
    | literal h =>
      obtain ⟨quote, hq, hlast⟩ := getLast?_quotedText h
      cases hlast.symm.trans hd
      exact eq_false_of_class (isQuote_of_class rfl rfl) hq
    | unclosed => exact absurd rfl hu
    | mark ha _ h =>
      unfold Token.ofMark at h
      split at h <;> cases h <;> cases hd <;> first | rfl | exact ha

end Tokens

/-! ## Marks before less text -/

/-- No word is marked before it is known what follows. -/
theorem ne_head_of_mem_read {place : Position} {text : List Char} :
    ∀ lexeme ∈ (lexicon.readFrom place text).lexemes,
      ∀ name, lexeme.token ≠ .symbol name true := by
  intro lexeme hm name ht
  obtain ⟨before, c, after, -, -, -, htoken⟩ := Lexicon.start_of_mem_readFrom hm
  have hread : Token.read c after = ⟨.symbol name true, _, _⟩ :=
    congrArg (Piece.mk · _ _) (htoken.symm.trans ht)
  exact Token.read_ne_head hread name rfl

/-- The lexemes before a word are marked as they are without what follows. -/
theorem exists_of_markHeads_eq {lexemes before after : List (Lexeme Token)} {lexeme : Lexeme Token}
    {name : String} {head : Bool} (h : markHeads lexemes = before ++ lexeme :: after)
    (hl : ∀ lexeme ∈ lexemes, ∀ name, lexeme.token ≠ .symbol name true)
    (ht : lexeme.token = .symbol name head) : ∃ read first rest,
      lexemes = read ++ first :: rest ∧ markHeads read = before ∧
        first.token = .symbol name false ∧ first.start = lexeme.start := by
  have hmap : (markHeads lexemes).map (fun l => (l.start, l.token.role)) =
      lexemes.map fun l => (l.start, l.token.role) :=
    map_markHeads_of (fun _ _ _ _ ht => by simp [ht, Token.role]) lexemes
  rw [h, List.map_append, List.map_cons] at hmap
  obtain ⟨read, others, rfl, hread, hothers⟩ := List.map_eq_append_iff.1 hmap.symm
  obtain ⟨first, rest, rfl, hfirst, -⟩ := List.map_eq_cons_iff.1 hothers
  obtain ⟨hstart, hrole⟩ :
    first.start = lexeme.start ∧ first.token.role = lexeme.token.role := by simpa using hfirst
  have hsymbol : first.token = .symbol name false := by
    have hn := hl first (by simp) name
    rw [ht] at hrole
    cases hf : first.token with
    | symbol other marked =>
      rw [hf] at hn hrole
      cases hrole
      cases marked with
      | false => rfl
      | true => exact absurd rfl hn
    | _ => rw [hf] at hrole; cases hrole
  rw [markHeads_append (fun l hm => hl l (List.mem_append_left _ hm)) (by simp [hsymbol])] at h
  have hlength : (markHeads read).length = before.length := by
    rw [length_markHeads]
    simpa using congrArg List.length hread
  exact ⟨read, first, rest, rfl, (List.append_inj h hlength).1, hsymbol, hstart⟩

/-- A run reads no token that never ends. -/
theorem role_ne_unclosed_of_foldlM {lexemes : List (Lexeme Token)} {state last : State}
    (h : (markHeads lexemes).foldlM reader.step state = .ok last) :
    ∀ lexeme ∈ lexemes, lexeme.token.role ≠ .unclosed := by
  have hroles : ∀ role ∈ (markHeads lexemes).map (Token.role ∘ Lexeme.token), role ≠ .unclosed :=
    List.forall_mem_map.2 (forall_mem_of_foldlM h fun _ _ _ h => (State.heads_step h).ne_unclosed)
  rw [map_markHeads_of (fun _ _ _ _ ht => by simp [ht, Token.role])] at hroles
  exact fun lexeme hm => hroles _ (List.mem_map_of_mem hm)

/-! ## Names -/

def Place.rule? : Place → Option RuleContext
  | .between => none
  | .named rule => some rule
  | .within rule _ => some rule

section Steps

variable {state next : State} {lexeme : Lexeme Token} {rule : RuleContext} {fault : Fault}

theorem State.place_rule?_of_rule? (h : state.rule? fault = some rule) :
    state.place.rule? = some rule := by
  unfold rule? at h
  split at h <;> simp_all [Place.rule?]

theorem State.fault_of_rule?_eq_none (h : state.step lexeme = .error fault)
    (hr : state.rule? fault = none) : fault = .expectedSymbol := by
  obtain ⟨rules, place⟩ := state
  obtain ⟨comments, glued, start, token⟩ := lexeme
  cases place with
  | between => cases token <;> cases h <;> rfl
  | named => cases token <;> cases h <;> cases hr
  | within => cases fault <;> first | rfl | cases hr

/-- A rule comes to be read at its name. -/
theorem State.named_of_step (h : state.step lexeme = .ok next) (hs : state.place.rule? ≠ some rule)
    (hn : next.place.rule? = some rule) : next.place = .named rule := by
  obtain ⟨rules, place⟩ := state
  obtain ⟨comments, glued, start, token⟩ := lexeme
  cases place with
  | between => cases token <;> cases h; cases hn; rfl
  | named => cases token <;> cases h; exact absurd hn hs
  | within =>
    simp only [step] at h
    split at h
    · cases h; exact absurd hn hs
    · cases token <;> cases h; cases hn; rfl
    · cases h

end Steps

/-! ## Whole texts -/

/-- The rule in which a fault lies stands behind a grammar. -/
theorem Grammar.exists_prefix_of_rule {text : String} {d : Diagnostic} {rule : RuleContext}
    (h : parse text = .error d) (hd : d.rule = some rule) : ∃ before after,
      text.toList = before ++ after ∧ (∃ grammar, parse (String.ofList before) = .ok grammar) ∧
      (∀ c ∈ before.getLast?, c.isAlpha = false) ∧
      (∃ source rest, word after = .found rule.name source rest) ∧
      rule.line = 1 + lineFeeds before ∧ Position.start.advance before ≤ d.position := by
  have hstop : (lexemes text.toList).stop = (lexicon.read text.toList).stop := rfl
  have hstart : (lexemes text.toList).lexemes.map Lexeme.start =
      (lexicon.read text.toList).lexemes.map Lexeme.start := map_start_markHeads _
  obtain ⟨before, lexeme, after, state, next, hl, hr, hs, hn, hc, hp⟩ :=
    reader.exists_step_of_rule (fun state => state.place.rule?) rfl State.place_rule?_of_rule?
      hstop hstart h hd
  obtain ⟨hended, head, htoken, hline⟩ := State.Ended.of_step hs (State.named_of_step hs hn hc)
  obtain ⟨read, first, rest, hraw, hmarked, hsymbol, hplace⟩ :=
    exists_of_markHeads_eq hl ne_head_of_mem_read htoken
  subst hmarked
  -- What has been read when the name comes is what is read of the text before the name.
  obtain ⟨shorter, c, more, htext, hlexeme, hfirst, hlast, hread⟩ :=
    Lexicon.readFrom_prefix lexicon_stable lexicon_separates hraw (role_ne_unclosed_of_foldlM hr)
  have hname : Token.read c more = ⟨.symbol rule.name false, _, _⟩ :=
    congrArg (Piece.mk · _ _) (hlexeme.symm.trans hsymbol)
  have hfound := Token.word_of_read hname
  have hparse : parse (String.ofList shorter) = .ok ⟨next.rules.reverse⟩ := by
    rw [parse, String.toList_ofList, lexemes, Lexicon.read, hread]
    exact reader.run_eq_ok_iff.2 ⟨state, hr, first.comments, rfl, hended.finish_eq⟩
  refine ⟨shorter, c :: more, htext, ⟨_, hparse⟩, hlast (isAlpha_of_word hfound),
    ⟨_, _, hfound⟩, ?_, ?_⟩
  · rw [← hline, ← hplace, hfirst]
    rfl
  · rw [← hfirst, hplace]
    exact hp

end GrammarText.W3c
