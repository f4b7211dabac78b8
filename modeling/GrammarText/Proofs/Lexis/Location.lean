import GrammarText.Proofs.Lexis.Run
import GrammarText.Proofs.Lexis.Spelling

/-!
# Where lexemes and faults are

The place of a lexeme is found from the text before it, and so is the place of a fault. A fault is
that the text ends exactly if it shows at the end of the text.
-/

namespace GrammarText

/-! ## Places in order -/

namespace Position

instance : LE Position := ⟨fun p q => p.offset ≤ q.offset ∧ p.line ≤ q.line⟩

theorem le_advance (p : Position) (text : List Char) : p ≤ p.advance text :=
  ⟨Nat.le_add_right _ _, Nat.le_add_right _ _⟩

theorem start_advance (text : List Char) :
    start.advance text = ⟨byteLength text, 1 + lineFeeds text⟩ := by
  simp [advance, start]

theorem le_trans {p q r : Position} (h : p ≤ q) (hr : q ≤ r) : p ≤ r :=
  ⟨Nat.le_trans h.1 hr.1, Nat.le_trans h.2 hr.2⟩

end Position

/-! ## Lexemes -/

namespace Lexicon

variable {Token : Type} {L : Lexicon Token} {place : Position} {text : List Char}

theorem readFrom_stop (L : Lexicon Token) (place : Position) (text : List Char) :
    (L.readFrom place text).stop = place.advance text := by
  fun_induction L.readFrom place text with
  | case1 => rfl
  | case2 place text g hg hr => rw [L.gap_split hg, hr, List.append_nil]
  | case3 place text g hg c more hr start piece after lexeme ih =>
    have hp : c :: more = piece.source ++ piece.rest := (L.token_isSplitOf c more).1
    rw [L.gap_split hg, hr, hp, Position.advance_append, Position.advance_append]
    exact ih

/-- A lexeme starts at a character that is no blank, and its token is read there. -/
theorem start_of_mem_readFrom {lexeme : Lexeme Token}
    (h : lexeme ∈ (L.readFrom place text).lexemes) : ∃ before c after,
      text = before ++ c :: after ∧ isBlank c = false ∧ lexeme.start = place.advance before ∧
        lexeme.token = (L.token c after).token := by
  fun_induction L.readFrom place text with
  | case1 => cases h
  | case2 => cases h
  | case3 place text g hg c more hr start piece after first ih =>
    have hp : c :: more = piece.source ++ piece.rest := (L.token_isSplitOf c more).1
    rcases List.mem_cons.1 h with rfl | h
    · exact ⟨g.source, c, more, by rw [L.gap_split hg, hr], (gap_stops hg hr).1, rfl, rfl⟩
    · obtain ⟨before, d, rest, hrest, hd, hs, ht⟩ := ih h
      refine ⟨g.source ++ piece.source ++ before, d, rest, ?_, hd, ?_, ht⟩
      · rw [L.gap_split hg, hr, hp, hrest]
        simp only [List.append_assoc]
      · rw [hs, Position.advance_append, Position.advance_append]

theorem start_le_of_mem_readFrom {lexeme : Lexeme Token}
    (h : lexeme ∈ (L.readFrom place text).lexemes) :
    place ≤ lexeme.start ∧ lexeme.start ≤ place.advance text := by
  obtain ⟨before, c, after, rfl, -, hs, -⟩ := start_of_mem_readFrom h
  rw [hs, Position.advance_append]
  exact ⟨place.le_advance before, (place.advance before).le_advance (c :: after)⟩

/-- No lexeme stands before the one that is read before it. -/
theorem pairwise_start_readFrom (L : Lexicon Token) (place : Position) (text : List Char) :
    (L.readFrom place text).lexemes.Pairwise fun a b => a.start ≤ b.start := by
  fun_induction L.readFrom place text with
  | case1 => exact .nil
  | case2 => exact .nil
  | case3 place text g hg c more hr start piece after first ih =>
    refine .cons (fun lexeme h => ?_) ih
    exact Position.le_trans (start.le_advance piece.source) (start_le_of_mem_readFrom h).1

end Lexicon

/-! ## Faults -/

namespace Reader

variable {Token State Result : Type} (R : Reader Token State Result) {lexed : Lexed Token}
  {lexemes : List (Lexeme Token)} {stop : Position} {state : State} {d : Diagnostic}

theorem advance_eq_error {lexeme : Lexeme Token} (h : R.advance stop state lexeme = .error d) :
    ∃ fault, R.step state lexeme = .error fault ∧
      d = R.diagnostic state fault lexeme.start stop := by
  unfold advance at h
  cases hs : R.step state lexeme with
  | error fault => rw [hs] at h; cases h; exact ⟨fault, rfl, rfl⟩
  | ok next => rw [hs] at h; cases h

/-- A run fails at a lexeme, or at the end of the text. -/
theorem run_eq_error (h : R.run lexed = .error d) :
    (∃ before lexeme after state fault, lexed.lexemes = before ++ lexeme :: after ∧
      before.foldlM R.step R.initial = .ok state ∧ R.step state lexeme = .error fault ∧
        d = R.diagnostic state fault lexeme.start lexed.stop) ∨
    ∃ state, lexed.lexemes.foldlM R.step R.initial = .ok state ∧
      d = R.diagnostic state .unexpectedEnd lexed.stop lexed.stop := by
  unfold run at h
  cases hf : lexed.lexemes.foldlM (R.advance lexed.stop) R.initial with
  | error e =>
    rw [hf] at h
    cases h
    obtain ⟨before, lexeme, after, state, hl, hb, ha⟩ := foldlM_eq_error hf
    obtain ⟨fault, hs, hd⟩ := R.advance_eq_error ha
    exact .inl ⟨before, lexeme, after, state, fault, hl, R.foldlM_advance_eq_ok_iff.1 hb, hs, hd⟩
  | ok state =>
    rw [hf, ok_bind, conclude] at h
    split at h
    · cases h
    · cases h
      exact .inr ⟨state, R.foldlM_advance_eq_ok_iff.1 hf, rfl⟩

/-- A fault is that the text ends and shows there, or it shows at a lexeme. -/
theorem position_of_run_eq_error (h : R.run lexed = .error d) :
    (d.fault = .unexpectedEnd ∧ d.position = lexed.stop) ∨
      (d.fault ≠ .unexpectedEnd ∧ ∃ lexeme ∈ lexed.lexemes, d.position = lexeme.start) := by
  rcases R.run_eq_error h with ⟨before, lexeme, after, state, fault, hl, -, -, rfl⟩ |
    ⟨state, -, rfl⟩
  · by_cases hf : fault = .unexpectedEnd
    · exact .inl ⟨hf, if_pos hf⟩
    · exact .inr ⟨hf, lexeme, by simp [hl], if_neg hf⟩
  · exact .inl ⟨rfl, by simp [diagnostic]⟩

/-- If every step that fails outside the rules meets one kind of fault, so does a run. -/
theorem fault_of_rule_eq_none {expected : Fault}
    (hstep : ∀ {state lexeme fault}, R.step state lexeme = .error fault →
      R.rule? state fault = none → fault = expected)
    (h : R.run lexed = .error d) (hd : d.rule = none) :
    d.fault = .unexpectedEnd ∨ d.fault = expected := by
  rcases R.run_eq_error h with ⟨-, lexeme, -, state, fault, -, -, hs, rfl⟩ | ⟨state, -, rfl⟩
  · exact .inr (hstep hs hd)
  · exact .inl rfl

/-- The rule in which a fault lies comes to be read at a lexeme that is not behind the fault. -/
theorem exists_step_of_rule (context : State → Option RuleContext) {rule : RuleContext}
    {L : Lexicon Token} {text : List Char} (hinitial : context R.initial = none)
    (hcontext : ∀ {state fault}, R.rule? state fault = some rule → context state = some rule)
    (hstop : lexed.stop = (L.read text).stop)
    (hstart : lexed.lexemes.map Lexeme.start = (L.read text).lexemes.map Lexeme.start)
    (h : R.run lexed = .error d) (hd : d.rule = some rule) :
    ∃ before lexeme after state next, lexed.lexemes = before ++ lexeme :: after ∧
      before.foldlM R.step R.initial = .ok state ∧ R.step state lexeme = .ok next ∧
        context state ≠ some rule ∧ context next = some rule ∧ lexeme.start ≤ d.position := by
  have hnone : ¬ context R.initial = some rule := by simp [hinitial]
  have horder : lexed.lexemes.Pairwise fun a b => a.start ≤ b.start := by
    rw [← List.pairwise_map (f := Lexeme.start) (R := (· ≤ ·)), hstart, List.pairwise_map]
    exact L.pairwise_start_readFrom .start text
  have hend : ∀ lexeme ∈ lexed.lexemes, lexeme.start ≤ lexed.stop := by
    intro lexeme hm
    have hm := List.mem_map_of_mem (f := Lexeme.start) hm
    rw [hstart] at hm
    obtain ⟨first, hm, hf⟩ := List.mem_map.1 hm
    rw [← hf, hstop, Lexicon.read, Lexicon.readFrom_stop]
    exact (Lexicon.start_le_of_mem_readFrom hm).2
  rcases R.run_eq_error h with ⟨read, last, rest, state, fault, hl, hr, -, rfl⟩ | ⟨state, hr, rfl⟩
  · obtain ⟨before, lexeme, after, u, v, rfl, hu, hv, hn, hc⟩ :=
      exists_step_of_foldlM (p := (context · = some rule)) hnone (hcontext hd) hr
    have hm : lexeme ∈ before ++ lexeme :: after := by simp
    refine ⟨before, lexeme, after ++ last :: rest, u, v, by simp [hl], hu, hv, hn, hc, ?_⟩
    rw [diagnostic]
    split
    · exact hend lexeme (hl ▸ List.mem_append_left _ hm)
    · rw [hl] at horder
      exact (List.pairwise_append.1 horder).2.2 lexeme hm last (by simp)
  · obtain ⟨before, lexeme, after, u, v, hl, hu, hv, hn, hc⟩ :=
      exists_step_of_foldlM (p := (context · = some rule)) hnone (hcontext hd) hr
    refine ⟨before, lexeme, after, u, v, hl, hu, hv, hn, hc, ?_⟩
    rw [diagnostic, if_pos rfl]
    exact hend lexeme (by simp [hl])

end Reader

/-! ## Places in a text -/

/-- The diagnostic shows between the two parts of a text. -/
structure Diagnostic.ShowsBetween (d : Diagnostic) (before after : List Char) : Prop where
  offset : d.position.offset = byteLength before
  line : d.position.line = 1 + lineFeeds before
  unexpectedEnd_iff : d.fault = .unexpectedEnd ↔ d.position.offset = byteLength (before ++ after)
  not_blank : d.position.offset < byteLength (before ++ after) →
    ∃ c more, after = c :: more ∧ isBlank c = false

namespace Diagnostic.ShowsBetween

variable {d : Diagnostic} {before more : List Char} {c : Char}

theorem of_end (hf : d.fault = .unexpectedEnd)
    (hp : d.position = Position.start.advance before) : d.ShowsBetween before [] := by
  rw [Position.start_advance] at hp
  have ho : d.position.offset = byteLength before := by rw [hp]
  refine ⟨ho, by rw [hp], ?_, ?_⟩
  · simp [hf, ho]
  · simp [ho]

theorem of_not_blank (hf : d.fault ≠ .unexpectedEnd)
    (hc : isBlank c = false) (hp : d.position = Position.start.advance before) :
    d.ShowsBetween before (c :: more) := by
  rw [Position.start_advance] at hp
  have ho : d.position.offset = byteLength before := by rw [hp]
  refine ⟨ho, by rw [hp], ?_, fun _ => ⟨c, more, rfl, hc⟩⟩
  have := c.utf8Size_pos
  simp only [hf, false_iff, ho, byteLength_append, byteLength]
  omega

end Diagnostic.ShowsBetween

/-- Whatever is made of the tokens of a text, a fault shows at a place of that text. -/
theorem Reader.showsBetween_of_run_eq_error {Token State Result : Type}
    (R : Reader Token State Result) {L : Lexicon Token} {text : List Char} {lexed : Lexed Token}
    {d : Diagnostic} (hstop : lexed.stop = (L.read text).stop)
    (hstart : lexed.lexemes.map Lexeme.start = (L.read text).lexemes.map Lexeme.start)
    (h : R.run lexed = .error d) : ∃ before after, text = before ++ after ∧
      d.ShowsBetween before after := by
  rcases R.position_of_run_eq_error h with ⟨hf, hp⟩ | ⟨hf, lexeme, hm, hp⟩
  · rw [hstop, Lexicon.read, Lexicon.readFrom_stop] at hp
    exact ⟨text, [], (List.append_nil text).symm, .of_end hf hp⟩
  · obtain ⟨first, hfirst, hs⟩ : ∃ first ∈ (L.read text).lexemes, first.start = lexeme.start := by
      rw [← List.mem_map, ← hstart]
      exact List.mem_map_of_mem hm
    obtain ⟨before, c, after, ht, hc, hb, -⟩ := Lexicon.start_of_mem_readFrom hfirst
    exact ⟨before, c :: after, ht, .of_not_blank hf hc (by rw [hp, ← hs, hb])⟩

end GrammarText
