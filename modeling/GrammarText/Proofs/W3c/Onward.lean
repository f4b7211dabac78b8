import GrammarText.Proofs.Lexis.Onward
import GrammarText.Proofs.W3c.Scan
import GrammarText.Proofs.W3c.Steps

/-!
# Reading on in a W3C grammar

What is left of a text is read on from a state. A gap can be passed before, unless a mark for
repetition may still be glued to what has been read, and a token leads to the state that its step
leads to.
-/

namespace GrammarText.W3c

theorem rests_cons {c : Char} {more : List Char} (hb : isBlank c = false) (hc : c ≠ '/') :
    lexicon.Rests (c :: more) where
  not_blank := by simp [hb]
  absent := blockComment_cons_eq_absent hc

/-! ## Heads of rules -/

section Heads

variable {text : List Char} {place : Position} {c : Char} {more : List Char} {g : Gap}
  {lexeme : Lexeme Token} {piece : Piece Token}

/-- The token as it is marked if a defining mark comes after it, or if none does. -/
def Token.marked (head : Bool) : Token → Token
  | .symbol name _ => .symbol name head
  | token => token

/-- Reads the token that starts with `c`, and marks it. -/
def Token.readMarked (c : Char) (more : List Char) : Piece Token :=
  let piece := read c more
  { piece with token := piece.token.marked (definingNext piece.rest) }

theorem definingNext_dropWhile (text : List Char) :
    definingNext text = definingNext (text.dropWhile isBlank) := by
  induction text with
  | nil => rfl
  | cons c more ih =>
    by_cases hc : isBlank c = true
    · rw [definingNext_cons, if_pos hc, ih, List.dropWhile_cons_of_pos hc]
    · rw [List.dropWhile_cons_of_neg hc]

theorem definingNext_of_rests (h : lexicon.Rests text) :
    definingNext text = (afterMark? [':', ':', '='] text).isSome := by
  cases text with
  | nil => rw [definingNext]; rfl
  | cons c more =>
    have hb : isBlank c = false := by
      simpa using Lexicon.takeWhile_eq_nil_of_dropWhile h.not_blank
    have hc : blockComment (c :: more) = .absent := h.absent
    rw [definingNext_cons, hb, hc]
    rfl

/-- A comment is passed, and one that never ends leaves nothing behind it. -/
theorem definingNext_of_comment (hb : text.dropWhile isBlank = text)
    (hc : blockComment text ≠ .absent) : definingNext text =
      match blockComment text with
      | .found _ _ rest => definingNext rest
      | _ => false := by
  obtain ⟨c, more, rfl⟩ := Lexicon.eq_cons_of_comment (L := lexicon) rfl hc
  have hb : isBlank c = false := by simpa using Lexicon.takeWhile_eq_nil_of_dropWhile hb
  obtain rfl : c = '/' := by_contra fun h => hc (blockComment_cons_eq_absent h)
  rw [definingNext_cons, hb]
  cases blockComment ('/' :: more) <;> rfl

theorem definingNext_of_gap (hg : lexicon.gap text = some g) :
    definingNext text = definingNext g.rest := by
  fun_induction lexicon.gap text generalizing g with
  | case1 text body source rest hc g' hg' ih =>
    cases hg
    have hc : blockComment (text.dropWhile isBlank) = .found body source rest := hc
    rw [definingNext_dropWhile, definingNext_of_comment (List.dropWhile_idempotent isBlank text)
      (by simp [hc]), hc]
    exact @ih g' hg'
  | case2 => cases hg
  | case3 => cases hg; exact definingNext_dropWhile _
  | case4 => cases hg

theorem definingNext_of_gap_eq_none (hg : lexicon.gap text = none) :
    definingNext text = false := by
  fun_induction lexicon.gap text with
  | case1 => cases hg
  | case2 text body source rest hc hg' ih =>
    have hc : blockComment (text.dropWhile isBlank) = .found body source rest := hc
    rw [definingNext_dropWhile, definingNext_of_comment (List.dropWhile_idempotent isBlank text)
      (by simp [hc]), hc]
    exact ih hg'
  | case3 => cases hg
  | case4 text source rest hc =>
    have hc : blockComment (text.dropWhile isBlank) = .unclosed source rest := hc
    rw [definingNext_dropWhile, definingNext_of_comment (List.dropWhile_idempotent isBlank text)
      (by simp [hc]), hc]

theorem head?_readFrom (place : Position) (text : List Char) :
    ((lexicon.readFrom place text).lexemes.head?.map Lexeme.token == some .defining) =
      definingNext text := by
  cases hg : lexicon.gap text with
  | none => rw [Lexicon.readFrom_of_gap_eq_none hg, definingNext_of_gap_eq_none hg]; rfl
  | some g =>
    rw [definingNext_of_gap hg, definingNext_of_rests (Lexicon.rests_of_gap hg)]
    cases hr : g.rest with
    | nil => rw [Lexicon.readFrom_of_nil hg hr]; rfl
    | cons c more =>
      rw [Lexicon.readFrom_of_gap hg hr rfl, Bool.eq_iff_iff, ← Token.read_eq_defining_iff]
      simp [Lexed.cons, lexicon]

theorem markHeads_eq (h : ∀ name, lexeme.token ≠ .symbol name true)
    (more : List (Lexeme Token)) : markHeads (lexeme :: more) =
      { lexeme with
        token := lexeme.token.marked (more.head?.map Lexeme.token == some .defining) } ::
        markHeads more := by
  by_cases hs : ∃ name head, lexeme.token = .symbol name head
  · obtain ⟨name, head, ht⟩ := hs
    cases more with
    | nil =>
      obtain rfl : head = false := by simpa using fun hh : head = true => h name (hh ▸ ht)
      obtain ⟨comments, glued, start, token⟩ := lexeme
      cases ht
      rfl
    | cons next more => rw [markHeads_symbol ht, ht]; rfl
  · have ht : ∀ name head, lexeme.token ≠ .symbol name head := fun n h e => hs ⟨n, h, e⟩
    have hm : lexeme.token.marked (more.head?.map Lexeme.token == some .defining) =
        lexeme.token := by
      cases hl : lexeme.token with
      | symbol name head => exact absurd hl (ht name head)
      | _ => rfl
    rw [markHeads_cons ht, hm]

/-- Cuts a text, the first character of which is at `place`, into lexemes, the heads of rules
marked. -/
def lexemesFrom (place : Position) (text : List Char) : Lexed Token :=
  let lexed := lexicon.readFrom place text
  { lexed with lexemes := markHeads lexed.lexemes }

theorem lexemesFrom_of_gap_eq_none (hg : lexicon.gap text = none) :
    lexemesFrom place text = ⟨[], none, place.advance text⟩ := by
  rw [lexemesFrom, Lexicon.readFrom_of_gap_eq_none hg]
  rfl

theorem lexemesFrom_of_nil (hg : lexicon.gap text = some g) (hr : g.rest = []) :
    lexemesFrom place text = ⟨[], some g.comments, place.advance g.source⟩ := by
  rw [lexemesFrom, Lexicon.readFrom_of_nil hg hr]
  rfl

theorem lexemesFrom_nil (place : Position) : lexemesFrom place [] = ⟨[], some [], place⟩ := by
  rw [lexemesFrom, Lexicon.readFrom_nil]
  rfl

theorem lexemesFrom_of_gap (hg : lexicon.gap text = some g) (hr : g.rest = c :: more)
    (ht : Token.readMarked c more = piece) : lexemesFrom place text =
      (lexemesFrom ((place.advance g.source).advance piece.source) piece.rest).cons
        ⟨g.comments, g.source.isEmpty, place.advance g.source, piece.token⟩ := by
  subst ht
  rw [lexemesFrom, Lexicon.readFrom_of_gap hg hr rfl, Lexed.cons, markHeads_eq, head?_readFrom]
  · rfl
  · exact Token.read_ne_head rfl

theorem lexemesFrom_of_rests (h : lexicon.Rests (c :: more))
    (ht : Token.readMarked c more = piece) :
    lexemesFrom place (c :: more) =
      (lexemesFrom (place.advance piece.source) piece.rest).cons ⟨[], true, place, piece.token⟩ :=
  lexemesFrom_of_gap h.gap_eq rfl ht

end Heads

/-! ## Reading on -/

section Readers

variable {α : Type}

/-- The reader that makes something else of the state in which the text ends. -/
def readerWith (finish : State → Option α) : Reader Token State α where
  initial := reader.initial
  step := State.step
  finish state _ := finish state
  rule? := State.rule?

/-- Reads on where the scanner stands. -/
def State.readOn (finish : State → Option α) (state : State) (s : Scanner) : Except Diagnostic α :=
  (readerWith finish).runOn (lexemesFrom s.position s.rest) state

theorem Grammar.parse_eq_readOn (text : String) :
    Grammar.parse text = reader.initial.readOn State.finish (.ofText text) := rfl

end Readers

/-- The token that comes next, with the text that it takes. -/
def Next (s : Scanner) (piece : Piece Token) : Prop :=
  ∃ c more, s.rest = c :: more ∧ Token.readMarked c more = piece

/-- The token does not come next. -/
def Lacks (s : Scanner) (token : Token) : Prop := ∀ piece, Next s piece → piece.token ≠ token

section Next

variable {s : Scanner} {piece : Piece Token} {token : Token} {source rest : List Char}

theorem Next.rest_eq (h : Next s piece) : s.rest = piece.source ++ piece.rest := by
  obtain ⟨c, more, hs, rfl⟩ := h
  rw [hs]
  exact (Token.read_isSplitOf c more).1

theorem Next.left_lt (h : Next s ⟨token, source, rest⟩) : (s.pass source rest).left < s.left := by
  refine (Scanner.Passes.pass h.rest_eq).left_lt ?_
  obtain ⟨c, more, -, h⟩ := h
  cases h
  exact (Token.read_isSplitOf c more).2

theorem Next.unique {piece' : Piece Token} (h : Next s piece) (h' : Next s piece') :
    piece = piece' := by
  obtain ⟨c, more, hs, rfl⟩ := h
  obtain ⟨d, more', hs', rfl⟩ := h'
  cases hs.symm.trans hs'
  rfl

end Next

namespace State

variable {α : Type} {finish : State → Option α} {state state' next : State} {s : Scanner} {g : Gap}
  {piece : Piece Token} {token : Token} {source rest : List Char} {fault : Fault}

theorem readOn_of_gap_eq_none (h : lexicon.gap s.rest = none) :
    state.readOn finish s = .error { s.unterminated with rule := state.rule? .unexpectedEnd } := by
  rw [readOn, lexemesFrom_of_gap_eq_none h]
  rfl

/-- What comes before a token makes no difference to the state. -/
def IsFree (state : State) : Prop := ∀ comments glued start token,
  state.step ⟨comments, glued, start, token⟩ = state.step ⟨[], true, start, token⟩

theorem readOn_of_gap (hf : state.IsFree) (h : lexicon.gap s.rest = some g) :
    state.readOn finish s = state.readOn finish (s.pass g.source g.rest) := by
  have hrests := Lexicon.rests_of_gap h
  rw [readOn, readOn]
  cases hr : g.rest with
  | nil =>
    rw [lexemesFrom_of_nil h hr, Scanner.pass, lexemesFrom_nil]
    rfl
  | cons c more =>
    rw [hr] at hrests
    rw [lexemesFrom_of_gap h hr rfl, Scanner.pass, lexemesFrom_of_rests hrests rfl]
    exact (readerWith finish).runOn_cons_congr (hf _ _ _ _) rfl fun _ _ => rfl

theorem readOn_of_step (hr : lexicon.Rests s.rest) (hn : Next s ⟨token, source, rest⟩)
    (h : state.step ⟨[], true, s.position, token⟩ = .ok next) :
    state.readOn finish s = next.readOn finish (s.pass source rest) := by
  obtain ⟨c, more, hs, ht⟩ := hn
  rw [hs] at hr
  rw [readOn, hs, lexemesFrom_of_rests hr ht, (readerWith finish).runOn_cons_of_ok h]
  rfl

theorem readOn_of_fault (hr : lexicon.Rests s.rest) (hn : Next s piece)
    (h : state.step ⟨[], true, s.position, piece.token⟩ = .error fault) :
    state.readOn finish s = .error ⟨fault,
      if fault = .unexpectedEnd then s.position.advance s.rest else s.position,
      state.rule? fault⟩ := by
  have hstop : (lexemesFrom s.position s.rest).stop = s.position.advance s.rest :=
    lexicon.readFrom_stop s.position s.rest
  obtain ⟨c, more, hs, ht⟩ := hn
  rw [hs] at hr hstop ⊢
  rw [lexemesFrom_of_rests hr ht] at hstop
  rw [readOn, hs, lexemesFrom_of_rests hr ht, (readerWith finish).runOn_cons_of_error h,
    ← hstop]
  rfl

/-- At the end of the text what is read must be whole. -/
theorem readOn_of_end (hr : s.rest = []) : state.readOn finish s =
    match finish state with
    | some result => .ok result
    | none => .error { s.diagnose .unexpectedEnd with rule := state.rule? .unexpectedEnd } := by
  have hf : (some []).bind ((readerWith finish).finish state) = finish state := rfl
  rw [readOn, hr, lexemesFrom_nil, Reader.runOn, List.foldlM_nil, pure_bind, Reader.conclude, hf]
  cases finish state <;> rfl

/-- Where whatever comes next is a fault, so is the end of the text. -/
theorem readOn_eq_expected {rule : Option RuleContext} (hr : lexicon.Rests s.rest)
    (hf : fault ≠ .unexpectedEnd) (hrule : state.rule? fault = rule)
    (hruleEnd : state.rule? .unexpectedEnd = rule) (he : s.rest = [] → finish state = none)
    (h : ∀ piece, Next s piece →
      state.step ⟨[], true, s.position, piece.token⟩ = .error fault) :
    state.readOn finish s = .error { s.expected fault with rule } := by
  cases hs : s.rest with
  | nil =>
    rw [readOn_of_end hs, he hs, hruleEnd]
    simp [Scanner.expected, Scanner.isAtEnd, hs]
  | cons c more =>
    have hn : Next s (Token.readMarked c more) := ⟨c, more, hs, rfl⟩
    rw [readOn_of_fault hr hn (h _ hn), if_neg hf, hrule]
    simp [Scanner.expected, Scanner.isAtEnd, hs, Scanner.diagnose]

/-- Two states that do the same with whatever comes next read on alike. -/
theorem readOn_congr (hr : lexicon.Rests s.rest)
    (hend : s.rest = [] → state.readOn finish s = state'.readOn finish s)
    (hstep : ∀ piece, Next s piece → state.step ⟨[], true, s.position, piece.token⟩ =
      state'.step ⟨[], true, s.position, piece.token⟩)
    (hrule : ∀ piece fault, Next s piece →
      state.step ⟨[], true, s.position, piece.token⟩ = .error fault →
        state.rule? fault = state'.rule? fault) :
    state.readOn finish s = state'.readOn finish s := by
  cases hs : s.rest with
  | nil => exact hend hs
  | cons c more =>
    have hn : Next s (Token.readMarked c more) := ⟨c, more, hs, rfl⟩
    rw [hs] at hr
    rw [readOn, readOn, hs, lexemesFrom_of_rests hr rfl]
    exact (readerWith finish).runOn_cons_congr (hstep _ hn) rfl (hrule _ · hn)

/-- Two states that do the same with whatever comes next, perhaps after a gap, read on alike. -/
theorem readOn_congr_of_glued (hfinish : finish state = finish state')
    (hrule : ∀ fault, state.rule? fault = state'.rule? fault)
    (hstep : ∀ lexeme, (lexeme.glued = true → ∃ piece, Next s piece ∧ piece.token = lexeme.token) →
      state.step lexeme = state'.step lexeme) :
    state.readOn finish s = state'.readOn finish s := by
  cases hg : lexicon.gap s.rest with
  | none => rw [readOn_of_gap_eq_none hg, readOn_of_gap_eq_none hg, hrule]
  | some g =>
    rw [readOn, readOn]
    cases hr : g.rest with
    | nil =>
      have hf : (readerWith finish).finish state = (readerWith finish).finish state' :=
        funext fun _ => hfinish
      rw [lexemesFrom_of_nil hg hr, Reader.runOn, Reader.runOn, List.foldlM_nil, List.foldlM_nil,
        pure_bind, pure_bind, Reader.conclude, Reader.conclude, hf, Reader.diagnostic,
        Reader.diagnostic]
      simp only [readerWith, hrule]
    | cons c more =>
      rw [lexemesFrom_of_gap hg hr rfl]
      refine (readerWith finish).runOn_cons_congr (hstep _ fun hglued => ?_) rfl
        fun fault _ => hrule fault
      have hs := lexicon.gap_split hg
      rw [List.isEmpty_iff.1 hglued, hr, List.nil_append] at hs
      exact ⟨_, ⟨c, more, hs, rfl⟩, rfl⟩

theorem startRule_eq_error {rules : List Rule} {lexeme : Lexeme Token}
    (h : startRule rules lexeme = .error fault) : fault = .expectedSymbol := by
  unfold startRule at h
  split at h <;> cases h
  rfl

end State

/-! ## Which token comes next -/

/-- The spelling of a mark that stands alone. -/
def Token.spelling? : Token → Option (List Char)
  | .defining => some [':', ':', '=']
  | .opening => some ['(']
  | .closing => some [')']
  | .bar => some ['|']
  | .minus => some ['-']
  | _ => none

section Tokens

variable {s : Scanner} {piece : Piece Token} {token : Token} {mark source rest : List Char}
  {value : String}

theorem Next.source_eq (hn : Next s piece) (h : piece.token.spelling? = some mark) :
    piece.source = mark := by
  obtain ⟨c, more, -, rfl⟩ := hn
  obtain ⟨read, hr⟩ : ∃ read, Token.read c more = read := ⟨_, rfl⟩
  simp only [Token.readMarked, hr] at h ⊢
  cases Token.reads hr with
  | mark _ _ hm =>
    revert h
    subst hm
    unfold Token.ofMark
    split <;> rintro ⟨⟩ <;> rfl
  | _ => cases h

theorem next_of_ofMark {c : Char} {more : List Char} (ha : c.isAlpha = false)
    (hq : isQuote c = false) (hs : s.rest = c :: more) : Next s (Token.ofMark c more) := by
  have hm (head : Bool) :
      (Token.ofMark c more).token.marked head = (Token.ofMark c more).token := by
    unfold Token.ofMark
    split <;> rfl
  refine ⟨c, more, hs, ?_⟩
  rw [Token.readMarked, Token.read_eq_ofMark ha hq, hm]

theorem next_of_spelling (h : token.spelling? = some mark) (hs : s.rest = mark ++ rest) :
    Next s ⟨token, mark, rest⟩ := by
  cases token <;> cases h <;> exact next_of_ofMark rfl rfl hs

theorem lacks_of_spelling (h : token.spelling? = some mark) (hn : ¬ mark <+: s.rest) :
    Lacks s token := by
  rintro piece hp rfl
  refine hn ⟨piece.rest, ?_⟩
  rw [hp.rest_eq, hp.source_eq h]

theorem next_of_word (h : word s.rest = .found value source rest) :
    Next s ⟨.symbol value (definingNext rest), source, rest⟩ := by
  obtain ⟨-, hne, -, -, hs⟩ := word_eq_found_iff.1 h
  obtain ⟨c, tail, rfl⟩ := List.exists_cons_of_ne_nil hne
  rw [hs] at h
  have hr : Token.read c (tail ++ rest) = ⟨.symbol value false, c :: tail, rest⟩ :=
    Token.read_of_word h
  exact ⟨c, tail ++ rest, hs, by rw [Token.readMarked, hr]; rfl⟩

theorem lacks_symbol {head : Bool} (h : word s.rest = .absent) : Lacks s (.symbol value head) := by
  rintro piece ⟨c, more, hs, rfl⟩ ht
  rw [hs] at h
  obtain ⟨read, hr⟩ : ∃ read, Token.read c more = read := ⟨_, rfl⟩
  simp only [Token.readMarked, hr] at ht
  cases Token.reads hr with
  | symbol hw => rw [h] at hw; cases hw
  | mark _ _ hm =>
    subst hm
    unfold Token.ofMark at ht
    split at ht <;> cases ht
  | _ => cases ht

/-- The head of a rule comes next exactly if a word does that the defining mark follows. -/
theorem Next.isHead_iff (hn : Next s piece) : piece.token.isHead = true ↔
    ∃ name source rest, word s.rest = .found name source rest ∧ definingNext rest = true := by
  constructor
  · intro h
    obtain ⟨c, more, hs, rfl⟩ := hn
    obtain ⟨read, hr⟩ : ∃ read, Token.read c more = read := ⟨_, rfl⟩
    simp only [Token.readMarked, hr] at h
    cases Token.reads hr with
    | symbol hw => exact ⟨_, _, _, hs ▸ hw, h⟩
    | mark _ _ hm =>
      subst hm
      unfold Token.ofMark at h
      split at h <;> cases h
    | _ => cases h
  · rintro ⟨name, source, rest, hw, hd⟩
    rw [hn.unique (next_of_word hw)]
    exact hd

theorem next_of_quotedText (h : quotedText s.rest = .found value source rest) :
    Next s ⟨.literal value, source, rest⟩ := by
  obtain ⟨c, more, hs, hq⟩ := exists_quote_of_quotedText (h ▸ by simp : quotedText s.rest ≠ .absent)
  have ha : c.isAlpha = false := eq_false_of_class (isQuote_of_class rfl rfl) hq
  rw [hs] at h
  exact ⟨c, more, hs, by rw [Token.readMarked, Token.read_of_quotedText ha h]; rfl⟩

theorem next_of_quotedText_unclosed (h : quotedText s.rest = .unclosed source rest) :
    Next s ⟨.unclosed, source ++ rest, []⟩ := by
  obtain ⟨c, more, hs, hq⟩ := exists_quote_of_quotedText (h ▸ by simp : quotedText s.rest ≠ .absent)
  have ha : c.isAlpha = false := eq_false_of_class (isQuote_of_class rfl rfl) hq
  rw [hs] at h
  have hr : Token.read c more = ⟨.unclosed, source ++ rest, []⟩ := by
    simp [Token.read, word_cons_eq_absent_iff.2 ha, h, Recognition.toPiece?]
  exact ⟨c, more, hs, by rw [Token.readMarked, hr]; rfl⟩

/-- What starts no operand is a fault where one must start. -/
theorem atOperand_eq_error {body : Body} {minuend : Option Expression} (hn : Next s piece)
    (hw : word s.rest = .absent) (hq : quotedText s.rest = .absent)
    (hm : ∀ c ∈ s.rest.head?, c ∉ ['(', '[', '#']) :
    body.atOperand minuend piece.token = .error .expectedExpression := by
  obtain ⟨c, more, hs, rfl⟩ := hn
  rw [hs] at hw hq hm
  have hr : Token.read c more = Token.ofMark c more :=
    Token.read_eq_ofMark (word_cons_eq_absent_iff.1 hw) (quotedText_cons_eq_absent_iff.1 hq)
  rw [Token.readMarked, hr]
  unfold Token.ofMark
  split <;> first | rfl | exact absurd (hm _ rfl) (by simp)

end Tokens

/-! ## Right sides of rules -/

/-- What stands before the right side of a rule, the rules before it and its own name and line, and
what is made of it at the end of the text. -/
structure Frame (α : Type) where
  rules : List Rule
  rule : RuleContext
  finish : State → Option α
  finish_of_partly : ∀ {body : Body}, body.finish = none →
    finish ⟨rules, .within rule body⟩ = none
  /-- It makes no difference whether a mark for repetition might still come. -/
  finish_mark : ∀ (opened : List Opened) (level : Level) (minuend : Option Expression)
    (operand : Expression),
    finish ⟨rules, .within rule ⟨opened, level, .item minuend operand false⟩⟩ =
      finish ⟨rules, .within rule ⟨opened, level, .item minuend operand true⟩⟩

namespace Frame

variable {α : Type} {frame : Frame α} {body next : Body} {opened : List Opened} {level : Level}
  {minuend : Option Expression} {operand : Expression} {s : Scanner} {piece : Piece Token}
  {token : Token} {source rest : List Char} {fault : Fault} {result : Except Diagnostic α}

/-- Reads on within the right side of the rule. -/
def readOn (frame : Frame α) (body : Body) (s : Scanner) : Except Diagnostic α :=
  State.readOn frame.finish ⟨frame.rules, .within frame.rule body⟩ s

/-- A right side after which the grammar may end. -/
def ofRule (rules : List Rule) (rule : RuleContext) : Frame Grammar where
  rules
  rule
  finish := State.finish
  finish_of_partly h := by simp only [State.finish, h, Option.map_none]
  finish_mark opened _ _ _ := by cases opened <;> rfl

theorem rule?_within (h : fault ≠ .expectedSymbol) :
    State.rule? ⟨frame.rules, .within frame.rule body⟩ fault = some frame.rule := by
  cases fault with
  | expectedSymbol => exact absurd rfl h
  | _ => rfl

theorem rule?_congr (body body' : Body) (fault : Fault) :
    State.rule? ⟨frame.rules, .within frame.rule body⟩ fault =
      State.rule? ⟨frame.rules, .within frame.rule body'⟩ fault := by
  cases fault <;> rfl

theorem readOn_of_partly (hr : lexicon.Rests s.rest) (hn : Next s ⟨token, source, rest⟩)
    (hs : Body.Step body token (.partly next)) (h : frame.readOn body s = result) :
    frame.readOn next (s.pass source rest) = result := by
  refine (State.readOn_of_step hr hn ?_).symm.trans h
  simp only [State.step, hs.step_eq]

theorem readOn_of_fault (hr : lexicon.Rests s.rest) (hn : Next s piece)
    (hf : fault ≠ .unexpectedEnd) (hs : fault ≠ .expectedSymbol)
    (h : body.step true piece.token = .error fault) :
    frame.readOn body s = .error ((s.diagnose fault).inRule frame.rule) := by
  have hstep : State.step ⟨frame.rules, .within frame.rule body⟩
      ⟨[], true, s.position, piece.token⟩ = .error fault := by
    simp only [State.step, h]
  rw [readOn, State.readOn_of_fault hr hn hstep, if_neg hf, rule?_within hs]
  rfl

theorem readOn_of_unclosed (hr : lexicon.Rests s.rest) (hn : Next s piece)
    (h : body.step true piece.token = .error .unexpectedEnd) :
    frame.readOn body s = .error (s.unterminated.inRule frame.rule) := by
  have hstep : State.step ⟨frame.rules, .within frame.rule body⟩
      ⟨[], true, s.position, piece.token⟩ = .error .unexpectedEnd := by
    simp only [State.step, h]
  exact State.readOn_of_fault hr hn hstep

theorem readOn_eq_expected (hr : lexicon.Rests s.rest) (hf : fault ≠ .unexpectedEnd)
    (hs : fault ≠ .expectedSymbol) (hend : body.finish = none)
    (h : ∀ piece, Next s piece → body.step true piece.token = .error fault) :
    frame.readOn body s = .error ((s.expected fault).inRule frame.rule) := by
  refine State.readOn_eq_expected hr hf (rule?_within hs) (rule?_within (by simp))
    (fun _ => frame.finish_of_partly hend) fun piece hn => ?_
  simp only [State.step, h piece hn]

theorem readOn_congr {body' : Body} (hr : lexicon.Rests s.rest) (hne : s.rest ≠ [])
    (hstep : ∀ piece, Next s piece →
      body.step true piece.token = body'.step true piece.token) :
    frame.readOn body s = frame.readOn body' s := by
  refine State.readOn_congr hr (fun he => absurd he hne) (fun piece hn => ?_) fun _ fault _ _ =>
    rule?_congr body body' fault
  simp only [State.step, hstep piece hn]

/-! ## After an operand -/

theorem isFree_operand :
    State.IsFree ⟨frame.rules, .within frame.rule ⟨opened, level, .operand minuend⟩⟩ :=
  fun _ _ _ _ => rfl

/-- What has a mark for repetition takes no other one, glued or not. -/
theorem isFree_item :
    State.IsFree ⟨frame.rules, .within frame.rule ⟨opened, level, .item minuend operand true⟩⟩ := by
  intro comments glued start token
  have hstep : Body.step ⟨opened, level, .item minuend operand true⟩ glued token =
      Body.step ⟨opened, level, .item minuend operand true⟩ true token := by
    cases glued <;> cases token <;> cases minuend <;> rfl
  simp only [State.step, hstep]
  rfl

/-- Where no mark for repetition is glued to an operand, it has none. -/
theorem readOn_of_lacks_suffix (h : ∀ occurrence, Lacks s (.suffix occurrence)) :
    frame.readOn ⟨opened, level, .item minuend operand false⟩ s =
      frame.readOn ⟨opened, level, .item minuend operand true⟩ s := by
  refine State.readOn_congr_of_glued (frame.finish_mark opened level minuend operand)
    (rule?_congr _ _) fun lexeme hl => ?_
  obtain ⟨comments, glued, start, token⟩ := lexeme
  have hstep : Body.step ⟨opened, level, .item minuend operand false⟩ glued token =
      Body.step ⟨opened, level, .item minuend operand true⟩ glued token := by
    cases glued with
    | false => cases token <;> cases minuend <;> rfl
    | true =>
      obtain ⟨piece, hn, rfl⟩ := hl rfl
      cases ht : piece.token with
      | suffix occurrence => exact absurd ht (h occurrence piece hn)
      | _ => cases minuend <;> rfl
  simp only [State.step, hstep]

/-- What continues no item starts the next one. -/
theorem readOn_of_next_item (hr : lexicon.Rests s.rest) (hne : s.rest ≠ [])
    (hm : minuend = none → Lacks s .minus) (hb : Lacks s .bar) (hc : Lacks s .closing)
    (hh : ∀ piece, Next s piece → piece.token.isHead = false) :
    frame.readOn ⟨opened, level, .item minuend operand true⟩ s =
      frame.readOn ⟨opened, level.addItem (endItem minuend operand), .operand none⟩ s := by
  refine readOn_congr hr hne fun piece hn => ?_
  have hm := fun hnone => hm hnone piece hn
  have hb := hb piece hn
  have hc := hc piece hn
  have hh := hh piece hn
  cases ht : piece.token with
  | minus =>
    cases minuend with
    | none => exact absurd ht (hm rfl)
    | some => rfl
  | bar => exact absurd ht hb
  | closing => exact absurd ht hc
  | symbol name head =>
    obtain rfl : head = false := by simpa [ht, Token.isHead] using hh
    cases minuend <;> rfl
  | _ => cases minuend <;> rfl

/-- A rule ends before the next one, before a parenthesis that none opens, and with the text. -/
theorem readOn_of_last {rules : List Rule} {rule : RuleContext} (hr : lexicon.Rests s.rest)
    (h : ∀ piece, Next s piece → piece.token = .closing ∨ piece.token.isHead = true) :
    (ofRule rules rule).readOn ⟨[], level, .item minuend operand true⟩ s =
      State.readOn State.finish
        ⟨⟨rule.name, rule.line, level.close (endItem minuend operand)⟩ :: rules, .between⟩ s := by
  have hstep (piece : Piece Token) (hn : Next s piece) :
      Body.step ⟨[], level, .item minuend operand true⟩ true piece.token =
        .ok (.whole (level.close (endItem minuend operand))) :=
    (Body.Step.last (h piece hn)).step_eq
  refine State.readOn_congr hr (fun he => ?_) (fun piece hn => ?_) fun piece fault hn hf => ?_
  · rw [State.readOn_of_end he, State.readOn_of_end he]
    rfl
  · simp only [State.step, hstep piece hn, ofRule]
  · simp only [State.step, hstep piece hn] at hf
    rw [State.startRule_eq_error hf]
    rfl

end Frame

end GrammarText.W3c
