import GrammarText.Proofs.Lexis.Written
import GrammarText.Proofs.W3c.Mentions

/-!
# What a W3C text mentions

A scan from left to right finds the words and literals outside comments. They are those that the
grammar of the text mentions.
-/

namespace GrammarText.W3c

/-- Whether, after blanks and comments, the defining mark comes next. -/
def definingNext (text : List Char) : Bool :=
  match text with
  | [] => false
  | c :: more =>
    if isBlank c then definingNext more
    else
      match _h : blockComment (c :: more) with
      | .found _ _ rest => definingNext rest
      | _ => (afterMark? [':', ':', '='] (c :: more)).isSome
termination_by text.length
decreasing_by
  · simp
  · exact (blockComment_isSplitOf _).length_lt _h

/-- The words and literals outside comments, from left to right. -/
def mentionsIn (text : List Char) : List Mention :=
  match text with
  | [] => []
  | c :: more =>
    match _hb : blockComment (c :: more) with
    | .found _ _ rest => mentionsIn rest
    | .unclosed _ _ => []
    | .absent =>
      match _hq : quotedText (c :: more) with
      | .found body _ rest => .literal body :: mentionsIn rest
      | .unclosed _ _ => []
      | .absent =>
        if c.isAlpha then
          let name := String.ofList (c :: more.takeWhile Char.isAlpha)
          let rest := more.dropWhile Char.isAlpha
          (if definingNext rest then .head name else .symbol name) :: mentionsIn rest
        else mentionsIn more
termination_by text.length
decreasing_by
  · exact (blockComment_isSplitOf _).length_lt _hb
  · exact (quotedText_isSplitOf _).length_lt _hq
  · exact Nat.lt_succ_of_le (List.dropWhile_sublist _).length_le
  · simp

variable {c : Char} {text more source rest : List Char} {token : Token}

/-! ## One construct -/

theorem mentionsIn_cons (c : Char) (more : List Char) : mentionsIn (c :: more) =
    match blockComment (c :: more) with
    | .found _ _ rest => mentionsIn rest
    | .unclosed _ _ => []
    | .absent =>
      match quotedText (c :: more) with
      | .found body _ rest => .literal body :: mentionsIn rest
      | .unclosed _ _ => []
      | .absent =>
        if c.isAlpha then
          let name := String.ofList (c :: more.takeWhile Char.isAlpha)
          let rest := more.dropWhile Char.isAlpha
          (if definingNext rest then .head name else .symbol name) :: mentionsIn rest
        else mentionsIn more := by
  rw [mentionsIn]
  cases blockComment (c :: more) with
  | absent => cases quotedText (c :: more) <;> rfl
  | _ => rfl

theorem mentionsIn_comment {body : String}
    (h : blockComment (c :: more) = .found body source rest) :
    mentionsIn (c :: more) = mentionsIn rest := by
  rw [mentionsIn_cons, h]

theorem mentionsIn_literal {body : String} (hb : blockComment (c :: more) = .absent)
    (h : quotedText (c :: more) = .found body source rest) :
    mentionsIn (c :: more) = .literal body :: mentionsIn rest := by
  rw [mentionsIn_cons, hb, h]

theorem mentionsIn_word {name : String} (hb : blockComment (c :: more) = .absent)
    (h : word (c :: more) = .found name source rest) : mentionsIn (c :: more) =
      (if definingNext rest then .head name else .symbol name) :: mentionsIn rest := by
  have ha := isAlpha_of_word h
  rw [word_cons ha] at h
  cases h
  rw [mentionsIn_cons, hb, quotedText_cons_eq_absent_iff.2 (isQuote_of_class rfl rfl ha)]
  exact if_pos ha

theorem mentionsIn_skip (hb : blockComment (c :: more) = .absent) (hq : isQuote c = false)
    (ha : c.isAlpha = false) : mentionsIn (c :: more) = mentionsIn more := by
  rw [mentionsIn_cons, hb, quotedText_cons_eq_absent_iff.2 hq]
  exact if_neg (by simp [ha])

/-! ## The defining mark -/

theorem Token.mention_seen (glued : Bool) (token : Token) :
    (token.seen glued).mention = token.mention := by
  cases glued <;> cases token <;> rfl

theorem Token.read_eq_defining_iff :
    (read c more).token = .defining ↔ (afterMark? [':', ':', '='] (c :: more)).isSome = true := by
  constructor
  · intro h
    generalize hp : read c more = piece at h
    cases reads hp with
    | mark _ _ hm =>
      subst hm
      unfold ofMark at h
      split at h <;> cases h
      rfl
    | _ => cases h
  · intro h
    obtain ⟨after, ha⟩ := Option.isSome_iff_exists.1 h
    cases eq_append_of_afterMark? ha
    rfl

theorem definingNext_cons (c : Char) (more : List Char) : definingNext (c :: more) =
    if isBlank c then definingNext more
    else
      match blockComment (c :: more) with
      | .found _ _ rest => definingNext rest
      | _ => (afterMark? [':', ':', '='] (c :: more)).isSome := by
  rw [definingNext]
  cases blockComment (c :: more) <;> rfl

/-- The defining mark comes next exactly if it is the next token. -/
theorem definingNext_eq {glued : Bool} {entries : List (Entry Token)}
    (h : SpellsEntries glued text entries) :
    definingNext text = ((entries.filterMap Entry.token?).head? == some .defining) := by
  induction h with
  | nil => simp [definingNext]
  | blank hc _ ih => rw [definingNext_cons, if_pos hc, ih]
  | comment hc hr _ ih =>
    rw [definingNext_cons, if_neg (by simp [hc]), show blockComment _ = _ from hr]
    exact ih
  | @token glued c more source rest token entries hc hr ht =>
    rw [definingNext_cons, if_neg (by simp [hc]), show blockComment _ = _ from hr,
      filterMap_token?_token]
    change _ = (token.seen glued == .defining)
    rw [Token.seen_beq_defining, Bool.eq_iff_iff, beq_iff_eq, ← Token.read_eq_defining_iff,
      show Token.read c more = _ from ht]

/-! ## From text to tokens -/

theorem mentionsIn_mark (hb : blockComment (c :: more) = .absent) (hq : isQuote c = false)
    (ha : c.isAlpha = false) (h : Token.ofMark c more = ⟨token, source, rest⟩) :
    mentionsIn (c :: more) = mentionsIn rest := by
  rw [mentionsIn_skip hb hq ha]
  unfold Token.ofMark at h
  split at h <;> cases h <;> try rfl
  rw [mentionsIn_skip (blockComment_cons_eq_absent (by decide)) rfl rfl,
    mentionsIn_skip (blockComment_cons_eq_absent (by decide)) rfl rfl]

theorem mention_of_ofMark (h : Token.ofMark c more = ⟨token, source, rest⟩) :
    token.mention = [] ∧ ∀ name head, token ≠ .symbol name head := by
  unfold Token.ofMark at h
  split at h <;> cases h <;> simp [Token.mention]

theorem flatMap_mention_headed_cons {glued : Bool} {tokens : List Token}
    (ht : ∀ name head, token ≠ .symbol name head) :
    (headed (token.seen glued :: tokens)).flatMap Token.mention =
      token.mention ++ (headed tokens).flatMap Token.mention := by
  have hs : ∀ name head, token.seen glued ≠ .symbol name head :=
    fun name head h => ht name head (Token.seen_eq_symbol_iff.1 h)
  rw [headed_cons hs, List.flatMap_cons, Token.mention_seen]

theorem mentionsIn_of_spells {glued : Bool} {entries : List (Entry Token)}
    (h : SpellsEntries glued text entries) (hu : .unclosed ∉ entries.filterMap Entry.token?) :
    mentionsIn text = (headed (entries.filterMap Entry.token?)).flatMap Token.mention := by
  induction h with
  | nil => simp [mentionsIn, headed]
  | blank hc _ ih =>
    rw [mentionsIn_skip (blockComment_cons_eq_absent (ne_of_class rfl hc))
      (isQuote_of_class rfl rfl hc) (isAlpha_of_isBlank hc), ih hu]
  | comment _ hr _ ih => rw [mentionsIn_comment hr, ih hu]; rfl
  | @token glued c more source rest token entries _ hr ht hs ih =>
    rw [filterMap_token?_token] at hu ⊢
    have ih := ih fun hm => hu (List.mem_cons_of_mem _ hm)
    cases Token.reads ht with
    | symbol hw =>
      rw [mentionsIn_word hr hw, definingNext_eq hs, Token.seen_symbol, headed_symbol,
        List.flatMap_cons, ih]
      cases (entries.filterMap Entry.token?).head? == some .defining <;> rfl
    | literal hq =>
      rw [mentionsIn_literal hr hq, flatMap_mention_headed_cons (by simp), ih]
      rfl
    | unclosed => exact absurd (by cases glued <;> simp [Token.seen]) hu
    | mark ha hq ht =>
      obtain ⟨hm, hn⟩ := mention_of_ofMark ht
      rw [mentionsIn_mark hr hq ha ht, flatMap_mention_headed_cons hn, hm, List.nil_append, ih]

/-! ## A whole text -/

/-- What is read of a text mentions the words and literals of the text, once each and in order. -/
theorem Grammar.mentions_of_parse {text : String} {grammar : Grammar}
    (h : Grammar.parse text = .ok grammar) : grammar.mentions = mentionsIn text.toList := by
  obtain ⟨_, ⟨entries, hs, rfl⟩, ho⟩ := exists_spells_of_parse h
  obtain ⟨state, hr, hf⟩ := ofTokens_eq_ok_iff.1 ho
  have hl := State.mentions_of_foldlM hs.not_mem_head hr hf
  have hu := State.not_mem_unclosed_of_foldlM hr
  rw [mem_headed_iff (by simp)] at hu
  rw [mentions_onLineOne] at hl
  rw [hl, mentionsIn_of_spells hs hu]
  rfl

def excepted : Grammar :=
  ⟨[⟨"sum", 1, .ofContent (.list
      [.ofContent (.symbol "x"),
        ⟨.alternate [.ofContent (.literal "+"), .ofContent (.symbol "y")], .zeroOrMore, true⟩])⟩,
    ⟨"y", 1, .ofContent (.exception (.ofContent (.literal "a::=")) (.ofContent (.symbol "sum")))⟩]⟩

theorem parse_excepted :
    Grammar.parse "sum::=x('+'|y)* y /* y::= */ ::= \"a::=\" - sum" = .ok excepted := by
  with_unfolding_all rfl

theorem mentions_of_parse_excepted :
    Grammar.parse "sum::=x('+'|y)* y /* y::= */ ::= \"a::=\" - sum" = .ok excepted ∧
      excepted.mentions = mentionsIn "sum::=x('+'|y)* y /* y::= */ ::= \"a::=\" - sum".toList :=
  ⟨parse_excepted, Grammar.mentions_of_parse parse_excepted⟩

end GrammarText.W3c
