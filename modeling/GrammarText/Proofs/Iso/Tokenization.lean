import GrammarText.Proofs.Iso.Account
import GrammarText.Proofs.Iso.WellFormed

/-!
# Tokens are neither lost nor made up

The tokens of a text that is read are those of its printed grammar. Spellings apart, the grammar
accounts for all that stands outside comments. `tokens?` finds the tokens from a table of spellings
and knows nothing of how a grammar is read; `nextToken?_eq` says that the two agree.
-/

namespace GrammarText.Iso

/-! ## The next token -/

/-- Neither an unclosed construct nor a character that starts no token. -/
def Token.isKnown : Token → Bool
  | .unclosed | .other _ => false
  | _ => true

/-- The spellings of the marks, the longer ones first. -/
def spellings : List (List Char × Token) :=
  [(['(', '/'], .opening .optional), (['/', ')'], .closing .optional),
   (['(', ':'], .opening .repeated), ([':', ')'], .closing .repeated),
   (['['], .opening .optional), ([']'], .closing .optional),
   (['\x7b'], .opening .repeated), (['\x7d'], .closing .repeated),
   (['('], .opening .grouped), ([')'], .closing .grouped), (['='], .defining),
   (['|'], .separator), (['!'], .separator), (['/'], .separator), ([','], .comma), (['-'], .minus),
   (['*'], .star), ([';'], .terminator), (['.'], .terminator)]

/-- The longest mark that a text starts with, and what follows it. -/
def mark? (text : List Char) : Option (Token × List Char) :=
  spellings.findSome? fun (spelling, token) => (afterMark? spelling text).map (token, ·)

/-- The token that a text starts with, and what follows it. -/
def nextToken? (c : Char) (more : List Char) : Option (Token × List Char) :=
  if isLetter c then
    let source := c :: more.takeWhile continuesName
    some (.name (String.ofList (source.filter fun d => !isBlank d)), more.dropWhile continuesName)
  else if c.isDigit then
    let digits := c :: more.takeWhile Char.isDigit
    some (.count (Nat.ofDigitChars 10 digits 0), more.dropWhile Char.isDigit)
  else if isQuote c then
    (splitAround? [c] more).map fun (body, rest) => (.terminal (String.ofList body), rest)
  else if c = '?' then
    (splitAround? ['?'] more).map fun (body, rest) => (.special (String.ofList (trim body)), rest)
  else mark? (c :: more)

theorem afterMark?_singleton_eq_none {c : Char} {text : List Char}
    (h : ∀ more, text = c :: more → False) : afterMark? [c] text = none :=
  Option.eq_none_iff_forall_not_mem.2 fun more hm => h more (eq_append_of_afterMark? hm)

section Tokens

variable {c : Char} {more source rest : List Char} {token : Token}

theorem mark?_eq (h : Token.ofMark c more = ⟨token, source, rest⟩) :
    mark? (c :: more) = if token.isKnown then some (token, rest) else none := by
  unfold Token.ofMark at h
  split at h <;> cases h <;> try rfl
  -- What follows a bracket, a slash or a colon tells which mark it is.
  · next hslash hcolon =>
    simp [mark?, spellings, afterMark?, Token.isKnown, afterMark?_singleton_eq_none hslash,
      afterMark?_singleton_eq_none hcolon]
  · next hclosing =>
    simp [mark?, spellings, afterMark?, Token.isKnown, afterMark?_singleton_eq_none hclosing]
  · next hclosing =>
    have hcolon (hc : c = ':') : afterMark? [')'] more = none :=
      afterMark?_singleton_eq_none (hclosing · hc)
    simp_all [mark?, spellings, afterMark?, Token.isKnown, @eq_comm Char _ c]

theorem Token.read_quote (hl : isLetter c = false) (hd : c.isDigit = false)
    (hq : isQuote c = true) (more : List Char) : read c more =
      match splitAround? [c] more with
      | some (body, rest) => ⟨.terminal (String.ofList body), c :: body ++ [c], rest⟩
      | none => ⟨.unclosed, c :: more, []⟩ := by
  rw [read, metaName_cons_eq_absent hl, decimal_cons_eq_absent hd, quotedText_cons hq]
  cases splitAround? [c] more <;> rfl

theorem Token.read_question (more : List Char) : read '?' more =
    match splitAround? ['?'] more with
    | some (body, rest) => ⟨.special (String.ofList (trim body)), '?' :: body ++ ['?'], rest⟩
    | none => ⟨.unclosed, '?' :: more, []⟩ := by
  rw [read, metaName_cons_eq_absent rfl, decimal_cons_eq_absent rfl,
    quotedText_cons_eq_absent_iff.2 rfl, specialSequence_cons]
  cases splitAround? ['?'] more with
  | some => rfl
  | none => simp [Recognition.toPiece?]

/-- The token that is read is the longest one. -/
theorem nextToken?_eq (h : Token.read c more = ⟨token, source, rest⟩) :
    nextToken? c more = if token.isKnown then some (token, rest) else none := by
  by_cases hl : isLetter c = true
  · rw [Token.read_of_metaName (if_pos hl)] at h
    cases h
    simp [nextToken?, hl, Token.isKnown]
  rw [Bool.not_eq_true] at hl
  by_cases hd : c.isDigit = true
  · rw [Token.read_of_decimal hl (decimal_cons hd more)] at h
    cases h
    simp [nextToken?, hl, hd, Token.isKnown]
  rw [Bool.not_eq_true] at hd
  by_cases hq : isQuote c = true
  · rw [Token.read_quote hl hd hq] at h
    cases hs : splitAround? [c] more <;> rw [hs] at h <;> cases h <;>
      simp [nextToken?, hl, hd, hq, hs, Token.isKnown]
  rw [Bool.not_eq_true] at hq
  by_cases hm : c = '?'
  · subst hm
    rw [Token.read_question] at h
    cases hs : splitAround? ['?'] more <;> rw [hs] at h <;> cases h <;>
      simp [nextToken?, hl, hd, hq, hs, Token.isKnown]
  rw [Token.read_eq_ofMark hl hd hq hm] at h
  simpa [nextToken?, hl, hd, hq, hm] using mark?_eq h

theorem nextToken?_length_le (h : nextToken? c more = some (token, rest)) :
    rest.length ≤ more.length := by
  cases hr : Token.read c more with
  | mk token' source rest' =>
    rw [nextToken?_eq hr, Option.ite_none_right_eq_some] at h
    cases h.2
    have hp := Token.read_isSplitOf c more
    rw [hr] at hp
    have hl : (c :: more).length = (source ++ rest).length := congrArg List.length hp.1
    have hs : 0 < source.length := List.length_pos_iff.2 hp.2
    rw [List.length_append, List.length_cons] at hl
    omega

/-! ## Tokens of a text -/

/-- The tokens of a text by longest match, without blanks and comments. There are none if something
in the text never ends or is unknown. -/
def tokens? (text : List Char) : Option (List Token) :=
  match text with
  | [] => some []
  | c :: more =>
    if isBlank c then tokens? more
    else
      match _h : comment (c :: more) with
      | .found _ _ rest => tokens? rest
      | .unclosed _ _ => none
      | .absent =>
        match _hn : nextToken? c more with
        | some (token, rest) => (tokens? rest).map (token :: ·)
        | none => none
termination_by text.length
decreasing_by
  · simp
  · exact (comment_isSplitOf _).length_lt _h
  · exact Nat.lt_succ_of_le (nextToken?_length_le _hn)

theorem tokens?_cons (c : Char) (more : List Char) : tokens? (c :: more) =
    if isBlank c then tokens? more
    else
      match comment (c :: more) with
      | .found _ _ rest => tokens? rest
      | .unclosed _ _ => none
      | .absent =>
        match nextToken? c more with
        | some (token, rest) => (tokens? rest).map (token :: ·)
        | none => none := by
  rw [tokens?]
  cases comment (c :: more) with
  | absent => cases nextToken? c more <;> rfl
  | _ => rfl

theorem tokens?_blank (hc : isBlank c = true) : tokens? (c :: more) = tokens? more := by
  rw [tokens?_cons, if_pos hc]

theorem tokens?_comment {body : String} (hc : isBlank c = false)
    (hr : comment (c :: more) = .found body source rest) : tokens? (c :: more) = tokens? rest := by
  rw [tokens?_cons, if_neg (by simp [hc]), hr]

theorem tokens?_token (hc : isBlank c = false) (hr : comment (c :: more) = .absent)
    (hn : nextToken? c more = some (token, rest)) :
    tokens? (c :: more) = (tokens? rest).map (token :: ·) := by
  rw [tokens?_cons, if_neg (by simp [hc]), hr, hn]

/-- What a text spells has its tokens, if they are all known. -/
theorem tokens?_of_spells {glued : Bool} {text : List Char} {entries : List (Entry Token)}
    (h : lexicon.Spells (fun _ token => token) glued text entries)
    (hk : ∀ token ∈ entries.filterMap Entry.token?, token.isKnown = true) :
    tokens? text = some (entries.filterMap Entry.token?) := by
  induction h with
  | nil => rw [tokens?]; rfl
  | blank hc _ ih => rw [tokens?_blank hc, ih hk]
  | comment hc hr _ ih => rw [tokens?_comment hc hr, ih hk]; rfl
  | token hc hr ht _ ih =>
    obtain ⟨hk, hm⟩ := List.forall_mem_cons.1 hk
    have hn := nextToken?_eq ht
    rw [if_pos hk] at hn
    rw [tokens?_token hc hr hn, ih hm]
    rfl

end Tokens

/-! ## Tokens that are read -/

theorem Body.Step.isKnown {body : Body} {comments left : List String} {token : Token}
    {progress : Progress} (h : Body.Step body comments token left progress) :
    token.isKnown = true := by
  induction h with
  | @leaf _ _ token _ _ ht =>
    cases token with
    | special | terminal | name => rfl
    | _ => cases ht
  | empty _ ih => exact ih
  | _ => rfl

theorem State.Step.isKnown {state next : State} {entry : Entry Token}
    (h : State.Step state entry next) : ∀ token ∈ entry.token?, token.isKnown = true := by
  cases h with
  | comment => simp [Entry.token?]
  | name => simp [Entry.token?, Token.isKnown]
  | defining => simp [Entry.token?, Token.isKnown]
  | within hb => simpa [Entry.token?] using hb.isKnown
  | rule hb => simpa [Entry.token?] using hb.isKnown

theorem State.isKnown_of_foldlM {state last : State} {entries : List (Entry Token)}
    (h : entries.foldlM feed state = .ok last) :
    ∀ token ∈ entries.filterMap Entry.token?, token.isKnown = true := by
  have hk := forall_mem_of_foldlM h fun _ _ _ hn => (feed_eq_ok_iff.1 hn).isKnown
  intro token hm
  obtain ⟨entry, he, ht⟩ := List.mem_filterMap.1 hm
  exact hk entry he token ht

/-! ## Tokens of print -/

/-- A text that is read and the print of its grammar have the same tokens. -/
theorem Grammar.tokens?_print {text : String} {grammar : Grammar}
    (h : Grammar.parse text = .ok grammar) : ∃ tokens,
      tokens? text.toList = some tokens ∧ tokens? grammar.print.toList = some tokens := by
  obtain ⟨entries, hs, ho, ha⟩ := exists_spells_alike h
  obtain ⟨state, hr, -⟩ := ofEntries_eq_ok_iff.1 ho
  have hk := State.isKnown_of_foldlM hr
  have hprint : Spells grammar.print.toList grammar.entries := by
    rw [print, String.toList_ofList]
    exact Grammar.spells (printable_of_parse h)
  refine ⟨entries.filterMap Entry.token?, tokens?_of_spells hs hk, ?_⟩
  rw [← ha.tokens] at hk ⊢
  exact tokens?_of_spells hprint hk

def respelled : Grammar :=
  ⟨[⟨"ab", 1, [],
    [[⟨.ofPrimary (.sequence .optional [[⟨.ofPrimary (.terminal "x"), none⟩]]), none⟩],
      [⟨⟨["why"], some 7, .special "y"⟩, none⟩]]⟩], []⟩

theorem parse_respelled :
    Grammar.parse "a b = (/ 'x' /) ! 07 (* why *) * ? y ? ." = .ok respelled := by
  with_unfolding_all rfl

theorem tokens?_print_respelled :
    Grammar.parse "a b = (/ 'x' /) ! 07 (* why *) * ? y ? ." = .ok respelled ∧ ∃ tokens,
      tokens? "a b = (/ 'x' /) ! 07 (* why *) * ? y ? .".toList = some tokens ∧
        tokens? respelled.print.toList = some tokens :=
  ⟨parse_respelled, Grammar.tokens?_print parse_respelled⟩

end GrammarText.Iso
