import GrammarText.Proofs.Iso.Appending
import GrammarText.Proofs.Iso.Erasure
import GrammarText.Proofs.Iso.Tokenization
import GrammarText.Proofs.Lexis.Stretches
import Mathlib.Data.List.Chain

/-!
# Tokens and stretches

No token holds a comment, and with a blank in the place of each comment a text has the tokens it had.
Only a name can take in the blanks behind it; what comes after those cannot go on with the name,
since no grammar has two names in a row.
-/

namespace GrammarText.Iso

variable {c d : Char} {tail text more next source rest : List Char} {token : Token}

/-! ## Tokens are made of stretches -/

theorem isInert_of_class {p : Char → Bool} (hopen : p '(' = false) (hsingle : p '\'' = false)
    (hdouble : p '"' = false) (hmark : p '?' = false) (h : p d = true) : isInert d = true := by
  simp [isInert, ne_of_class hopen h, isQuote_of_class hsingle hdouble h, ne_of_class hmark h]

theorem isInert_of_continuesName (h : continuesName d = true) : isInert d = true :=
  isInert_of_class rfl rfl rfl rfl h

theorem isInert_of_isDigit (h : d.isDigit = true) : isInert d = true :=
  isInert_of_class rfl rfl rfl rfl h

theorem isInert_of_isBlank (h : isBlank d = true) : isInert d = true :=
  isInert_of_class rfl rfl rfl rfl h

theorem isInert_of_ofMark (h : Token.ofMark c (tail ++ rest) = ⟨token, c :: tail, rest⟩) :
    ∀ d ∈ tail, isInert d = true := by
  generalize hm : tail ++ rest = more at h
  unfold Token.ofMark at h
  split at h <;> cases h <;> simp [isInert, isQuote]

theorem passage_eq_absent_of_isInert (h : isInert c = true) : passage (c :: text) = .absent := by
  simp only [isInert, Bool.and_eq_true, bne_iff_ne, Bool.not_eq_true'] at h
  exact passage_cons_eq_absent_iff.2 ⟨h.1.2, h.2⟩

/-- A token is a passage, or its characters after the first start no stretch of their own. -/
theorem Token.passage_or_inert (h : Token.read c (tail ++ rest) = ⟨token, c :: tail, rest⟩)
    (hk : token.isKnown = true) :
    (∃ value, passage (c :: (tail ++ rest)) = .found value (c :: tail) rest) ∨
      passage (c :: (tail ++ rest)) = .absent ∧ ∀ d ∈ tail, isInert d = true := by
  cases Token.reads h with
  | name hn =>
    obtain ⟨d, _, hl, ht, -, -, hs, -⟩ := metaName_eq_found_iff.1 hn
    cases hs
    exact .inr ⟨passage_eq_absent_of_isInert (isInert_of_continuesName (by simp [continuesName, hl])),
      fun d hd => isInert_of_continuesName (ht d hd)⟩
  | count hd =>
    obtain ⟨-, -, hd, -⟩ := decimal_eq_found_iff.1 hd
    obtain ⟨hc, ht⟩ := List.forall_mem_cons.1 hd
    exact .inr ⟨passage_eq_absent_of_isInert (isInert_of_isDigit hc),
      fun d hd => isInert_of_isDigit (ht d hd)⟩
  | terminal hq => exact .inl ⟨_, passage_of_quotedText hq⟩
  | special hs => exact .inl ⟨_, passage_of_specialSequence hs⟩
  | unclosed => cases hk
  | mark _ _ hq hs hm => exact .inr ⟨passage_cons_eq_absent_iff.2 ⟨hq, hs⟩, isInert_of_ofMark hm⟩

/-- Stretches end where a token ends, and no stretch of a token is a comment. -/
theorem stretches_of_read (hc : comment (c :: more) = .absent)
    (ht : Token.read c more = ⟨token, source, rest⟩) (hk : token.isKnown = true) :
    ∃ pieces, stretches (c :: more) = pieces ++ stretches rest ∧
      pieces.filterMap Stretch.body? = [] ∧ pieces.flatMap Stretch.blanked = source := by
  obtain ⟨tail, rfl, rfl⟩ := Token.source_eq ht
  rcases Token.passage_or_inert ht hk with ⟨value, hp⟩ | ⟨hp, hi⟩
  · refine ⟨[.passage (c :: tail)], stretches_passage hc hp, rfl, ?_⟩
    simp [Stretch.blanked, Stretch.source]
  · refine ⟨(c :: tail).map .char, ?_, filterMap_body?_map_char _, flatMap_blanked_map_char _⟩
    rw [stretches_char hc hp, stretches_append_of_inert hi, List.map_cons, List.cons_append]

/-! ## Tokens before another text -/

theorem mayFollow_of_startsAlike (h : StartsAlike next rest) (source : List Char) :
    MayFollow source rest next := by
  rcases h with h | ⟨blank, more, rfl, hblank⟩
  · exact .inl h
  · exact .inr (apart_of_isBlank hblank)

theorem Token.ne_unclosed_of_isKnown (h : token.isKnown = true) : token ≠ .unclosed := by
  rintro rfl
  cases h

/-! ## What comes after a name -/

def Token.endsName : Token → Bool
  | .defining => true
  | token => token.endsTerm

theorem Token.endsName_of_endsTerm (h : token.endsTerm = true) : token.endsName = true := by
  cases token with
  | defining => rfl
  | _ => exact h

/-- After every name comes a token that ends it. -/
def NamesEnd (tokens : List Token) : Prop :=
  tokens.IsChain fun token next => token.isName = true → next.endsName = true

/-- A name has been read last. -/
def State.AfterName (state : State) : Prop :=
  match state.place with
  | .named _ => True
  | .within _ _ ⟨_, _, .term _⟩ => True
  | _ => False

theorem Body.Step.afterName {body : Body} {comments left : List String} {progress : Progress}
    (h : Body.Step body comments token left progress) (hn : token.isName = true) :
    ∃ opened level term, progress = .partly ⟨opened, level, .term term⟩ := by
  induction h with
  | leaf => exact ⟨_, _, _, rfl⟩
  | @empty _ _ token _ _ h =>
    have ht := h.endsTerm
    cases token with
    | name => cases ht
    | _ => cases hn
  | _ => cases hn

theorem State.Step.afterName {state last : State}
    (h : State.Step state (.token token) last) (hn : token.isName = true) : last.AfterName := by
  cases h with
  | name => trivial
  | defining => cases hn
  | within hb =>
    obtain ⟨opened, level, term, hp⟩ := hb.afterName hn
    cases hp
    trivial
  | rule hb =>
    obtain ⟨opened, level, term, hp⟩ := hb.afterName hn
    cases hp

theorem State.Step.endsName {state last : State}
    (h : State.Step state (.token token) last) (hs : state.AfterName) : token.endsName = true := by
  cases h with
  | name => cases hs
  | defining => rfl
  | @within _ _ _ _ _ body _ _ hb =>
    obtain ⟨opened, level, _ | _ | _ | term⟩ := body <;> try cases hs
    exact Token.endsName_of_endsTerm hb.endsTerm
  | @rule _ _ _ _ _ body _ _ hb =>
    obtain ⟨opened, level, _ | _ | _ | term⟩ := body <;> try cases hs
    exact Token.endsName_of_endsTerm hb.endsTerm

theorem State.namesEnd_of_foldlM {state last : State} {tokens : List Token}
    (h : (tokens.map .token).foldlM feed state = .ok last) :
    NamesEnd tokens ∧ (state.AfterName → ∀ token ∈ tokens.head?, token.endsName = true) := by
  induction tokens generalizing state with
  | nil => simp [NamesEnd]
  | cons token tokens ih =>
    obtain ⟨next, hn, hl⟩ := foldlM_cons_eq_ok_iff.1 h
    have hs := feed_eq_ok_iff.1 hn
    obtain ⟨hc, hh⟩ := ih hl
    refine ⟨List.isChain_cons.2 ⟨fun t ht hname => hh (hs.afterName hname) t ht, hc⟩, ?_⟩
    intro ha t ht
    cases ht
    exact hs.endsName ha

/-! ## Blanks in the place of comments -/

theorem not_continuesName_of_endsName (h : Token.read c more = ⟨token, source, rest⟩)
    (ht : token.endsName = true) (hb : isBlank c = false) : continuesName c = false := by
  cases Token.reads h with
  | mark _ _ _ _ hm =>
    unfold Token.ofMark at hm
    split at hm <;> cases hm <;> first | rfl | cases ht
  | _ => cases ht

/-- What comes after a name and blanks does not go on with the name. -/
theorem not_continuesName_of_spells {tokens : List Token} (h : Spells text (tokens.map .token))
    (ht : ∀ token ∈ tokens.head?, token.endsName = true) :
    ∀ d ∈ (text.dropWhile isBlank).head?, continuesName d = false := by
  intro d hd
  obtain ⟨more, hm⟩ := List.head?_eq_some_iff.1 hd
  have hs := Lexicon.spells_dropWhile_iff.1 h
  have hb := Lexicon.isBlank_eq_false_of_dropWhile hm
  rw [hm] at hs
  generalize he : tokens.map Entry.token = entries at hs
  cases hs with
  | blank hb' => simp [hb] at hb'
  | comment => cases tokens <;> cases he
  | token _ _ hr =>
    cases tokens with
    | nil => cases he
    | cons token tokens =>
      cases he
      exact not_continuesName_of_endsName hr (ht _ rfl) hb

/-- The comments that a text spells are those that a scan finds. -/
theorem commentBodies_of_spells {glued : Bool} {entries : List (Entry Token)}
    (h : lexicon.Spells (fun _ token => token) glued text entries)
    (hk : ∀ token ∈ entries.filterMap Entry.token?, token.isKnown = true) :
    commentBodies text = entries.filterMap Entry.comment? := by
  unfold commentBodies
  induction h with
  | nil => simp [stretches]
  | blank hc _ ih =>
    rw [stretches_inert (isInert_of_isBlank hc), List.filterMap_cons_none rfl, ih hk]
  | comment _ hr _ ih =>
    simp [stretches_comment hr, Stretch.body?, Entry.comment?, ih hk]
  | token _ hr ht _ ih =>
    obtain ⟨hkt, hk⟩ := List.forall_mem_cons.1 hk
    obtain ⟨pieces, hp, hb, -⟩ := stretches_of_read hr ht hkt
    rw [hp, List.filterMap_append, hb, ih hk, filterMap_comment?_token, List.nil_append]

theorem spells_blankComments {glued : Bool} {entries : List (Entry Token)}
    (h : lexicon.Spells (fun _ token => token) glued text entries)
    (hk : ∀ token ∈ entries.filterMap Entry.token?, token.isKnown = true)
    (hn : NamesEnd (entries.filterMap Entry.token?)) :
    Spells (blankComments text) ((entries.filterMap Entry.token?).map .token) := by
  induction h with
  | nil => simpa [blankComments, stretches] using Spells.nil
  | blank hc _ ih =>
    rw [blankComments, stretches_inert (isInert_of_isBlank hc)]
    exact .blank hc (ih hk hn)
  | comment _ hr _ ih =>
    rw [blankComments, stretches_comment hr]
    exact spells_blank (ih hk hn)
  | @token _ c more source rest token entries hc hr ht _ ih =>
    obtain ⟨hkt, hk⟩ := List.forall_mem_cons.1 hk
    obtain ⟨hnext, hn⟩ := List.isChain_cons.1 hn
    have hrest := ih hk hn
    obtain ⟨pieces, hp, -, hb⟩ := stretches_of_read hr ht hkt
    rw [blankComments, hp, List.flatMap_append, hb]
    obtain ⟨tail, rfl, rfl⟩ := Token.source_eq ht
    have hnext := mayFollow_of_startsAlike (startsAlike_blankComments rest) (c :: tail)
    cases hname : token.isName with
    | false =>
      have hread := Token.read_again ht (Token.ne_unclosed_of_isKnown hkt) hname hnext
      exact .token hc (comment_absent_again hr hnext) hread hrest
    | true =>
      cases token with
      | name name =>
        have hm := Token.metaName_of_read ht
        obtain ⟨d, _, hl, htail, -, rfl, hs, -⟩ := metaName_eq_found_iff.1 hm
        cases hs
        exact spells_name_append hl htail
          (not_continuesName_of_spells hrest fun t ht => hnext t ht rfl) hrest
      | _ => cases hname

end GrammarText.Iso
