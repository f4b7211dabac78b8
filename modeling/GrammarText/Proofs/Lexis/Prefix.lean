import GrammarText.Proofs.Lexis.Location
import GrammarText.Proofs.Lexis.Outline
import GrammarText.Proofs.Lexis.Written

/-!
# The text before a lexeme

The text up to a lexeme is read as the lexemes before it: whether and where a comment or a token
ends does not depend on what stands behind the next token.
-/

namespace GrammarText

variable {Token : Type}

/-! ## Closing marks -/

section Delimited

variable {text source rest : List Char} {value : String}

theorem getLast?_quotedText (h : quotedText text = .found value source rest) :
    ∃ quote, isQuote quote = true ∧ source.getLast? = some quote := by
  obtain ⟨quote, hq, -, rfl, -⟩ := quotedText_eq_found_iff.1 h
  exact ⟨quote, hq, List.getLast?_concat⟩

theorem getLast?_specialSequence (h : specialSequence text = .found value source rest) :
    source.getLast? = some '?' := by
  obtain ⟨-, -, -, -, -, -, rfl, -⟩ := specialSequence_eq_found h
  exact List.getLast?_concat

theorem isSuffix_of_comment (h : comment text = .found value source rest) :
    ['*', ')'] <:+ source := by
  unfold comment at h
  split at h
  · split at h <;> cases h
    exact List.suffix_append _ _
  · cases h

theorem getLast?_comment (h : comment text = .found value source rest) :
    source.getLast? = some ')' := by
  obtain ⟨init, rfl⟩ := isSuffix_of_comment h
  exact List.getLast?_append_of_ne_nil init (List.cons_ne_nil '*' [')'])

theorem getLast?_blockComment (h : blockComment text = .found value source rest) :
    source.getLast? = some '/' := by
  unfold blockComment at h
  split at h
  · obtain ⟨body, hb, -⟩ := Recognition.map_eq_found h
    unfold between at hb
    split at hb <;> cases hb
    exact List.getLast?_append_of_ne_nil _ (List.cons_ne_nil '*' ['/'])
  · cases h

end Delimited

/-! ## Texts that are cut off -/

/-- What is found in a text is found again if less follows it. -/
structure Lexicon.Stable (L : Lexicon Token) (role : Token → Role) : Prop where
  comment : ∀ {text source rest : List Char} {body : String},
    L.comment text = .found body source rest → ∀ next,
      L.comment (source ++ next) = .found body source next
  absent : ∀ {c : Char} {text next : List Char},
    L.comment (c :: (text ++ next)) = .absent → L.comment (c :: text) = .absent
  token : ∀ {c : Char} {tail before after : List Char} {token : Token}, role token ≠ .unclosed →
    L.token c (tail ++ (before ++ after)) = ⟨token, c :: tail, before ++ after⟩ →
      L.token c (tail ++ before) = ⟨token, c :: tail, before⟩

/-- No name starts right behind a character that could start it: there an earlier name would go
on. -/
structure Lexicon.Separates (L : Lexicon Token) (role : Token → Role) (starts : Char → Bool) :
    Prop where
  blank : ∀ {c : Char}, isBlank c = true → starts c = false
  comment : ∀ {text source rest : List Char} {body : String},
    L.comment text = .found body source rest → ∀ c ∈ source.getLast?, starts c = false
  token : ∀ {c next : Char} {more source rest : List Char} {token : Token},
    role token ≠ .unclosed → L.token c more = ⟨token, source, next :: rest⟩ →
      starts next = true → ∀ d ∈ source.getLast?, starts d = false

namespace Lexicon

variable {L : Lexicon Token} {place : Position} {text source rest : List Char} {body : String}
  {g : Gap}

/-! ## One gap and one lexeme -/

theorem gap_of_found (h : L.comment (text.dropWhile isBlank) = .found body source rest)
    (hg : L.gap rest = some g) :
    L.gap text =
      some ⟨body :: g.comments, text.takeWhile isBlank ++ source ++ g.source, g.rest⟩ := by
  rw [gap]
  split <;> simp_all

theorem gap_of_absent (h : L.comment (text.dropWhile isBlank) = .absent) :
    L.gap text = some ⟨[], text.takeWhile isBlank, text.dropWhile isBlank⟩ := by
  rw [gap]
  split <;> simp_all

theorem readFrom_of_nil (hg : L.gap text = some g) (hr : g.rest = []) :
    L.readFrom place text = ⟨[], some g.comments, place.advance g.source⟩ := by
  rw [readFrom]
  split <;> simp_all
  split <;> simp_all

theorem readFrom_of_cons {c : Char} {more : List Char} {piece : Piece Token}
    (hg : L.gap text = some g) (hr : g.rest = c :: more) (ht : L.token c more = piece) :
    L.readFrom place text =
      let start := place.advance g.source
      let after := L.readFrom (start.advance piece.source) piece.rest
      ⟨⟨g.comments, g.source.isEmpty, start, piece.token⟩ :: after.lexemes, after.trailing,
        after.stop⟩ := by
  rw [readFrom]
  split
  · simp_all
  · next hg' =>
    cases hg.symm.trans hg'
    split
    · next hr' => cases hr.symm.trans hr'
    · next hr' => cases hr.symm.trans hr'; subst ht; rfl

/-! ## Less text -/

variable {role : Token → Role} {starts : Char → Bool}

theorem gap_getLast? (hS : L.Separates role starts) (hg : L.gap text = some g) :
    ∀ c ∈ g.source.getLast?, starts c = false := by
  have hblank (text : List Char) : ∀ c ∈ (text.takeWhile isBlank).getLast?, starts c = false :=
    fun c hc => hS.blank (List.mem_takeWhile_imp (List.mem_of_getLast? hc))
  fun_induction L.gap text generalizing g with
  | case1 text body source rest hr g' hg' ih =>
    cases hg
    intro c hc
    rw [List.getLast?_append, List.getLast?_append] at hc
    rcases Option.or_eq_some_iff.1 hc with hc | ⟨-, hc⟩
    · exact ih hg' c hc
    · rcases Option.or_eq_some_iff.1 hc with hc | ⟨-, hc⟩
      · exact hS.comment hr c hc
      · exact hblank text c hc
  | case2 => cases hg
  | case3 text => cases hg; exact hblank text
  | case4 => cases hg

theorem comment_nil (L : Lexicon Token) : L.comment [] = .absent := by
  by_contra h
  obtain ⟨c, more, hn⟩ := eq_cons_of_comment rfl h
  cases hn

/-- A gap is read again if nothing comes behind it, or something that ends it. -/
theorem gap_again (hL : L.Stable role) (hg : L.gap text = some g) (next : List Char)
    (hb : ∀ c ∈ next.head?, isBlank c = false) (hc : L.comment next = .absent) :
    L.gap (g.source ++ next) = some ⟨g.comments, g.source, next⟩ := by
  fun_induction L.gap text generalizing g with
  | case1 text body source rest hr g' hg' ih =>
    cases hg
    obtain ⟨c, more, hd⟩ := eq_cons_of_comment hr (by simp)
    obtain ⟨hs, hne⟩ := (L.comment_isSplitOf _).of_found hr
    obtain ⟨d, tail, rfl⟩ := List.exists_cons_of_ne_nil hne
    obtain rfl : c = d := by rw [hd] at hs; cases hs; rfl
    have hblank : ∀ c ∈ text.takeWhile isBlank, isBlank c = true := fun _ => List.mem_takeWhile_imp
    have hstop : ∀ d ∈ (c :: tail ++ (g'.source ++ next)).head?, isBlank d = false := by
      rintro _ ⟨⟩
      exact isBlank_eq_false_of_dropWhile hd
    have hcut : text.takeWhile isBlank ++ c :: tail ++ g'.source ++ next =
        text.takeWhile isBlank ++ (c :: tail ++ (g'.source ++ next)) := by
      simp only [List.append_assoc]
    have hcomment := hL.comment hr (g'.source ++ next)
    rw [← dropWhile_append_of_head? hblank hstop] at hcomment
    simp only [hcut]
    rw [gap_of_found hcomment (ih hg'), takeWhile_append_of_head? hblank hstop]
  | case2 => cases hg
  | case3 text hr =>
    cases hg
    have hblank : ∀ c ∈ text.takeWhile isBlank, isBlank c = true := fun _ => List.mem_takeWhile_imp
    have hd : (text.takeWhile isBlank ++ next).dropWhile isBlank = next :=
      dropWhile_append_of_head? hblank hb
    rw [gap_of_absent (by rw [hd, hc]), hd, takeWhile_append_of_head? hblank hb]
  | case4 => cases hg

/-- The first lexeme is read again if the text ends somewhere behind it. -/
theorem readFrom_again (hL : L.Stable role) {c : Char} {tail shorter after : List Char}
    {token : Token} (hg : L.gap text = some g) (hr : g.rest = c :: tail ++ (shorter ++ after))
    (ht : L.token c (tail ++ (shorter ++ after)) = ⟨token, c :: tail, shorter ++ after⟩)
    (hu : role token ≠ .unclosed) :
    L.readFrom place (g.source ++ (c :: tail ++ shorter)) =
      let start := place.advance g.source
      let rest := L.readFrom (start.advance (c :: tail)) shorter
      ⟨⟨g.comments, g.source.isEmpty, start, token⟩ :: rest.lexemes, rest.trailing, rest.stop⟩ := by
  rw [List.cons_append] at hr
  obtain ⟨hb, hc⟩ := gap_stops hg hr
  rw [← List.append_assoc] at hc
  have hgap : L.gap (g.source ++ (c :: tail ++ shorter)) =
      some ⟨g.comments, g.source, c :: tail ++ shorter⟩ :=
    gap_again hL hg _ (by simpa using hb) (hL.absent hc)
  exact readFrom_of_cons hgap rfl (hL.token hu ht)

/-- What has been read before a lexeme is what is read of the text before it. -/
theorem readFrom_prefix (hL : L.Stable role) (hS : L.Separates role starts)
    {before after : List (Lexeme Token)} {lexeme : Lexeme Token}
    (h : (L.readFrom place text).lexemes = before ++ lexeme :: after)
    (hu : ∀ first ∈ before, role first.token ≠ .unclosed) :
    ∃ shorter c more, text = shorter ++ c :: more ∧ lexeme.token = (L.token c more).token ∧
      lexeme.start = place.advance shorter ∧
      (starts c = true → ∀ d ∈ shorter.getLast?, starts d = false) ∧
        L.readFrom place shorter = ⟨before, some lexeme.comments, place.advance shorter⟩ := by
  fun_induction L.readFrom place text generalizing before with
  | case1 => simp at h
  | case2 => simp at h
  | case3 place text g hg c more hr start piece rest first =>
    rename_i ih
    have ht : text = g.source ++ c :: more := by rw [← hr, ← L.gap_split hg]
    cases before with
    | nil =>
      obtain ⟨hl, -⟩ := List.cons_eq_cons.1 h
      have hgap := gap_again hL hg [] (by simp) L.comment_nil
      rw [List.append_nil] at hgap
      rw [← hl]
      exact ⟨g.source, c, more, ht, rfl, rfl, fun _ => gap_getLast? hS hg,
        readFrom_of_nil (g := ⟨g.comments, g.source, []⟩) hgap rfl⟩
    | cons _ before =>
      obtain ⟨hfirst, hmore⟩ := List.forall_mem_cons.1 hu
      rw [List.cons_append] at h
      obtain ⟨rfl, hafter⟩ := List.cons_eq_cons.1 h
      obtain ⟨shorter, d, behind, hrest, htoken, hstart, hlast, hread⟩ := ih hafter hmore
      obtain ⟨hpiece, hne⟩ : c :: more = piece.source ++ piece.rest ∧ piece.source ≠ [] :=
        L.token_isSplitOf c more
      have hp : L.token c more = ⟨piece.token, piece.source, piece.rest⟩ := rfl
      obtain ⟨e, tail, hsource⟩ := List.exists_cons_of_ne_nil hne
      rw [hrest, hsource, List.cons_append] at hpiece
      rw [hsource, hrest] at hp
      rw [hsource] at hstart hread
      obtain ⟨rfl, rfl⟩ := List.cons_eq_cons.1 hpiece
      refine ⟨g.source ++ (c :: tail ++ shorter), d, behind, ?_, htoken, ?_, ?_, ?_⟩
      · simp [ht]
      · rw [hstart, Position.advance_append, Position.advance_append]
      · intro hs e he
        rw [← List.append_assoc, List.getLast?_append] at he
        rcases Option.or_eq_some_iff.1 he with he | ⟨hn, he⟩
        · exact hlast hs e he
        · -- Nothing is between this token and the next.
          obtain rfl := List.getLast?_eq_none_iff.1 hn
          rw [List.getLast?_append_of_ne_nil _ (List.cons_ne_nil c tail)] at he
          exact hS.token hfirst hp hs e he
      · rw [readFrom_again hL hg hr hp hfirst, Position.advance_append, Position.advance_append]
        simp only [start] at hread
        simp only [hread, first, start]

theorem isGap_of_readFrom {comments : List String} {stop : Position}
    (h : L.readFrom place text = ⟨[], some comments, stop⟩) : L.IsGap text := by
  have hc : (L.transcript (fun _ _ token => token) true place text).closed = true := by
    rw [closed_transcript, h]
    rfl
  have ht : (L.transcript (fun _ _ token => token) true place text).tokens = [] := by
    rw [tokens_transcript, h]
    rfl
  exact isGap_of_transcript hc ht

end Lexicon

end GrammarText
