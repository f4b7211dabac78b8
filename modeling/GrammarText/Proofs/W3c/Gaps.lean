import GrammarText.Proofs.W3c.Appending
import GrammarText.Proofs.W3c.Outline

/-!
# Gaps in W3C texts

Between two tokens it shows that there is a gap, but not which blanks and comments it is made of.
-/

namespace GrammarText.W3c

/-! ## Tokens without places -/

/-- The tokens of a text as they are read, and whether all its comments end. `glued` says that no
gap comes before the text. -/
def contents (glued : Bool) (text : List Char) : List Token × Bool :=
  let t := lexicon.transcript (fun glued _ token => token.seen glued) glued .start text
  (t.tokens, t.closed)

variable {glued : Bool} {c d : Char} {body : String} {text more source rest gap next : List Char}
  {token : Token}

theorem contents_eq (glued : Bool) (place : Position) (text : List Char) :
    let t := lexicon.transcript (fun glued _ token => token.seen glued) glued place text
    (t.tokens, t.closed) = contents glued text := by
  rw [Lexicon.transcript_congr_place (fun _ _ _ _ => rfl) .start]
  rfl

theorem contents_blank (hc : isBlank c = true) :
    contents glued (c :: more) = contents false more := by
  rw [contents, Lexicon.transcript_blank hc, contents_eq]

theorem eq_slash_of_blockComment (hr : blockComment (c :: more) = .found body source rest) :
    c = '/' := by
  by_contra hc
  rw [blockComment_cons_eq_absent hc] at hr
  cases hr

theorem contents_comment (hr : blockComment text = .found body source rest) :
    contents glued text = contents false rest := by
  obtain ⟨c, more, rfl⟩ := Lexicon.eq_cons_of_comment (L := lexicon) hr (by simp)
  obtain rfl := eq_slash_of_blockComment hr
  rw [contents, Lexicon.transcript_comment rfl hr, ← contents_eq]
  rfl

theorem contents_token (hc : isBlank c = false) (hr : blockComment (c :: more) = .absent)
    (ht : Token.read c more = ⟨token, source, rest⟩) : contents glued (c :: more) =
      (token.seen glued :: (contents true rest).1, (contents true rest).2) := by
  rw [contents, Lexicon.transcript_token hc hr ht, ← contents_eq]
  rfl

/-! ## Gaps -/

theorem contents_gap_append (hg : lexicon.IsGap gap) :
    contents false (gap ++ next) = contents false next := by
  induction hg with
  | nil => rfl
  | blank hc _ ih => rw [List.cons_append, contents_blank hc, ih]
  | comment hr _ ih => rw [contents_comment (blockComment_append next hr), ih]

/-- A gap shows before what follows it, and that is all that shows of it. -/
theorem contents_gap_append_of_ne_nil (hg : lexicon.IsGap gap) (hne : gap ≠ []) :
    contents glued (gap ++ next) = contents false next := by
  cases hg with
  | nil => exact absurd rfl hne
  | blank hc h => rw [List.cons_append, contents_blank hc, contents_gap_append h]
  | comment hr h => rw [contents_comment (blockComment_append next hr), contents_gap_append h]

theorem isBoundary_of_isBlank (hd : isBlank d = true) : isBoundary d = true := by
  have hstar : d ≠ '*' := ne_of_class rfl hd
  have hcolon : d ≠ ':' := ne_of_class rfl hd
  have hequals : d ≠ '=' := ne_of_class rfl hd
  simp [isBoundary, isAlpha_of_isBlank hd, hstar, hcolon, hequals]

theorem isBoundary_of_isGap (hg : lexicon.IsGap (d :: more)) : isBoundary d = true := by
  generalize ht : d :: more = text at hg
  cases hg with
  | nil => cases ht
  | blank hc => cases ht; exact isBoundary_of_isBlank hc
  | comment hr =>
    subst ht
    obtain rfl := eq_slash_of_blockComment hr
    rfl

theorem contents_token_append (hc : isBlank c = false) (hr : blockComment (c :: more) = .absent)
    (ht : Token.read c more = ⟨token, source, rest⟩) (hu : token ≠ .unclosed)
    (hg : lexicon.IsGap gap) (hne : gap ≠ []) : contents glued (c :: more ++ (gap ++ next)) =
      (token.seen glued :: (contents true (rest ++ (gap ++ next))).1,
        (contents true (rest ++ (gap ++ next))).2) := by
  obtain ⟨d, gap, rfl⟩ := List.exists_cons_of_ne_nil hne
  have hd := isBoundary_of_isGap hg
  exact contents_token hc (blockComment_append_of_absent _ hd hr) (Token.read_append _ hd ht hu)

/-- The gap after a text that ends outside literals and comments can be changed. -/
theorem contents_append_gap {entries : List (Entry Token)} {g : Bool} {gap gap' : List Char}
    (h : lexicon.Spells (fun _ token => token) g text entries)
    (hu : ∀ token ∈ entries.filterMap Entry.token?, token.role ≠ .unclosed)
    (hg : lexicon.IsGap gap) (hne : gap ≠ []) (hg' : lexicon.IsGap gap') (hne' : gap' ≠ []) :
    contents glued (text ++ (gap ++ next)) = contents glued (text ++ (gap' ++ next)) := by
  -- Both gaps start with a character that ends whatever token comes before it.
  induction h generalizing glued with
  | nil =>
    rw [List.nil_append, List.nil_append, contents_gap_append_of_ne_nil hg hne,
      contents_gap_append_of_ne_nil hg' hne']
  | blank hc _ ih =>
    rw [List.cons_append, List.cons_append, contents_blank hc, contents_blank hc, ih hu]
  | comment hc hr _ ih =>
    rw [contents_comment (blockComment_append _ hr), contents_comment (blockComment_append _ hr),
      ih hu]
  | token hc hr ht _ ih =>
    obtain ⟨hrole, hu⟩ := List.forall_mem_cons.1 hu
    have hunclosed : _ ≠ Token.unclosed := fun h => hrole (congrArg Token.role h)
    rw [contents_token_append hc hr ht hunclosed hg hne,
      contents_token_append hc hr ht hunclosed hg' hne', ih hu]

/-! ## Whole texts -/

theorem Grammar.outcome_congr {t t' : Transcript Token} (ht : t.tokens = t'.tokens)
    (hc : t.closed = t'.closed) : Grammar.outcome t = Grammar.outcome t' := by
  rw [outcome, outcome, ht, hc]

/-- Outside comments and literals, any gap is as good as any other. -/
theorem Grammar.parse_gaps {before gap gap' after : String}
    (ho : outline.endsOutside before.toList = true) (hg : lexicon.IsGap gap.toList) (hne : gap ≠ "")
    (hg' : lexicon.IsGap gap'.toList) (hne' : gap' ≠ "") :
    Agree Grammar.onLineOne (Grammar.parse (before ++ gap ++ after))
      (Grammar.parse (before ++ gap' ++ after)) := by
  obtain ⟨entries, hs, hu⟩ := outline_describes.exists_spells true ho
  have hc : contents true (before.toList ++ (gap.toList ++ after.toList)) =
      contents true (before.toList ++ (gap'.toList ++ after.toList)) :=
    contents_append_gap hs hu hg (fun h => hne (String.toList_eq_nil_iff.1 h)) hg'
      fun h => hne' (String.toList_eq_nil_iff.1 h)
  rw [agree_iff, ← outcome_parse, ← outcome_parse]
  simp only [String.toList_append, List.append_assoc]
  exact outcome_congr (congrArg Prod.fst hc) (congrArg Prod.snd hc)

def gapBeforeDefining : Grammar :=
  ⟨[⟨"s", 1, .ofContent (.list [.ofContent (.symbol "x"), .ofContent (.literal "y /*")])⟩,
    ⟨"t", 1, ⟨.symbol "u", .zeroOrMore, true⟩⟩]⟩

theorem Grammar.parse_gaps_before_defining :
    outline.endsOutside "s ::= x 'y /*' /* * */ t".toList = true ∧
      lexicon.IsGap "\n".toList ∧ "\n" ≠ "" ∧
        lexicon.IsGap "/* ' */\u2003/**/".toList ∧ "/* ' */\u2003/**/" ≠ "" ∧
          Agree Grammar.onLineOne
            (Grammar.parse ("s ::= x 'y /*' /* * */ t" ++ "\n" ++ "::= (u)*"))
            (Grammar.parse ("s ::= x 'y /*' /* * */ t" ++ "/* ' */\u2003/**/" ++ "::= (u)*")) ∧
          Grammar.parse "s ::= x 'y /*' /* * */ t\n::= (u)*" = .ok gapBeforeDefining ∧
          Grammar.parse "s ::= x 'y /*' /* * */ t/* ' */\u2003/**/::= (u)*" =
            .ok gapBeforeDefining := by
  have ho : outline.endsOutside "s ::= x 'y /*' /* * */ t".toList = true := by
    with_unfolding_all rfl
  have hg : lexicon.IsGap "\n".toList := .blank rfl .nil
  have hg' : lexicon.IsGap "/* ' */\u2003/**/".toList :=
    .comment rfl (.blank rfl (.comment rfl .nil))
  refine ⟨ho, hg, by decide, hg', by decide, parse_gaps ho hg (by decide) hg' (by decide), ?_, ?_⟩
  all_goals with_unfolding_all rfl

end GrammarText.W3c
