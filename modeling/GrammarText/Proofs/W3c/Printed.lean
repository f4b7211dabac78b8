import GrammarText.Proofs.Lexis.Written
import GrammarText.Proofs.W3c.Shape
import GrammarText.Proofs.W3c.Tokens
import GrammarText.W3c.Printer

/-!
# What a printed W3C grammar spells

The printed text of an expression that fits spells the tokens of the expression, in order, as long
as no letter follows.
-/

namespace GrammarText.W3c

/-! ## The tokens of a tree -/

def Occurrence.tokens : Occurrence → List Token
  | once => []
  | occurrence => [.suffix occurrence]

mutual

def Expression.tokens : Expression → List Token
  | ⟨content, occurrence, false⟩ => content.tokens ++ occurrence.tokens
  | ⟨content, occurrence, true⟩ => .opening :: content.tokens ++ .closing :: occurrence.tokens

def Content.tokens : Content → List Token
  | .literal text => [.literal text]
  | .symbol name => [.symbol name false]
  | .characterSet _ => [.characterSet]
  | .list items => Expression.listTokens items
  | .alternate arms => Expression.choiceTokens arms
  | .exception minuend subtrahend => minuend.tokens ++ .minus :: subtrahend.tokens

def Expression.listTokens : List Expression → List Token
  | [] => []
  | e :: more => e.tokens ++ Expression.listTokens more

def Expression.choiceTokens : List Expression → List Token
  | [] => []
  | [e] => e.tokens
  | e :: more => e.tokens ++ .bar :: Expression.choiceTokens more

end

def Rule.tokens (rule : Rule) : List Token :=
  .symbol rule.symbol false :: .defining :: rule.expression.tokens

@[simp] theorem Expression.chars_ofContent (content : Content) :
    (ofContent content).chars = content.chars := by
  simp [ofContent, chars, Occurrence.suffix]

@[simp] theorem Expression.tokens_ofContent (content : Content) :
    (ofContent content).tokens = content.tokens := by
  simp [ofContent, tokens, Occurrence.tokens]

/-! ## Single tokens -/

theorem head?_stops {c : Char} {more : List Char} (hc : c.isAlpha = false) :
    ∀ d ∈ (c :: more).head?, d.isAlpha = false := by
  simpa using hc

namespace Spells

variable {glued : Bool} {c : Char} {more : List Char} {after : List Token}

theorem symbol {name : String} (hn : IsWord name) (hm : ∀ c ∈ more.head?, c.isAlpha = false)
    (h : Spells true more after) :
    Spells glued (name.toList ++ more) (.symbol name false :: after) := by
  have hread : word (name.toList ++ more) = .found name name.toList more := by
    exact word_eq_found_iff.2 ⟨(String.ofList_toList).symm, hn.1, hn.2, hm, rfl⟩
  obtain ⟨d, tail, hd⟩ := List.exists_cons_of_ne_nil hn.1
  have hl : d.isAlpha = true := hn.2 d (by simp [hd])
  rw [hd, List.cons_append] at hread ⊢
  rw [← Token.seen_symbol glued]
  refine .token (isBlank_of_isAlpha hl) (blockComment_cons_eq_absent ?_) (Token.read_of_word hread) h
  rintro rfl
  cases hl

theorem quoted {text : String} {quote : Char} (hq : isQuote quote = true)
    (ht : quote ∉ text.toList) (h : Spells true more after) :
    Spells glued (quote :: text.toList ++ quote :: more) (.literal text :: after) := by
  have hquote : isBlank quote = false ∧ quote.isAlpha = false ∧ quote ≠ '/' := by
    have : quote = '\'' ∨ quote = '"' := by simpa [isQuote] using hq
    rcases this with rfl | rfl <;> decide
  have hread := quotedText_of_not_mem quote hq ht more
  rw [String.ofList_toList, List.cons_append] at hread
  have ht := Token.read_of_quotedText hquote.2.1 hread
  have hseen : (Token.literal text).seen glued = .literal text := Token.seen_eq_self (by simp) glued
  rw [← hseen]
  exact .token hquote.1 (blockComment_cons_eq_absent hquote.2.2) ht h

theorem literal {text : String} (ht : IsLiteral text) (h : Spells true more after) :
    Spells glued (literalChars text.toList ++ more) (.literal text :: after) := by
  -- The quote is one that the text does not hold.
  by_cases hs : '\'' ∈ text.toList
  · simp only [literalChars, List.contains_iff_mem, hs, if_true, List.append_assoc]
    exact quoted rfl (fun hd => ht ⟨hd, hs⟩) h
  · simp only [literalChars, List.contains_iff_mem, hs, if_false, List.append_assoc]
    exact quoted rfl hs h

theorem mark (token : Token) (hb : isBlank c = false) (hl : c.isAlpha = false)
    (hq : isQuote c = false) (hs : c ≠ '/') (ht : Token.ofMark c more = ⟨token, [c], more⟩)
    (h : Spells true more after) : Spells glued (c :: more) (token.seen glued :: after) := by
  exact .token hb (blockComment_cons_eq_absent hs) ((Token.read_eq_ofMark hl hq).trans ht) h

theorem space (h : Spells false more after) : Spells glued (' ' :: more) after :=
  .blank isBlank_space h

end Spells

/-! ## Trees -/

/-- Written down with no letter right behind them, the characters spell the tokens. -/
def Writes (chars : List Char) (tokens : List Token) : Prop :=
  ∀ ⦃glued : Bool⦄ ⦃more : List Char⦄ ⦃after : List Token⦄, (∀ c ∈ more.head?, c.isAlpha = false) →
    Spells true more after → Spells glued (chars ++ more) (tokens ++ after)

namespace Writes

variable {chars before : List Char} {tokens earlier : List Token}

theorem suffix (h : Writes chars tokens) (occurrence : Occurrence) :
    Writes (chars ++ occurrence.suffix) (tokens ++ occurrence.tokens) := by
  intro glued more after hc hs
  rw [List.append_assoc, List.append_assoc]
  cases occurrence with
  | once => exact h hc hs
  | _ => exact h (head?_stops rfl) (.mark (.suffix _) rfl rfl rfl (by decide) rfl hs)

theorem group (h : Writes chars tokens) :
    Writes ('(' :: chars ++ [')']) (.opening :: tokens ++ [.closing]) := by
  intro glued more after hc hs
  have hclose : Spells true (')' :: more) (.closing :: after) :=
    .mark .closing rfl rfl rfl (by decide) rfl hs
  have hopen : Spells glued ('(' :: (chars ++ ')' :: more))
      (Token.opening.seen glued :: (tokens ++ .closing :: after)) :=
    .mark .opening rfl rfl rfl (by decide) rfl (h (head?_stops rfl) hclose)
  simpa [Token.seen_eq_self] using hopen

theorem append_space (hb : Writes before earlier) (h : Writes chars tokens) :
    Writes (before ++ ' ' :: chars) (earlier ++ tokens) := by
  intro glued more after hc hs
  have hspace : Spells true (' ' :: (chars ++ more)) (tokens ++ after) := .space (h hc hs)
  simpa using hb (head?_stops rfl) hspace

theorem append_mark {mark : Char} {token : Token}
    (hm : ∀ more after, Spells true more after → Spells false (mark :: more) (token :: after))
    (hb : Writes before earlier) (h : Writes chars tokens) :
    Writes (before ++ ' ' :: mark :: ' ' :: chars) (earlier ++ token :: tokens) := by
  intro glued more after hc hs
  have hspace : Spells true (' ' :: mark :: ' ' :: (chars ++ more))
      (token :: (tokens ++ after)) := .space (hm _ _ (.space (h hc hs)))
  simpa using hb (head?_stops rfl) hspace

theorem minus (hb : Writes before earlier) (h : Writes chars tokens) :
    Writes (before ++ ' ' :: '-' :: ' ' :: chars) (earlier ++ .minus :: tokens) := by
  refine append_mark ?_ hb h
  intro more after hs
  exact .mark .minus rfl rfl rfl (by decide) rfl hs

theorem bar (hb : Writes before earlier) (h : Writes chars tokens) :
    Writes (before ++ ' ' :: '|' :: ' ' :: chars) (earlier ++ .bar :: tokens) := by
  refine append_mark ?_ hb h
  intro more after hs
  exact .mark .bar rfl rfl rfl (by decide) rfl hs

theorem expression (content : Content) (h : Writes content.chars content.tokens)
    (occurrence : Occurrence) (grouped : Bool) :
    Writes (Expression.chars ⟨content, occurrence, grouped⟩)
      (Expression.tokens ⟨content, occurrence, grouped⟩) := by
  cases grouped with
  | false => simpa [Expression.chars, Expression.tokens] using h.suffix occurrence
  | true => simpa [Expression.chars, Expression.tokens] using h.group.suffix occurrence

theorem listChars {es : List Expression} (hne : es ≠ [])
    (h : ∀ e ∈ es, Writes e.chars e.tokens) :
    Writes (Expression.listChars es) (Expression.listTokens es) := by
  induction es with
  | nil => exact absurd rfl hne
  | cons e es ih =>
    obtain ⟨he, hes⟩ := List.forall_mem_cons.1 h
    cases es with
    | nil => simpa [Expression.listChars, Expression.listTokens] using he
    | cons d es => exact he.append_space (ih (by simp) hes)

theorem choiceChars {es : List Expression} (hne : es ≠ [])
    (h : ∀ e ∈ es, Writes e.chars e.tokens) :
    Writes (Expression.choiceChars es) (Expression.choiceTokens es) := by
  induction es with
  | nil => exact absurd rfl hne
  | cons e es ih =>
    obtain ⟨he, hes⟩ := List.forall_mem_cons.1 h
    cases es with
    | nil => exact he
    | cons d es => exact he.bar (ih (by simp) hes)

end Writes

/-- The printed text of an expression that fits spells its tokens. -/
theorem Expression.Fits.writes {rank : Rank} {e : Expression} (h : e.Fits rank) :
    Writes e.chars e.tokens := by
  induction h with
  | literal ht =>
    refine .expression _ ?_ _ _
    intro glued more after _ hs
    exact .literal ht hs
  | symbol hn =>
    refine .expression _ ?_ _ _
    intro glued more after hc hs
    exact .symbol hn hc hs
  | group _ ih => exact .expression _ (by simpa using ih) _ _
  | operand _ ih => exact ih
  | exception _ _ ihm ihs => exact .expression (.exception _ _) (ihm.minus ihs) _ _
  | item _ ih => exact ih
  | list hl _ _ ih =>
    exact .expression (.list _) (.listChars (Expression.ne_nil_of_two_le hl) ih) _ _
  | arm _ ih => exact ih
  | alternate hl _ _ ih =>
    exact .expression (.alternate _) (.choiceChars (Expression.ne_nil_of_two_le hl) ih) _ _

/-! ## Grammars -/

variable {glued : Bool} {more : List Char} {after : List Token}

theorem Rule.spells {rule : Rule} (hr : rule.Fits) (h : Spells false more after) :
    Spells glued (rule.chars ++ '\n' :: more) (rule.tokens ++ after) := by
  have he : Spells false (rule.expression.chars ++ '\n' :: more)
      (rule.expression.tokens ++ after) := hr.2.writes (head?_stops rfl) (.blank rfl h)
  have hd : Spells false (':' :: ':' :: '=' :: ' ' :: (rule.expression.chars ++ '\n' :: more))
      (.defining :: (rule.expression.tokens ++ after)) := .token rfl rfl rfl (.space he)
  have hs : Spells glued (rule.symbol.toList ++ ' ' :: _) (.symbol rule.symbol false :: _) :=
    .symbol hr.1 (head?_stops rfl) (.space hd)
  simpa [Rule.chars, Rule.tokens] using hs

theorem Grammar.spells {grammar : Grammar} (hg : ∀ rule ∈ grammar.rules, rule.Fits) :
    Spells glued grammar.chars (grammar.rules.flatMap Rule.tokens) := by
  obtain ⟨rules⟩ := grammar
  rw [Grammar.chars]
  induction rules generalizing glued with
  | nil => exact .nil
  | cons rule rules ih =>
    obtain ⟨hr, hg⟩ := List.forall_mem_cons.1 hg
    simpa using Rule.spells hr (ih hg)

end GrammarText.W3c
