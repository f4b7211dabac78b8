import GrammarText.Proofs.W3c.Printed
import GrammarText.Proofs.W3c.Steps

/-!
# Reading W3C expressions

The tokens of an expression are read as one expression if parentheses stand wherever it binds looser
than its place allows. What is read is its normal form: lists and choices joined, and one mark for
repetition where several stand over the same operand.
-/

namespace GrammarText.W3c

/-! ## Tokens within an expression -/

/-- A token that can stand within an expression. -/
def Token.isInner : Token → Bool
  | .defining => false
  | .symbol _ head => !head
  | _ => true

theorem Token.isHead_of_isInner {token : Token} (h : token.isInner) : token.isHead = false := by
  cases token with
  | symbol name head => simpa [isInner, isHead] using h
  | _ => rfl

theorem Occurrence.tokens_inner (occurrence : Occurrence) :
    ∀ token ∈ occurrence.tokens, token.isInner := by
  cases occurrence <;> simp [tokens, Token.isInner]

mutual

theorem Expression.tokens_inner : (e : Expression) → ∀ token ∈ e.tokens, token.isInner
  | ⟨content, occurrence, false⟩ =>
    List.forall_mem_append.2 ⟨content.tokens_inner, occurrence.tokens_inner⟩
  | ⟨content, occurrence, true⟩ =>
    List.forall_mem_cons.2 ⟨rfl, List.forall_mem_append.2
      ⟨content.tokens_inner, List.forall_mem_cons.2 ⟨rfl, occurrence.tokens_inner⟩⟩⟩

theorem Content.tokens_inner : (content : Content) → ∀ token ∈ content.tokens, token.isInner
  | .literal _ => by simp [Content.tokens, Token.isInner]
  | .symbol _ => by simp [Content.tokens, Token.isInner]
  | .characterSet _ => by simp [Content.tokens, Token.isInner]
  | .list items => Expression.listTokens_inner items
  | .alternate arms => Expression.choiceTokens_inner arms
  | .exception minuend subtrahend => List.forall_mem_append.2
    ⟨minuend.tokens_inner, List.forall_mem_cons.2 ⟨rfl, subtrahend.tokens_inner⟩⟩

theorem Expression.listTokens_inner :
    (es : List Expression) → ∀ token ∈ Expression.listTokens es, token.isInner
  | [] => by simp [Expression.listTokens]
  | e :: more => List.forall_mem_append.2 ⟨e.tokens_inner, Expression.listTokens_inner more⟩

theorem Expression.choiceTokens_inner :
    (es : List Expression) → ∀ token ∈ Expression.choiceTokens es, token.isInner
  | [] => by simp [Expression.choiceTokens]
  | [e] => e.tokens_inner
  | e :: d :: more => List.forall_mem_append.2 ⟨e.tokens_inner,
    List.forall_mem_cons.2 ⟨rfl, Expression.choiceTokens_inner (d :: more)⟩⟩

end

theorem Expression.defining_not_mem_tokens (e : Expression) : .defining ∉ e.tokens :=
  fun h => absurd (e.tokens_inner _ h) (by decide)

theorem Expression.head_not_mem_tokens (e : Expression) (name : String) :
    .symbol name true ∉ e.tokens :=
  fun h => absurd (e.tokens_inner _ h) (by simp [Token.isInner])

theorem Expression.listTokens_eq_flatMap (es : List Expression) :
    Expression.listTokens es = es.flatMap Expression.tokens := by
  induction es with
  | nil => rfl
  | cons e es ih => rw [Expression.listTokens, ih, List.flatMap_cons]

theorem Expression.choiceTokens_eq_intercalate (es : List Expression) :
    Expression.choiceTokens es = [.bar].intercalate (es.map Expression.tokens) := by
  induction es with
  | nil => rfl
  | cons e es ih =>
    cases es with
    | nil => rw [Expression.choiceTokens, List.map_singleton, List.intercalate_singleton]
    | cons d es =>
      have htokens : choiceTokens (e :: d :: es) = e.tokens ++ .bar :: choiceTokens (d :: es) := by
        rw [choiceTokens]
        simp
      simp only [htokens, ih, List.map_cons, List.intercalate_cons_cons, List.append_assoc,
        List.singleton_append]

/-! ## Normal forms -/

/-- The expression with that mark in place of its own, unless it is none. -/
def Expression.remarked (e : Expression) : Occurrence → Expression
  | .once => e
  | occurrence => e.withOccurrence occurrence

mutual

/-- The expression as it is read. -/
def Expression.normal : Expression → Expression
  | ⟨content, occurrence, false⟩ => content.normal.remarked occurrence
  | ⟨content, occurrence, true⟩ => content.normal.parenthesized.remarked occurrence

def Content.normal : Content → Expression
  | .literal text => .ofContent (.literal text)
  | .symbol name => .ofContent (.symbol name)
  | .characterSet text => .ofContent (.characterSet text)
  | .list items => .sequence (Expression.normalAll items)
  | .alternate arms => .choice (Expression.normalAll arms)
  | .exception minuend subtrahend => .ofContent (.exception minuend.normal subtrahend.normal)

def Expression.normalAll : List Expression → List Expression
  | [] => []
  | e :: more => e.normal :: Expression.normalAll more

end

@[simp] theorem Expression.normal_ofContent (content : Content) :
    (ofContent content).normal = content.normal := by
  rw [ofContent, normal, remarked]

theorem Expression.normalAll_eq_map (es : List Expression) :
    Expression.normalAll es = es.map Expression.normal := by
  induction es with
  | nil => rfl
  | cons e es ih => rw [normalAll, ih, List.map_cons]

theorem Expression.normalAll_eq_self {es : List Expression} (h : ∀ e ∈ es, e.normal = e) :
    Expression.normalAll es = es := by
  induction es with
  | nil => rfl
  | cons e es ih =>
    obtain ⟨he, h⟩ := List.forall_mem_cons.1 h
    rw [normalAll, he, ih h]

/-! ## Parentheses where they are needed -/

/-- A list or a choice with that one operand. -/
inductive Content.Wraps : Content → Expression → Prop where
  | list (e : Expression) : Wraps (.list [e]) e
  | alternate (e : Expression) : Wraps (.alternate [e]) e

/-- The expression can stand in the given place as it is: parentheses are where it would bind looser
otherwise. -/
inductive Expression.Suits : Rank → Expression → Prop where
  | literal {text : String} {occurrence : Occurrence} :
      Suits .operand ⟨.literal text, occurrence, false⟩
  | symbol {name : String} {occurrence : Occurrence} :
      Suits .operand ⟨.symbol name, occurrence, false⟩
  | group {content : Content} {occurrence : Occurrence} (h : Suits .whole (.ofContent content)) :
      Suits .operand ⟨content, occurrence, true⟩
  /-- What holds a single operand is written as that operand. -/
  | lone {rank : Rank} {content : Content} {e : Expression} (hw : content.Wraps e)
      (h : Suits rank e) : Suits rank (.ofContent content)
  /-- So its mark is written as the mark of that operand, which has none of its own. -/
  | marked {content inner : Content} {occurrence : Occurrence} {grouped : Bool}
      (hw : content.Wraps ⟨inner, .once, grouped⟩)
      (h : Suits .operand ⟨inner, occurrence, grouped⟩) :
      Suits .operand ⟨content, occurrence, false⟩
  | operand {e : Expression} (h : Suits .operand e) : Suits .item e
  | exception {minuend subtrahend : Expression} (hm : Suits .operand minuend)
      (hs : Suits .operand subtrahend) : Suits .item (.ofContent (.exception minuend subtrahend))
  | item {e : Expression} (h : Suits .item e) : Suits .arm e
  | list {items : List Expression} (hne : items ≠ []) (hi : ∀ e ∈ items, Suits .arm e) :
      Suits .arm (.ofContent (.list items))
  | arm {e : Expression} (h : Suits .arm e) : Suits .whole e
  | alternate {arms : List Expression} (hne : arms ≠ []) (ha : ∀ e ∈ arms, Suits .whole e) :
      Suits .whole (.ofContent (.alternate arms))

namespace Content.Wraps

variable {content : Content} {e : Expression}

theorem tokens_eq (h : content.Wraps e) : content.tokens = e.tokens := by
  cases h with
  | list => rw [Content.tokens, Expression.listTokens, Expression.listTokens, List.append_nil]
  | alternate => rw [Content.tokens, Expression.choiceTokens]

theorem normal_eq (h : content.Wraps e) : content.normal = e.normal := by
  cases h <;> rfl

end Content.Wraps

theorem Expression.tokens_remark (content : Content) (occurrence : Occurrence) (grouped : Bool) :
    Expression.tokens ⟨content, occurrence, grouped⟩ =
      Expression.tokens ⟨content, .once, grouped⟩ ++ occurrence.tokens := by
  cases grouped <;> simp [Expression.tokens, Occurrence.tokens]

theorem Expression.normal_remark (content : Content) (occurrence : Occurrence) (grouped : Bool) :
    Expression.normal ⟨content, occurrence, grouped⟩ =
      (Expression.normal ⟨content, .once, grouped⟩).remarked occurrence := by
  cases grouped <;> rfl

/-! ## Reading -/

/-- In the given place, the tokens are read as the expression. Items and arms that have been read
before are left as they are. -/
def Reads : Rank → List Token → Expression → Prop
  | .operand, tokens, e => ∀ opened level minuend, ∃ marked,
    Body.Run ⟨opened, level, .operand minuend⟩ tokens ⟨opened, level, .item minuend e marked⟩
  | .item, tokens, e => ∀ opened level, ∃ minuend operand marked, endItem minuend operand = e ∧
    Body.Run ⟨opened, level, .operand none⟩ tokens ⟨opened, level, .item minuend operand marked⟩
  | .arm, tokens, e => ∀ opened arms before, ∃ es items minuend operand marked,
    es ≠ [] ∧ Expression.sequence es = e ∧
      (endItem minuend operand :: items).reverse = before.reverse ++ es ∧
        Body.Run ⟨opened, ⟨arms, before⟩, .operand none⟩ tokens
          ⟨opened, ⟨arms, items⟩, .item minuend operand marked⟩
  | .whole, tokens, e => ∀ opened before, ∃ es level minuend operand marked,
    es ≠ [] ∧ Expression.choice es = e ∧
      (level.endArm (endItem minuend operand)).reverse = before.reverse ++ es ∧
        Body.Run ⟨opened, ⟨before, []⟩, .operand none⟩ tokens
          ⟨opened, level, .item minuend operand marked⟩

/-- The tokens are read as an operand that can still be marked. -/
def ReadsUnmarked (tokens : List Token) (e : Expression) : Prop :=
  ∀ opened level minuend, Body.Run ⟨opened, level, .operand minuend⟩ tokens
    ⟨opened, level, .item minuend e false⟩

namespace ReadsUnmarked

variable {e : Expression} {tokens : List Token}

theorem leaf {token : Token} {content : Content} (ht : token.leaf? = some content) :
    ReadsUnmarked [token] (.ofContent content) :=
  fun _ _ _ => .single (.leaf ht)

theorem suffix (h : ReadsUnmarked tokens e) (occurrence : Occurrence) :
    Reads .operand (tokens ++ occurrence.tokens) (e.remarked occurrence) := by
  intro opened level minuend
  cases occurrence with
  | once => exact ⟨false, by rw [Occurrence.tokens, List.append_nil]; exact h opened level minuend⟩
  | _ => exact ⟨true, (h opened level minuend).append (.single .suffix)⟩

end ReadsUnmarked

namespace Reads

variable {e minuend subtrahend : Expression} {tokens after : List Token}

theorem item (h : Reads .operand tokens e) : Reads .item tokens e := by
  intro opened level
  obtain ⟨marked, hr⟩ := h opened level none
  exact ⟨none, e, marked, rfl, hr⟩

theorem arm (h : Reads .item tokens e) : Reads .arm tokens e := by
  intro opened arms before
  obtain ⟨minuend, operand, marked, rfl, hr⟩ := h opened ⟨arms, before⟩
  exact ⟨[endItem minuend operand], before, minuend, operand, marked, by simp, rfl, by simp, hr⟩

theorem whole (h : Reads .arm tokens e) : Reads .whole tokens e := by
  intro opened before
  obtain ⟨es, items, minuend, operand, marked, -, rfl, hes, hr⟩ := h opened before []
  refine ⟨[.sequence es], ⟨before, items⟩, minuend, operand, marked, by simp, rfl, ?_, hr⟩
  rw [Level.endArm, hes]
  simp

/-- Where the tokens are all that is read, they lead to where the expression ends. -/
theorem close (h : Reads .whole tokens e) (opened : List Opened) :
    ∃ level minuend operand marked, level.close (endItem minuend operand) = e ∧
      Body.Run ⟨opened, {}, .operand none⟩ tokens
        ⟨opened, level, .item minuend operand marked⟩ := by
  obtain ⟨es, level, minuend, operand, marked, -, rfl, hes, hr⟩ := h opened []
  exact ⟨level, minuend, operand, marked, by rw [Level.close, hes]; rfl, hr⟩

theorem group (h : Reads .whole tokens e) :
    ReadsUnmarked (.opening :: (tokens ++ [.closing])) e.parenthesized := by
  intro opened level minuend
  obtain ⟨inner, m, operand, marked, rfl, hr⟩ := h.close (⟨level, minuend⟩ :: opened)
  exact .cons .opening (hr.append (.single .closing))

theorem exception (hm : Reads .operand tokens minuend) (hs : Reads .operand after subtrahend) :
    Reads .item (tokens ++ .minus :: after) (.ofContent (.exception minuend subtrahend)) := by
  intro opened level
  obtain ⟨k, hm⟩ := hm opened level none
  obtain ⟨marked, hs⟩ := hs opened level (some minuend)
  exact ⟨some minuend, subtrahend, marked, rfl, hm.append (.cons .minus hs)⟩

section Joined

variable {α : Type} {parts : α → List Token} {value : α → Expression} {xs : List α}

theorem list (hne : xs ≠ []) (hr : ∀ x ∈ xs, Reads .arm (parts x) (value x))
    (hi : ∀ x ∈ xs, ∀ token ∈ parts x, token.isHead = false) :
    Reads .arm (xs.flatMap parts) (.sequence (xs.map value)) := by
  intro opened arms before
  -- `before` are the items that have been read, last first.
  induction xs generalizing before with
  | nil => exact absurd rfl hne
  | cons x xs ih =>
    obtain ⟨hx, hr⟩ := List.forall_mem_cons.1 hr
    obtain ⟨-, hi⟩ := List.forall_mem_cons.1 hi
    obtain ⟨read, items, minuend, operand, marked, hread, hseq, hend, hrun⟩ := hx opened arms before
    rw [List.flatMap_cons, List.map_cons]
    cases xs with
    | nil =>
      refine ⟨read, items, minuend, operand, marked, hread, ?_, hend, ?_⟩
      · rw [hseq, List.map_nil, Expression.sequence]
      · rwa [List.flatMap_nil, List.append_nil]
    | cons y xs =>
      obtain ⟨more, last, m, o, k, hmore, hrest, hlast, hafter⟩ :=
        ih (by simp) hr hi (endItem minuend operand :: items)
      refine ⟨read ++ more, last, m, o, k, by simp [hread], ?_, ?_, hrun.append (.next ?_ hafter)⟩
      · rw [Expression.sequence_joins.append hread hmore, hseq, hrest]
        exact (Expression.sequence_joins.cons (by simp)).symm
      · rw [hlast, hend, List.append_assoc]
      · intro token ht
        obtain ⟨z, hz, ht⟩ := List.mem_flatMap.1 ht
        exact hi z hz token ht

theorem choice (hne : xs ≠ []) (hr : ∀ x ∈ xs, Reads .whole (parts x) (value x)) :
    Reads .whole ([.bar].intercalate (xs.map parts)) (.choice (xs.map value)) := by
  intro opened before
  induction xs generalizing before with
  | nil => exact absurd rfl hne
  | cons x xs ih =>
    obtain ⟨hx, hr⟩ := List.forall_mem_cons.1 hr
    obtain ⟨read, level, minuend, operand, marked, hread, hch, hend, hrun⟩ := hx opened before
    cases xs with
    | nil =>
      refine ⟨read, level, minuend, operand, marked, hread, hch, hend, ?_⟩
      rwa [List.map_singleton, List.intercalate_singleton]
    | cons y xs =>
      obtain ⟨more, last, m, o, k, hmore, hrest, hlast, hafter⟩ :=
        ih (by simp) hr (level.endArm (endItem minuend operand))
      simp only [List.map_cons, List.intercalate_cons_cons, List.append_assoc]
      refine ⟨read ++ more, last, m, o, k, by simp [hread], ?_, ?_,
        hrun.append (.cons .bar hafter)⟩
      · rw [Expression.choice_joins.append hread hmore, hch, hrest]
        exact (Expression.choice_joins.cons (by simp)).symm
      · rw [hlast, hend, List.append_assoc]

end Joined

end Reads

/-- In a place that it suits, an expression is read as its normal form. -/
theorem Expression.Suits.reads {rank : Rank} {e : Expression} (h : e.Suits rank) :
    Reads rank e.tokens e.normal := by
  induction h with
  | literal => exact ReadsUnmarked.suffix (.leaf rfl) _
  | symbol => exact ReadsUnmarked.suffix (.leaf rfl) _
  | @group content occurrence _ ih =>
    rw [tokens_ofContent, normal_ofContent] at ih
    rw [tokens_remark, normal_remark]
    exact ih.group.suffix occurrence
  | lone hw _ ih => rwa [tokens_ofContent, normal_ofContent, hw.tokens_eq, hw.normal_eq]
  | @marked content inner occurrence grouped hw _ ih =>
    rw [tokens_remark, normal_remark] at ih
    rwa [tokens, normal, hw.tokens_eq, hw.normal_eq]
  | operand _ ih => exact ih.item
  | exception _ _ ihm ihs =>
    rw [tokens_ofContent, normal_ofContent]
    exact ihm.exception ihs
  | item _ ih => exact ih.arm
  | list hne _ ih =>
    rw [tokens_ofContent, normal_ofContent, Content.tokens, Content.normal, listTokens_eq_flatMap,
      normalAll_eq_map]
    exact .list hne ih fun e _ token ht => Token.isHead_of_isInner (e.tokens_inner token ht)
  | arm _ ih => exact ih.whole
  | alternate hne _ ih =>
    rw [tokens_ofContent, normal_ofContent, Content.tokens, Content.normal,
      choiceTokens_eq_intercalate, normalAll_eq_map]
    exact .choice hne ih

end GrammarText.W3c
