import GrammarText.Proofs.Lexis.Written
import GrammarText.Proofs.W3c.Shape
import GrammarText.Proofs.W3c.Steps

/-!
# The normal form of W3C grammars

Whatever has been read of a grammar has the shape of its place. So lists and choices that are read
are never nested but where a mark for repetition keeps them apart.
-/

namespace GrammarText.W3c

/-! ## Legible tokens -/

/-- What a token can hold. -/
def Token.Legible : Token → Prop
  | .symbol name _ => IsWord name
  | .literal text => IsLiteral text
  | _ => True

theorem word_eq_found {text source rest : List Char} {value : String}
    (h : word text = .found value source rest) : IsWord value := by
  obtain ⟨name, hn, rfl⟩ := Recognition.map_eq_found h
  obtain ⟨rfl, hne, ha, -⟩ := run_eq_found_iff.1 hn
  simpa [IsWord] using And.intro hne ha

namespace Token

section Read

variable {c : Char} {more source rest : List Char} {token : Token}

theorem ofMark_legible (h : ofMark c more = ⟨token, source, rest⟩) : token.Legible := by
  unfold ofMark at h
  split at h <;> cases h <;> trivial

theorem read_legible (h : read c more = ⟨token, source, rest⟩) : token.Legible := by
  cases reads h with
  | symbol h => exact word_eq_found h
  | literal h => exact not_both_quotes h
  | unclosed => trivial
  | mark _ _ h => exact ofMark_legible h

end Read

theorem seen_legible {token : Token} (h : token.Legible) (glued : Bool) :
    (token.seen glued).Legible := by
  cases glued <;> cases token <;> exact h

end Token

theorem Spells.legible {glued : Bool} {text : List Char} {tokens : List Token}
    (h : Spells glued text tokens) : ∀ token ∈ tokens, token.Legible := by
  obtain ⟨entries, hs, rfl⟩ := h
  exact SpellsEntries.forall_token (fun _ _ _ _ _ ht => Token.read_legible ht)
    (fun g _ ht => Token.seen_legible ht g) hs

theorem headed_legible {tokens : List Token} (h : ∀ token ∈ tokens, token.Legible) :
    ∀ token ∈ headed tokens, token.Legible := by
  fun_induction headed tokens with
  | case1 name head next tokens ih =>
    obtain ⟨hn, ht⟩ := List.forall_mem_cons.1 h
    exact List.forall_mem_cons.2 ⟨hn, ih ht⟩
  | case2 token tokens _ ih =>
    obtain ⟨hn, ht⟩ := List.forall_mem_cons.1 h
    exact List.forall_mem_cons.2 ⟨hn, ih ht⟩
  | case3 => simp

/-! ## What has been read -/

/-- What stands before a minus is an operand. -/
def FitsMinuend (minuend : Option Expression) : Prop := ∀ e ∈ minuend, e.Fits .operand

structure Level.Fits (level : Level) : Prop where
  arms : ∀ e ∈ level.arms, e.Fits .arm
  items : ∀ e ∈ level.items, e.Fits .item

def Slot.Fits : Slot → Prop
  | .operand minuend => FitsMinuend minuend
  | .item minuend e _ => FitsMinuend minuend ∧ e.Fits .operand

structure Body.Fits (body : Body) : Prop where
  opened : ∀ top ∈ body.opened, top.level.Fits ∧ FitsMinuend top.minuend
  level : body.level.Fits
  slot : body.slot.Fits

def Progress.Fits : Progress → Prop
  | .partly body => body.Fits
  | .whole expression => expression.Fits .whole

def Place.Fits : Place → Prop
  | .between => True
  | .named rule => IsWord rule.name
  | .within rule body => IsWord rule.name ∧ body.Fits

structure State.Fits (state : State) : Prop where
  rules : ∀ rule ∈ state.rules, rule.Fits
  place : state.place.Fits

theorem FitsMinuend.none : FitsMinuend none := fun _ h => nomatch h

namespace Level

variable {level : Level} {item : Expression}

theorem Fits.empty : ({} : Level).Fits := ⟨by simp, by simp⟩

theorem Fits.addItem (hl : level.Fits) (hi : item.Fits .item) : (level.addItem item).Fits :=
  ⟨hl.arms, List.forall_mem_cons.2 ⟨hi, hl.items⟩⟩

theorem Fits.endArm (hl : level.Fits) (hi : item.Fits .item) :
    ∀ e ∈ level.endArm item, e.Fits .arm := by
  refine List.forall_mem_cons.2 ⟨.sequence (by simp) ?_, hl.arms⟩
  intro e he
  rcases List.mem_cons.1 (List.mem_reverse.1 he) with rfl | he
  · exact hi
  · exact hl.items e he

theorem Fits.close (hl : level.Fits) (hi : item.Fits .item) : (level.close item).Fits .whole := by
  refine .choice (by simp [Level.endArm]) ?_
  intro e he
  exact hl.endArm hi e (List.mem_reverse.1 he)

end Level

theorem endItem_fits {minuend : Option Expression} {operand : Expression}
    (hm : FitsMinuend minuend) (ho : operand.Fits .operand) :
    (endItem minuend operand).Fits .item := by
  cases minuend with
  | none => exact .operand ho
  | some e => exact .exception (hm e rfl) ho

theorem fits_of_leaf? {token : Token} {content : Content} (ht : token.Legible)
    (h : token.leaf? = some content) : (Expression.ofContent content).Fits .operand := by
  cases token with
  | literal => cases h; exact .literal ht
  | symbol => cases h; exact .symbol ht
  | _ => cases h

theorem Body.Step.fits {body : Body} {token : Token} {progress : Progress}
    (h : Body.Step body token progress) (hb : body.Fits) (ht : token.Legible) : progress.Fits := by
  induction h with
  | opening =>
    exact ⟨List.forall_mem_cons.2 ⟨⟨hb.level, by exact hb.slot⟩, hb.opened⟩, .empty,
      FitsMinuend.none⟩
  | leaf hl => exact ⟨hb.opened, hb.level, hb.slot, fits_of_leaf? ht hl⟩
  | suffix => exact ⟨hb.opened, hb.level, hb.slot.1, hb.slot.2.withOccurrence⟩
  | minus =>
    have ho := hb.slot.2
    exact ⟨hb.opened, hb.level, fun e he => by cases he; exact ho⟩
  | bar =>
    have hi := endItem_fits hb.slot.1 hb.slot.2
    exact ⟨hb.opened, ⟨hb.level.endArm hi, by simp⟩, FitsMinuend.none⟩
  | closing =>
    have hi := endItem_fits hb.slot.1 hb.slot.2
    obtain ⟨htop, ho⟩ := List.forall_mem_cons.1 hb.opened
    exact ⟨ho, htop.1, htop.2, (hb.level.close hi).parenthesized⟩
  | next _ _ ih =>
    have hi := endItem_fits hb.slot.1 hb.slot.2
    exact ih ⟨hb.opened, hb.level.addItem hi, FitsMinuend.none⟩ ht
  | last => exact hb.level.close (endItem_fits hb.slot.1 hb.slot.2)

theorem State.feed_fits {state next : State} {token : Token} (hs : state.Fits)
    (ht : token.Legible) (h : state.feed token = .ok next) : next.Fits := by
  cases State.feed_eq_ok_iff.1 h with
  | name => exact ⟨hs.rules, ht⟩
  | defining => exact ⟨hs.rules, hs.place, by simp, .empty, FitsMinuend.none⟩
  | within hb => exact ⟨hs.rules, hs.place.1, hb.fits hs.place.2 ht⟩
  | rule hb =>
    exact ⟨List.forall_mem_cons.2 ⟨⟨hs.place.1, hb.fits hs.place.2 ht⟩, hs.rules⟩, ht⟩

theorem State.Ended.fits {state : State} {rules : List Rule} (h : State.Ended state rules)
    (hs : state.Fits) : ∀ rule ∈ rules, rule.Fits := by
  cases h with
  | start => exact hs.rules
  | rule =>
    obtain ⟨hn, hb⟩ := hs.place
    have hi := endItem_fits hb.slot.1 hb.slot.2
    exact List.forall_mem_cons.2 ⟨⟨hn, hb.level.close hi⟩, hs.rules⟩

theorem Grammar.ofTokens_fits {tokens : List Token} {grammar : Grammar}
    (ht : ∀ token ∈ tokens, token.Legible) (h : Grammar.ofTokens tokens = .ok grammar) :
    ∀ rule ∈ grammar.rules, rule.Fits := by
  obtain ⟨state, hr, hf⟩ := Grammar.ofTokens_eq_ok_iff.1 h
  have hi : State.Fits ⟨[], .between⟩ := ⟨by simp, trivial⟩
  have hs : state.Fits := foldlM_invariant State.feed_fits hi (headed_legible ht) hr
  simpa using (State.Ended.of_finish hf).fits hs

/-- Whatever is read from a text fits on the right side of its rule. -/
theorem fits_of_parse {text : String} {grammar : Grammar} (h : Grammar.parse text = .ok grammar) :
    ∀ rule ∈ grammar.rules, rule.Fits := by
  obtain ⟨tokens, hs, ht⟩ := exists_spells_of_parse h
  intro rule hr
  exact Grammar.ofTokens_fits hs.legible ht rule.onLineOne (List.mem_map_of_mem hr)

/-! ## Nodes -/

mutual

/-- All the expressions that an expression is made of, itself included. -/
def Expression.nodes : Expression → List Expression
  | ⟨content, occurrence, grouped⟩ => ⟨content, occurrence, grouped⟩ :: content.nodes

def Content.nodes : Content → List Expression
  | .list items => Expression.nodesAll items
  | .alternate arms => Expression.nodesAll arms
  | .exception minuend subtrahend => minuend.nodes ++ subtrahend.nodes
  | _ => []

def Expression.nodesAll : List Expression → List Expression
  | [] => []
  | e :: more => e.nodes ++ Expression.nodesAll more

end

namespace Expression

/-- A leaf, or in parentheses. -/
def IsClosed : Expression → Prop
  | ⟨.list _, _, grouped⟩ | ⟨.alternate _, _, grouped⟩ | ⟨.exception _ _, _, grouped⟩ =>
    grouped = true
  | _ => True

/-- What holds of every node in the normal form. An exception without parentheses is not closed, so
it is the right side of a rule, an item or an arm. -/
structure IsNormal (e : Expression) : Prop where
  content : match e.content with
    | .literal text => IsLiteral text
    | .symbol name => IsWord name
    | .characterSet _ => False
    | .list items => 2 ≤ items.length ∧ ∀ d ∈ items,
      d.isList = false ∧ ∀ arms, d.content = .alternate arms → d.grouped = true
    | .alternate arms => 2 ≤ arms.length ∧ ∀ d ∈ arms, d.isChoice = false
    | .exception minuend subtrahend => minuend.IsClosed ∧ subtrahend.IsClosed
  marked : e.occurrence ≠ .once → e.IsClosed

variable {e : Expression} {es : List Expression} {rank : Rank}

theorem mem_nodesAll {node : Expression} : node ∈ nodesAll es ↔ ∃ e ∈ es, node ∈ e.nodes := by
  induction es with
  | nil => simp [nodesAll]
  | cons e es ih => simp [nodesAll, ih]

theorem isClosed_of_grouped (content : Content) (occurrence : Occurrence) :
    IsClosed ⟨content, occurrence, true⟩ := by
  cases content <;> trivial

theorem Fits.isClosed (h : e.Fits .operand) : e.IsClosed := by
  cases h with
  | literal => trivial
  | symbol => trivial
  | group => exact isClosed_of_grouped _ _

theorem Fits.grouped_of_alternate {arms : List Expression} (h : e.Fits .item)
    (hc : e.content = .alternate arms) : e.grouped = true := by
  cases h with
  | operand h =>
    cases h with
    | literal => cases hc
    | symbol => cases hc
    | group => rfl
  | exception => cases hc

/-- An expression is in normal form wherever it fits. -/
theorem Fits.normal (h : e.Fits rank) : ∀ node ∈ e.nodes, node.IsNormal := by
  induction h with
  | literal h => exact List.forall_mem_cons.2 ⟨⟨h, fun _ => trivial⟩, by simp [Content.nodes]⟩
  | symbol h => exact List.forall_mem_cons.2 ⟨⟨h, fun _ => trivial⟩, by simp [Content.nodes]⟩
  | group _ ih =>
    -- Only the mark and the parentheses are new, below them nothing changes.
    obtain ⟨hn, hi⟩ := List.forall_mem_cons.1 ih
    exact List.forall_mem_cons.2 ⟨⟨hn.content, fun _ => isClosed_of_grouped _ _⟩, hi⟩
  | operand _ ih => exact ih
  | exception hm hs ihm ihs =>
    exact List.forall_mem_cons.2 ⟨⟨⟨hm.isClosed, hs.isClosed⟩, fun h => absurd rfl h⟩,
      List.forall_mem_append.2 ⟨ihm, ihs⟩⟩
  | item _ ih => exact ih
  | list hl hi hn ih =>
    refine List.forall_mem_cons.2 ⟨⟨⟨hl, ?_⟩, fun h => absurd rfl h⟩, ?_⟩
    · exact fun d hd => ⟨hn d hd, fun _ => (hi d hd).grouped_of_alternate⟩
    · intro node hm
      obtain ⟨d, hd, hm⟩ := mem_nodesAll.1 hm
      exact ih d hd node hm
  | arm _ ih => exact ih
  | alternate hl ha hn ih =>
    refine List.forall_mem_cons.2 ⟨⟨⟨hl, hn⟩, fun h => absurd rfl h⟩, ?_⟩
    intro node hm
    obtain ⟨d, hd, hm⟩ := mem_nodesAll.1 hm
    exact ih d hd node hm

end Expression

/-- Every node that is read from a text is in normal form. -/
theorem Grammar.parse_normal {text : String} {grammar : Grammar}
    (h : Grammar.parse text = .ok grammar) :
    ∀ rule ∈ grammar.rules, ∀ node ∈ rule.expression.nodes, node.IsNormal :=
  fun rule hr => (fits_of_parse h rule hr).2.normal

def nested : Grammar :=
  ⟨[⟨"r", 1, .ofContent (.exception
    ⟨.alternate [.ofContent (.symbol "a"),
      ⟨.list [.ofContent (.symbol "b"), .ofContent (.symbol "c")], .optional, true⟩], .once, true⟩
    (.ofContent (.literal "d")))⟩]⟩

theorem parse_nested : Grammar.parse "r ::= (a | (b c)?) - 'd'" = .ok nested := by
  with_unfolding_all rfl

theorem parse_normal_nested : Grammar.parse "r ::= (a | (b c)?) - 'd'" = .ok nested ∧
    ∀ rule ∈ nested.rules, ∀ node ∈ rule.expression.nodes, node.IsNormal :=
  ⟨parse_nested, Grammar.parse_normal parse_nested⟩

end GrammarText.W3c
