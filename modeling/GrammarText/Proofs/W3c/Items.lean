import GrammarText.Proofs.W3c.Reading
import GrammarText.Proofs.W3c.Regrouping

/-!
# Items of W3C expressions

A text that holds a single item is read in the same way wherever an item may stand. So items side by
side are joined to one arm, and arms with bars between them to one choice.
-/

namespace GrammarText.W3c

/-! ## Texts of one item -/

/-- The right side of a rule after one more lexeme, if that does not end it. -/
def Body.goOn? (body : Body) (lexeme : Lexeme Token) : Option Body :=
  match body.step lexeme.glued lexeme.token with
  | .ok (.partly next) => some next
  | _ => none

theorem Body.goOn?_eq_some_iff {body next : Body} {lexeme : Lexeme Token} :
    body.goOn? lexeme = some next ↔
      body.step lexeme.glued lexeme.token = .ok (.partly next) := by
  unfold goOn?
  split
  · next hs => simp [hs]
  · next hs => simpa using hs next

/-- What a text is read as that holds one item and nothing else: an operand, or one with another
excepted from it. In the end nothing else has been read, and no parenthesis is open. -/
def itemOf? (text : String) : Option Expression :=
  let lexed := lexemes text.toList
  match lexed.trailing, lexed.lexemes.foldlM Body.goOn? ⟨[], {}, .operand none⟩ with
  | some _, some ⟨[], ⟨[], []⟩, .item minuend operand _⟩ => some (endItem minuend operand)
  | _, _ => none

theorem itemOf?_eq_some_iff_goOn? {text : String} {e : Expression} : itemOf? text = some e ↔
    ∃ comments minuend operand marked, (lexemes text.toList).trailing = some comments ∧
      (lexemes text.toList).lexemes.foldlM Body.goOn? ⟨[], {}, .operand none⟩ =
        some ⟨[], {}, .item minuend operand marked⟩ ∧ endItem minuend operand = e := by
  constructor
  · intro h
    simp only [itemOf?] at h
    split at h
    · next comments minuend operand marked ht hr =>
      cases h
      exact ⟨comments, minuend, operand, marked, ht, hr, rfl⟩
    · cases h
  · rintro ⟨comments, minuend, operand, marked, ht, hr, rfl⟩
    simp only [itemOf?, ht, hr]

/-- The tokens of a text, as they are read. -/
def tokensOf (text : String) : List Token :=
  (lexicon.read text.toList).lexemes.map fun lexeme => lexeme.token.seen lexeme.glued

theorem spells_tokensOf {text : String} {comments : List String}
    (h : (lexicon.read text.toList).trailing = some comments) :
    Spells true text.toList (tokensOf text) := by
  obtain ⟨entries, hs⟩ := Lexicon.exists_spells_of_trailing Token.seen h
  have ht : lexicon.transcript (fun glued _ token => token.seen glued) true .start text.toList =
      ⟨entries, true⟩ := Lexicon.spells_iff_transcript.1 hs
  have htokens := congrArg Transcript.tokens ht
  rw [Lexicon.tokens_transcript] at htokens
  exact ⟨entries, hs, htokens.symm⟩

theorem Body.Run.of_goOn? {first last : Body} {lexemes : List (Lexeme Token)}
    (h : lexemes.foldlM Body.goOn? first = some last) :
    Run first (lexemes.map fun lexeme => lexeme.token.seen lexeme.glued) last := by
  induction lexemes generalizing first with
  | nil => cases h; exact .nil
  | cons lexeme lexemes ih =>
    obtain ⟨next, hn, hl⟩ := Option.bind_eq_some_iff.1 h
    rw [goOn?_eq_some_iff, ← Body.step_seen] at hn
    exact .cons (.of_step hn) (ih hl)

theorem spells_and_run_of_itemOf? {text : String} {e : Expression} (h : itemOf? text = some e) :
    Spells true text.toList (tokensOf text) ∧ ∃ minuend operand marked,
      endItem minuend operand = e ∧ Body.Run ⟨[], {}, .operand none⟩ (headed (tokensOf text))
        ⟨[], {}, .item minuend operand marked⟩ := by
  obtain ⟨comments, minuend, operand, marked, ht, hr, he⟩ := itemOf?_eq_some_iff_goOn?.1 h
  refine ⟨spells_tokensOf ht, minuend, operand, marked, he, ?_⟩
  rw [tokensOf, ← map_markHeads]
  exact .of_goOn? hr

/-! ## What stands before an item -/

/-- What has been read outside of all the parentheses that interrupt the level. -/
def Level.beneath (level : Level) : List Opened → Level
  | [] => level
  | top :: opened => top.level.beneath opened

def Body.base (body : Body) : Level := body.level.beneath body.opened

theorem Level.beneath_eq_of_ne {level inside : Level} {opened : List Opened} (hne : inside ≠ {})
    (h : inside.beneath opened = {}) : level.beneath opened = {} := by
  cases opened with
  | nil => exact absurd h hne
  | cons top opened => exact h

/-- What has been read before is not forgotten. -/
theorem Body.Step.base_eq {body next : Body} {token : Token}
    (h : Body.Step body token (.partly next)) (hn : next.base = {}) : body.base = {} := by
  cases h with
  | bar => exact Level.beneath_eq_of_ne (by simp [Level.endArm]) hn
  | next _ h =>
    have hadded : ∀ level item, (Level.addItem level item) ≠ {} := by simp [Level.addItem]
    cases h with
    | opening => exact Level.beneath_eq_of_ne (hadded _ _) hn
    | leaf => exact Level.beneath_eq_of_ne (hadded _ _) hn
  | _ => exact hn

theorem Body.Run.base_eq {first last : Body} {tokens : List Token} (h : Run first tokens last)
    (hl : last.base = {}) : first.base = {} := by
  induction h with
  | nil => exact hl
  | cons hs _ ih => exact hs.base_eq (ih hl)

/-- The first body is the second one without what has been read around the item that both are in. -/
inductive Body.Frames (opened : List Opened) (level : Level) : Body → Body → Prop where
  | flat {slot : Slot} : Frames opened level ⟨[], {}, slot⟩ ⟨opened, level, slot⟩
  | nested (inner : List Opened) {minuend : Option Expression} {inside : Level} {slot : Slot} :
      Frames opened level ⟨inner ++ [⟨{}, minuend⟩], inside, slot⟩
        ⟨inner ++ ⟨level, minuend⟩ :: opened, inside, slot⟩

namespace Body.Frames

variable {opened : List Opened} {level : Level} {first second last : Body} {token : Token}
  {tokens : List Token}

theorem step (h : Frames opened level first second) {next : Body}
    (hs : Body.Step first token (.partly next)) (hn : next.base = {}) :
    ∃ after, Frames opened level next after ∧ Body.Step second token (.partly after) := by
  cases h with
  | flat =>
    cases hs with
    | opening => exact ⟨_, .nested [], .opening⟩
    | leaf ht => exact ⟨_, .flat, .leaf ht⟩
    | suffix => exact ⟨_, .flat, .suffix⟩
    | minus => exact ⟨_, .flat, .minus⟩
    -- Outside of the parentheses, a bar or one more item would leave something behind.
    | bar => cases hn
    | next _ hs => cases hs <;> cases hn
  | @nested inner minuend =>
    generalize hopened : inner ++ [⟨{}, minuend⟩] = all at hs
    cases hs with
    | opening => exact ⟨_, hopened ▸ .nested (_ :: inner), .opening⟩
    | leaf ht => exact ⟨_, hopened ▸ .nested inner, .leaf ht⟩
    | suffix => exact ⟨_, hopened ▸ .nested inner, .suffix⟩
    | minus => exact ⟨_, hopened ▸ .nested inner, .minus⟩
    | bar => exact ⟨_, hopened ▸ .nested inner, .bar⟩
    | closing =>
      cases inner with
      | nil => cases hopened; exact ⟨_, .flat, .closing⟩
      | cons top inner => cases hopened; exact ⟨_, .nested inner, .closing⟩
    | next ht hs =>
      cases hs with
      | opening => exact ⟨_, hopened ▸ .nested (_ :: inner), .next ht .opening⟩
      | leaf hl => exact ⟨_, hopened ▸ .nested inner, .next ht (.leaf hl)⟩

theorem run (h : Frames opened level first second) (hr : Body.Run first tokens last)
    (hl : last.base = {}) :
    ∃ after, Frames opened level last after ∧ Body.Run second tokens after := by
  induction hr generalizing second with
  | nil => exact ⟨second, h, .nil⟩
  | cons hs hr ih =>
    obtain ⟨next, hn, hstep⟩ := h.step hs (hr.base_eq hl)
    obtain ⟨after, ha, hrun⟩ := ih hn hl
    exact ⟨after, ha, .cons hstep hrun⟩

end Body.Frames

/-- An item that is read where nothing has been read yet is read in the same way anywhere. -/
theorem Body.Run.reads {tokens : List Token} {minuend : Option Expression} {operand : Expression}
    {marked : Bool}
    (h : Run ⟨[], {}, .operand none⟩ tokens ⟨[], {}, .item minuend operand marked⟩) :
    Reads .item tokens (endItem minuend operand) := by
  intro opened level
  obtain ⟨after, ha, hr⟩ := (@Frames.flat opened level _).run h rfl
  generalize hlast : (⟨[], {}, .item minuend operand marked⟩ : Body) = last at ha
  cases ha with
  | flat => cases hlast; exact ⟨minuend, operand, marked, rfl, hr⟩
  | nested => simp at hlast

/-! ## A rule of the given tokens -/

theorem Reads.exists_run {tokens : List Token} {e : Expression} (h : Reads .whole tokens e) :
    ∃ last, Body.Run ⟨[], {}, .operand none⟩ tokens last := by
  obtain ⟨level, minuend, operand, marked, -, hr⟩ := h.close []
  exact ⟨_, hr⟩

theorem parse_rule_of_reads {text : String} {tokens : List Token} {e : Expression}
    (hs : Spells false text.toList tokens) (h : Reads .whole tokens e) : ∃ read rule,
      Grammar.parse ("r ::= " ++ text) = .ok read ∧ read.rules = [rule] ∧ rule.expression = e := by
  obtain ⟨entries, hs, rfl⟩ := hs
  obtain ⟨level, minuend, operand, marked, rfl, hr⟩ := h.close []
  have hheaded := headed_of_not_mem hr.not_mem_defining hs.not_mem_head
  exact parse_rule_of_spells hs
    (ofTokens_rule_iff.2 ⟨level, minuend, operand, marked, by rwa [hheaded], rfl⟩)

/-! ## Texts behind each other -/

section Append

variable {glued : Bool} {text more : List Char} {tokens after : List Token}

theorem Spells.append_space (h : Spells glued text tokens) (hu : .unclosed ∉ tokens)
    (hm : Spells false more after) : Spells glued (text ++ ' ' :: more) (tokens ++ after) := by
  obtain ⟨before, hb, rfl⟩ := h
  obtain ⟨entries, hm, rfl⟩ := hm
  refine ⟨before ++ entries, ?_, List.filterMap_append⟩
  exact hb.append rfl (not_mem_entries_unclosed hu) fun _ => .blank rfl hm

theorem Spells.append_bar (h : Spells glued text tokens) (hu : .unclosed ∉ tokens)
    (hm : Spells false more after) :
    Spells glued (text ++ ' ' :: '|' :: ' ' :: more) (tokens ++ .bar :: after) :=
  h.append_space hu (.mark .bar rfl rfl rfl (by decide) rfl (.space hm))

theorem Spells.group (h : Spells true text tokens) (hu : .unclosed ∉ tokens) (glued : Bool) :
    Spells glued ('(' :: (text ++ [')'])) (.opening :: (tokens ++ [.closing])) := by
  obtain ⟨entries, hs, rfl⟩ := h
  refine ⟨_, hs.group (not_mem_entries_unclosed hu) .nil glued, ?_⟩
  simp [Entry.token?]

end Append

/-! ## Items side by side -/

/-- A text that holds a single item, and what it is read as. -/
structure Item where
  text : String
  value : Expression
  reads : itemOf? text = some value

namespace Item

def tokens (item : Item) : List Token := tokensOf item.text

theorem head_not_mem_tokens (item : Item) (name : String) : .symbol name true ∉ item.tokens := by
  obtain ⟨⟨entries, hs, ht⟩, -⟩ := spells_and_run_of_itemOf? item.reads
  rw [tokens, ← ht]
  exact hs.not_mem_head name

theorem tokens_reads (item : Item) : Reads .item item.tokens item.value := by
  obtain ⟨-, minuend, operand, marked, he, hr⟩ := spells_and_run_of_itemOf? item.reads
  have hd : .defining ∉ item.tokens := by
    intro hm
    exact hr.not_mem_defining ((mem_headed_iff (by simp)).2 hm)
  rw [← tokens, headed_of_not_mem hd item.head_not_mem_tokens] at hr
  rw [← he]
  exact hr.reads

theorem spells (item : Item) (glued : Bool) : Spells glued item.text.toList item.tokens := by
  obtain ⟨⟨entries, hs, ht⟩, -⟩ := spells_and_run_of_itemOf? item.reads
  obtain ⟨last, hr⟩ := item.tokens_reads.arm.whole.exists_run
  refine ⟨entries, hs.reglue ?_ glued, ht⟩
  rw [ht]
  exact hr.startsOperand

end Item

/-- The items side by side. -/
def armText (items : List Item) : String := " ".intercalate (items.map Item.text)

def armTokens (items : List Item) : List Token := items.flatMap Item.tokens

def armValue (items : List Item) : Expression := .sequence (items.map Item.value)

/-- The arms with bars between them. -/
def armsText (arms : List (List Item)) : String := " | ".intercalate (arms.map armText)

def armsTokens (arms : List (List Item)) : List Token := [.bar].intercalate (arms.map armTokens)

def armsValue (arms : List (List Item)) : Expression := .choice (arms.map armValue)

section Arms

variable {items : List Item} {arms : List (List Item)}

theorem armTokens_reads (hne : items ≠ []) : Reads .arm (armTokens items) (armValue items) := by
  refine .list hne (fun item _ => item.tokens_reads.arm) ?_
  intro item _ token ht
  cases token with
  | symbol name head =>
    cases head with
    | false => rfl
    | true => exact absurd ht (item.head_not_mem_tokens name)
  | _ => rfl

theorem armText_spells (hne : items ≠ []) (glued : Bool) :
    Spells glued (armText items).toList (armTokens items) := by
  induction items generalizing glued with
  | nil => exact absurd rfl hne
  | cons item items ih =>
    cases items with
    | nil => simpa [armText, armTokens] using item.spells glued
    | cons other items =>
      obtain ⟨last, hr⟩ := item.tokens_reads.arm.whole.exists_run
      have htext : (armText (item :: other :: items)).toList =
          item.text.toList ++ ' ' :: (armText (other :: items)).toList := by
        simp [armText]
      rw [htext, armTokens, List.flatMap_cons]
      exact (item.spells glued).append_space hr.not_mem_unclosed (ih (by simp) false)

theorem armsTokens_reads (hne : arms ≠ []) (ha : ∀ items ∈ arms, items ≠ []) :
    Reads .whole (armsTokens arms) (armsValue arms) := by
  refine .choice hne ?_
  intro items hi
  exact (armTokens_reads (ha items hi)).whole

theorem armsText_spells (hne : arms ≠ []) (ha : ∀ items ∈ arms, items ≠ []) (glued : Bool) :
    Spells glued (armsText arms).toList (armsTokens arms) := by
  induction arms generalizing glued with
  | nil => exact absurd rfl hne
  | cons items arms ih =>
    obtain ⟨hi, ha⟩ := List.forall_mem_cons.1 ha
    cases arms with
    | nil => simpa [armsText, armsTokens] using armText_spells hi glued
    | cons others arms =>
      obtain ⟨last, hr⟩ := (armTokens_reads hi).whole.exists_run
      have htext : (armsText (items :: others :: arms)).toList =
          (armText items).toList ++ ' ' :: '|' :: ' ' :: (armsText (others :: arms)).toList := by
        simp [armsText]
      have htokens : armsTokens (items :: others :: arms) =
          armTokens items ++ .bar :: armsTokens (others :: arms) := by
        simp [armsTokens]
      rw [htext, htokens]
      exact (armText_spells hi glued).append_bar hr.not_mem_unclosed (ih (by simp) ha false)

/-- Items side by side bind tighter than bars: each arm is the sequence of its items, and the whole
is the choice of the arms. In parentheses, it is that choice. -/
theorem Grammar.parse_armsText (hne : arms ≠ []) (ha : ∀ items ∈ arms, items ≠ []) :
    (∃ read rule, Grammar.parse ("r ::= " ++ armsText arms) = .ok read ∧ read.rules = [rule] ∧
      rule.expression = armsValue arms) ∧
    ∃ read rule, Grammar.parse ("r ::= (" ++ armsText arms ++ ")") = .ok read ∧
      read.rules = [rule] ∧ rule.expression = (armsValue arms).parenthesized := by
  have hspells := armsText_spells hne ha
  have hreads := armsTokens_reads hne ha
  refine ⟨parse_rule_of_reads (hspells false) hreads, ?_⟩
  obtain ⟨last, hr⟩ := hreads.exists_run
  have hgroup := (hspells true).group hr.not_mem_unclosed false
  have htext : "r ::= (" ++ armsText arms ++ ")" =
      "r ::= " ++ String.ofList ('(' :: ((armsText arms).toList ++ [')'])) := by
    apply String.toList_injective
    simp
  rw [htext]
  refine parse_rule_of_reads ?_ (hreads.group.suffix .once).item.arm.whole
  rw [String.toList_ofList, Occurrence.tokens, List.append_nil]
  exact hgroup

end Arms

def exceptedChoice : Item where
  text := "a - (b | c)*"
  value := .ofContent (.exception (.ofContent (.symbol "a"))
    ⟨.alternate [.ofContent (.symbol "b"), .ofContent (.symbol "c")], .zeroOrMore, true⟩)
  reads := by with_unfolding_all rfl

def commentedLiteral : Item where
  text := "'|' /* b ::= */ "
  value := .ofContent (.literal "|")
  reads := by with_unfolding_all rfl

def groupedList : Item where
  text := "(d e?)"
  value := ⟨.list [.ofContent (.symbol "d"), ⟨.symbol "e", .optional, false⟩], .once, true⟩
  reads := by with_unfolding_all rfl

def threeItems : List (List Item) := [[exceptedChoice, commentedLiteral], [groupedList]]

theorem Grammar.parse_armsText_threeItems :
    threeItems ≠ [] ∧ (∀ items ∈ threeItems, items ≠ []) ∧
      (∃ read rule, Grammar.parse ("r ::= " ++ armsText threeItems) = .ok read ∧
        read.rules = [rule] ∧ rule.expression = armsValue threeItems) ∧
      ∃ read rule, Grammar.parse ("r ::= (" ++ armsText threeItems ++ ")") = .ok read ∧
        read.rules = [rule] ∧ rule.expression = (armsValue threeItems).parenthesized := by
  have hne : threeItems ≠ [] := by simp [threeItems]
  have ha : ∀ items ∈ threeItems, items ≠ [] := by simp [threeItems]
  exact ⟨hne, ha, Grammar.parse_armsText hne ha⟩

end GrammarText.W3c
