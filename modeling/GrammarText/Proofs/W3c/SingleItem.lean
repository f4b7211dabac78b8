import GrammarText.Proofs.W3c.Items
import GrammarText.Proofs.W3c.Progress

/-!
# Single items in the descent

That a text holds a single item is a property of the bodies that its lexemes lead through. The
program that reads an item finds the same item in it, and leaves nothing of the text.
-/

namespace GrammarText.W3c

variable {rules : List Rule} {rule : RuleContext} {place : Place} {body last : Body}
  {lexemes : List (Lexeme Token)} {minuend : Option Expression} {operand e : Expression}
  {s : Scanner}

/-! ## Steps within a rule -/

theorem State.rules_of_startRule {lexeme : Lexeme Token} {next : State}
    (h : startRule rules lexeme = .ok next) : next.rules = rules := by
  unfold startRule at h
  split at h <;> cases h
  rfl

theorem State.rules_ne_nil_of_step {state next : State} {lexeme : Lexeme Token}
    (hr : state.rules ≠ []) (h : state.step lexeme = .ok next) : next.rules ≠ [] := by
  obtain ⟨rules, place⟩ := state
  cases place with
  | between => rwa [rules_of_startRule h]
  | named rule =>
    simp only [step] at h
    split at h <;> cases h
    exact hr
  | within rule body =>
    simp only [step] at h
    split at h
    · cases h; exact hr
    · simp [rules_of_startRule h]
    · cases h

/-- A rule that is complete stays so. -/
theorem State.rules_ne_nil_of_foldlM {state last : State} (hr : state.rules ≠ [])
    (h : lexemes.foldlM State.step state = .ok last) : last.rules ≠ [] :=
  foldlM_invariant (p := fun state => state.rules ≠ []) (q := fun _ => True)
    (fun hr _ h => rules_ne_nil_of_step hr h) hr (by simp) h

theorem State.foldlM_step_of_goOn? (h : lexemes.foldlM Body.goOn? body = some last) :
    lexemes.foldlM State.step ⟨rules, .within rule body⟩ = .ok ⟨rules, .within rule last⟩ := by
  induction lexemes generalizing body with
  | nil => cases h; rfl
  | cons lexeme lexemes ih =>
    obtain ⟨next, hn, hl⟩ := Option.bind_eq_some_iff.1 h
    have hs := Body.goOn?_eq_some_iff.1 hn
    exact foldlM_cons_eq_ok_iff.2 ⟨_, by simp only [step, hs], ih hl⟩

/-- As long as no rule is complete, every lexeme goes on with the body. -/
theorem State.foldlM_step_eq_ok_iff :
    lexemes.foldlM State.step ⟨[], .within rule body⟩ = .ok ⟨[], place⟩ ↔
      ∃ last, lexemes.foldlM Body.goOn? body = some last ∧ place = .within rule last := by
  constructor
  · intro h
    induction lexemes generalizing body with
    | nil => cases h; exact ⟨body, rfl, rfl⟩
    | cons lexeme lexemes ih =>
      obtain ⟨next, hn, hl⟩ := foldlM_cons_eq_ok_iff.1 h
      simp only [step] at hn
      split at hn
      · next hs =>
        cases hn
        obtain ⟨last, hg, rfl⟩ := ih hl
        exact ⟨last, Option.bind_eq_some_iff.2 ⟨_, Body.goOn?_eq_some_iff.2 hs, hg⟩, rfl⟩
      · have hne : next.rules ≠ [] := by simp [rules_of_startRule hn]
        exact absurd rfl (rules_ne_nil_of_foldlM hne hl)
      · cases hn
  · rintro ⟨last, h, rfl⟩
    exact foldlM_step_of_goOn? h

/-! ## Reading on to the end of an item -/

/-- The item that has been read, if nothing else has been. -/
def State.singleItem? : State → Option Expression
  | ⟨[], .within _ ⟨[], ⟨[], []⟩, .item minuend operand _⟩⟩ => some (endItem minuend operand)
  | _ => none

theorem State.singleItem?_eq_some_iff {state : State} : state.singleItem? = some e ↔
    ∃ rule minuend operand marked, endItem minuend operand = e ∧
      state = ⟨[], .within rule ⟨[], {}, .item minuend operand marked⟩⟩ := by
  constructor
  · intro h
    unfold singleItem? at h
    split at h
    · next rule minuend operand marked =>
      cases h
      exact ⟨rule, minuend, operand, marked, rfl, rfl⟩
    · cases h
  · rintro ⟨rule, minuend, operand, marked, rfl, rfl⟩
    rfl

/-- A right side that must be a single item. -/
def Frame.ofItem : Frame Expression where
  rules := []
  rule := ⟨"", 1⟩
  finish := State.singleItem?
  finish_of_partly h := by
    refine Option.eq_none_iff_forall_ne_some.2 fun e he => ?_
    obtain ⟨_, minuend, operand, marked, -, hs⟩ := State.singleItem?_eq_some_iff.1 he
    cases hs
    cases h
  finish_mark opened level _ _ := by
    obtain ⟨arms, items⟩ := level
    cases opened <;> cases arms <;> cases items <;> rfl

theorem Frame.readOn_ofItem_eq_ok_iff : Frame.ofItem.readOn body s = .ok e ↔
    ∃ comments minuend operand marked,
      (lexemesFrom s.position s.rest).trailing = some comments ∧
      (lexemesFrom s.position s.rest).lexemes.foldlM Body.goOn? body =
        some ⟨[], {}, .item minuend operand marked⟩ ∧ endItem minuend operand = e := by
  rw [readOn, State.readOn, Reader.runOn, bind_eq_ok_iff]
  simp only [Reader.foldlM_advance_eq_ok_iff, Reader.conclude_eq_ok_iff]
  constructor
  · rintro ⟨state, hs, comments, hc, hitem⟩
    obtain ⟨rule, minuend, operand, marked, he, rfl⟩ := State.singleItem?_eq_some_iff.1 hitem
    obtain ⟨last, hl, hp⟩ := State.foldlM_step_eq_ok_iff.1 hs
    cases hp
    exact ⟨comments, minuend, operand, marked, hc, hl, he⟩
  · rintro ⟨comments, minuend, operand, marked, hc, hl, rfl⟩
    exact ⟨_, State.foldlM_step_of_goOn? hl, comments, hc, rfl⟩

theorem itemOf?_eq_some_iff_readOn {text : String} : itemOf? text = some e ↔
    Frame.ofItem.readOn ⟨[], {}, .operand none⟩ (.ofText text) = .ok e := by
  rw [itemOf?_eq_some_iff_goOn?, Frame.readOn_ofItem_eq_ok_iff]
  rfl

/-- What comes after an item and does not except something from it is not of the item. -/
theorem rest_eq_nil_of_readOn (hr : lexicon.Rests s.rest) (hm : minuend = none → Lacks s .minus)
    (h : Frame.ofItem.readOn ⟨[], {}, .item minuend operand true⟩ s = .ok e) : s.rest = [] := by
  by_contra hne
  obtain ⟨c, more, hs⟩ := List.exists_cons_of_ne_nil hne
  obtain ⟨piece, hp⟩ : ∃ piece, Token.readMarked c more = piece := ⟨_, rfl⟩
  obtain ⟨comments, minuend', operand', marked, -, hl, -⟩ := Frame.readOn_ofItem_eq_ok_iff.1 h
  rw [hs] at hr hl
  rw [lexemesFrom_of_rests hr hp] at hl
  cases Body.Run.of_goOn? hl with
  | @cons _ next _ _ _ hstep hrun =>
    have hbase : next.base = {} := hrun.base_eq rfl
    change Body.Step _ piece.token _ at hstep
    generalize ht : piece.token = token at hstep
    cases hstep with
    | minus => exact hm rfl piece ⟨c, more, hs, hp⟩ ht
    | bar => cases hbase
    | next _ hstep => cases hstep <;> cases hbase

/-! ## The program that reads an item -/

/-- A text holds a single item exactly if the descent reads that item and leaves nothing. -/
theorem itemOf?_eq_some_iff {text : String} {fuel : Nat} (hf : byteLength text.toList < fuel) :
    itemOf? text = some e ↔
      Descend.item (Descend.expression fuel) fuel (.ofText text, ()) =
        .ok (e, (Scanner.ofText text).pass text.toList [], ()) := by
  rw [itemOf?_eq_some_iff_readOn]
  have hnested (s : Scanner) (hs : s.left < (Scanner.ofText text).left) :
      Descend.ReadsExpression (Descend.expression fuel) s :=
    Descend.expression_ends (Nat.lt_trans hs hf)
  have hitem := Descend.item_ends hnested (Nat.le_refl _) hf
    (rfl : Frame.ofItem.readOn ⟨[], {}, .operand none⟩ (.ofText text) = _)
  cases hitem with
  | @answered item after left hx ho h =>
    obtain ⟨minuend, operand, -, hr, hm, rfl, hread⟩ := h
    rw [hx, ← hread]
    have hend (he : after.rest = []) :
        Frame.ofItem.readOn ⟨[], {}, .item minuend operand true⟩ after =
          .ok (endItem minuend operand) := State.readOn_of_end he
    constructor
    · intro h
      have he := rest_eq_nil_of_readOn hr hm h
      cases (hend he).symm.trans h
      cases ho.eq_pass_of_rest_eq_nil he
      rfl
    · intro h
      cases h
      exact hend rfl
  | failed hx h =>
    rw [hx, h]
    simp

end GrammarText.W3c
