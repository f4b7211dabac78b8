import GrammarText.Dialect
import GrammarText.Proofs.Iso.Outline
import GrammarText.Proofs.W3c.Mentions
import GrammarText.Proofs.W3c.Outline

/-!
# Heads of rules

The rules of a grammar are those that the defining marks of its text introduce, each on the line of
its name. While a text is read, a rule has begun as soon as its defining mark has been read.
-/

namespace GrammarText

/-! ## Runs -/

/-- The rules that have begun, and the rule of which only the name has been read. -/
structure Heads where
  begun : List RuleContext
  named : Option RuleContext

/-- What a token on the given line does to the heads that have been read. -/
inductive Heads.Step (line : Nat) : Heads → Role → Heads → Prop where
  | name {begun text} : Step line ⟨begun, none⟩ (.name text) ⟨begun, some ⟨text, line⟩⟩
  | defining {begun rule} : Step line ⟨begun, some rule⟩ .defining ⟨begun ++ [rule], none⟩
  | inside {begun role} (hu : role ≠ .unclosed) (hd : role ≠ .defining) :
      Step line ⟨begun, none⟩ role ⟨begun, none⟩

section Step

variable {line : Nat} {role : Role} {heads next : Heads} {last : Option RuleContext}

theorem Heads.Step.ne_unclosed (h : Step line heads role next) : role ≠ .unclosed := by
  cases h with
  | inside hu => exact hu
  | _ => simp

theorem Heads.Step.begun (h : Step line heads role next)
    (hl : ∀ rule ∈ heads.named, last = some rule) :
    next.begun.map some = heads.begun.map some ++ role.heads last := by
  cases h with
  | name => simp [Role.heads]
  | defining => simp [Role.heads, hl]
  | inside _ hd => cases role <;> simp_all [Role.heads]

theorem Heads.Step.named (h : Step line heads role next) :
    ∀ rule ∈ next.named, role.last line = some rule := by
  cases h <;> simp [Role.last]

/-- The lines of all names that have been read at the head of a rule. -/
def Heads.lines (heads : Heads) : List Nat :=
  (heads.begun ++ heads.named.toList).map RuleContext.line

theorem Heads.Step.lines (h : Step line heads role next) :
    next.lines.Sublist (heads.lines ++ [line]) := by
  cases h <;> simp [Heads.lines]

end Step

section Runs

variable {Token State Result : Type}

/-- What a scan for heads must know of a lexeme. -/
def Lexeme.mark (role : Token → Role) (lexeme : Lexeme Token) : Nat × Role :=
  (lexeme.start.line, role lexeme.token)

/-- How the state of a reader tells which heads have been read. -/
structure Reader.HeadTracking (R : Reader Token State Result) (role : Token → Role) where
  heads : State → Heads
  /-- The rules of a result. -/
  rules : Result → List RuleContext
  initial : heads R.initial = ⟨[], none⟩
  step : ∀ {state lexeme next}, R.step state lexeme = .ok next →
    (heads state).Step lexeme.start.line (role lexeme.token) (heads next)
  finish : ∀ {state comments result}, R.finish state comments = some result →
    (heads state).begun = rules result

namespace Reader.HeadTracking

variable {R : Reader Token State Result} {role : Token → Role} (H : R.HeadTracking role)
  {lexemes : List (Lexeme Token)} {state final : State} {last : Option RuleContext}

theorem begun_run (hl : ∀ rule ∈ (H.heads state).named, last = some rule)
    (h : lexemes.foldlM R.step state = .ok final) : (H.heads final).begun.map some =
      (H.heads state).begun.map some ++ headsOf last (lexemes.map (Lexeme.mark role)) := by
  induction lexemes generalizing state last with
  | nil => cases h; simp [headsOf]
  | cons lexeme lexemes ih =>
    obtain ⟨next, hn, hr⟩ := foldlM_cons_eq_ok_iff.1 h
    rw [ih (H.step hn).named hr, (H.step hn).begun hl, List.append_assoc]
    rfl

theorem lines_run (h : lexemes.foldlM R.step state = .ok final) : (H.heads final).lines.Sublist
    ((H.heads state).lines ++ lexemes.map fun lexeme => lexeme.start.line) := by
  induction lexemes generalizing state with
  | nil => cases h; simp
  | cons lexeme lexemes ih =>
    obtain ⟨next, hn, hr⟩ := foldlM_cons_eq_ok_iff.1 h
    have hs := (ih hr).trans ((H.step hn).lines.append_right _)
    rwa [List.append_assoc] at hs

/-- The rules of a result stand on the lines of some of its lexemes, in their order. -/
theorem lines_of_run {lexed : Lexed Token} {result : Result} (h : R.run lexed = .ok result) :
    ((H.rules result).map RuleContext.line).Sublist
      (lexed.lexemes.map fun lexeme => lexeme.start.line) := by
  obtain ⟨final, comments, hs, -, hf⟩ := R.exists_state_of_run h
  have hl := H.lines_run hs
  rw [H.initial] at hl
  refine .trans ?_ hl
  rw [← H.finish hf, Heads.lines, List.map_append]
  exact List.sublist_append_left _ _

/-- The rules of a result are those that a scan of the text finds. -/
theorem rules_of_run {L : Lexicon Token} {O : Outline} (hO : O.Describes L role)
    {text : List Char} {lexed : Lexed Token} {result : Result} (h : R.run lexed = .ok result)
    (hlexemes : lexed.lexemes.map (Lexeme.mark role) =
      (L.read text).lexemes.map (Lexeme.mark role))
    (htrailing : lexed.trailing = (L.read text).trailing) :
    (H.rules result).map some = O.heads [] none text := by
  obtain ⟨state, comments, hs, hc, hresult⟩ := R.exists_state_of_run h
  -- The transcript lists the tokens as the scan comes upon them and as the reader takes them.
  have htokens : (L.transcript (fun _ start token => (start.line, role token)) true .start
      text).tokens = lexed.lexemes.map (Lexeme.mark role) := by
    rw [hlexemes, Lexicon.tokens_transcript]
    rfl
  have hscan : O.heads [] none text = headsOf none (lexed.lexemes.map (Lexeme.mark role)) := by
    rw [← htokens]
    refine hO.heads_eq rfl ?_ ?_
    · exact Lexicon.closed_transcript.trans (by rw [← Lexicon.read, ← htrailing, hc]; rfl)
    · rw [htokens]
      exact List.forall_mem_map.2
        (forall_mem_of_foldlM hs fun _ _ _ hn => (H.step hn).ne_unclosed)
  have hnamed : ∀ rule ∈ (H.heads R.initial).named, none = some rule := by simp [H.initial]
  rw [← H.finish hresult, H.begun_run hnamed hs, H.initial, hscan]
  rfl

end Reader.HeadTracking

end Runs

/-! ## ISO -/

namespace Iso

def Rule.head (rule : Rule) : RuleContext := ⟨rule.name, rule.line⟩

@[simp] theorem Rule.head_mk (rule : RuleContext) (comments : List String)
    (definitions : DefinitionsList) :
    head ⟨rule.name, rule.line, comments, definitions⟩ = rule := rfl

def State.heads (state : State) : Heads :=
  match state.place with
  | .between => ⟨(state.rules.map Rule.head).reverse, none⟩
  | .named rule => ⟨(state.rules.map Rule.head).reverse, some rule⟩
  | .within rule _ _ => ⟨(state.rules.map Rule.head).reverse ++ [rule], none⟩

theorem Token.role_ne_unclosed {token : Token} (h : token.isKnown = true) :
    token.role ≠ .unclosed := by
  cases token <;> simp_all [role, isKnown]

theorem Token.role_ne_defining {token : Token} (h : token ≠ .defining) :
    token.role ≠ .defining := by
  cases token <;> simp_all [role]

theorem Body.Step.ne_defining {body : Body} {comments left : List String} {token : Token}
    {progress : Progress} (h : Body.Step body comments token left progress) :
    token ≠ .defining := by
  induction h with
  | leaf ht => rintro rfl; cases ht
  | empty _ ih => exact ih
  | _ => simp

theorem Body.Step.inside {body : Body} {comments left : List String} {token : Token}
    {progress : Progress} (h : Body.Step body comments token left progress) (line : Nat)
    (begun : List RuleContext) : Heads.Step line ⟨begun, none⟩ token.role ⟨begun, none⟩ :=
  .inside (Token.role_ne_unclosed h.isKnown) (Token.role_ne_defining h.ne_defining)

theorem State.heads_step {state next : State} {lexeme : Lexeme Token}
    (h : state.step lexeme = .ok next) :
    state.heads.Step lexeme.start.line lexeme.token.role next.heads := by
  obtain ⟨rules, pending, place⟩ := state
  obtain ⟨comments, glued, start, token⟩ := lexeme
  cases place with
  | between => cases token <;> cases h; exact .name
  | named rule => cases token <;> cases h; exact .defining
  | within rule _ body =>
    simp only [step] at h
    split at h
    · next hs => cases h; exact (Body.Step.of_step hs).inside _ _
    · next hs =>
      cases h
      simpa [heads] using (Body.Step.of_step hs).inside start.line _
    · cases h

def headTracking : reader.HeadTracking Token.role where
  heads := State.heads
  rules grammar := grammar.rules.map Rule.head
  initial := rfl
  step := State.heads_step
  finish h := by
    obtain ⟨hp, -, rfl⟩ := State.finish_eq_some_iff.1 h
    simp [State.heads, hp]

end Iso

/-! ## W3C -/

namespace W3c

def Rule.head (rule : Rule) : RuleContext := ⟨rule.symbol, rule.line⟩

@[simp] theorem Rule.head_mk (rule : RuleContext) (expression : Expression) :
    head ⟨rule.name, rule.line, expression⟩ = rule := rfl

def State.heads (state : State) : Heads :=
  match state.place with
  | .between => ⟨(state.rules.map Rule.head).reverse, none⟩
  | .named rule => ⟨(state.rules.map Rule.head).reverse, some rule⟩
  | .within rule _ => ⟨(state.rules.map Rule.head).reverse ++ [rule], none⟩

theorem Token.role_seen (glued : Bool) (token : Token) : (token.seen glued).role = token.role := by
  cases glued <;> cases token <;> rfl

theorem Body.Step.inside {body : Body} {token : Token} {progress : Progress}
    (h : Body.Step body token progress) (line : Nat) (begun : List RuleContext) :
    Heads.Step line ⟨begun, none⟩ token.role ⟨begun, none⟩ := by
  have hd := h.ne_defining
  have hu := h.ne_unclosed
  cases token <;> simp_all [Token.role] <;> exact .inside (by simp) (by simp)

theorem State.heads_step {state next : State} {lexeme : Lexeme Token}
    (h : state.step lexeme = .ok next) :
    state.heads.Step lexeme.start.line lexeme.token.role next.heads := by
  obtain ⟨rules, place⟩ := state
  obtain ⟨comments, glued, start, token⟩ := lexeme
  cases place with
  | between => cases token <;> cases h; exact .name
  | named rule => cases token <;> cases h; exact .defining
  | within rule body =>
    simp only [step] at h
    rw [← Body.step_seen] at h
    split at h
    · next hs =>
      cases h
      have hi := (Body.Step.of_step hs).inside start.line ((rules.map Rule.head).reverse ++ [rule])
      rwa [Token.role_seen] at hi
    · cases token <;> cases h
      simpa [heads, Token.role] using Heads.Step.name
    · cases h

theorem State.heads_of_finish {state : State} {grammar : Grammar}
    (h : state.finish = some grammar) : state.heads.begun = grammar.rules.map Rule.head := by
  have he := Ended.of_finish h
  rw [← List.reverse_reverse grammar.rules]
  generalize grammar.rules.reverse = rules at he
  cases he <;> simp [heads]

def headTracking : reader.HeadTracking Token.role where
  heads := State.heads
  rules grammar := grammar.rules.map Rule.head
  initial := rfl
  step := State.heads_step
  finish := State.heads_of_finish

theorem map_mark_markHeads (lexemes : List (Lexeme Token)) :
    (markHeads lexemes).map (Lexeme.mark Token.role) = lexemes.map (Lexeme.mark Token.role) :=
  map_markHeads_of (fun _ _ _ _ ht => by simp [Lexeme.mark, ht, Token.role]) lexemes

end W3c

/-! ## Either notation -/

/-- What a scan must know of the notation. -/
def Dialect.outline : Dialect → Outline
  | iso => Iso.outline
  | w3c => W3c.outline

namespace Grammar

/-- The name and the line of each rule. -/
def heads : Grammar → List RuleContext
  | iso grammar => grammar.rules.map Iso.Rule.head
  | w3c grammar => grammar.rules.map W3c.Rule.head

/-- Every defining mark outside comments, terminals and special sequences introduces one rule: the
one named by what stands before the mark, on the line where the name starts. -/
theorem heads_of_parse {dialect : Dialect} {text : String} {grammar : Grammar}
    (h : parse dialect text = .ok grammar) :
    grammar.heads.map some = dialect.outline.heads [] none text.toList := by
  cases dialect with
  | iso =>
    cases hr : Iso.Grammar.parse text with
    | error d => simp [parse, hr, Except.map] at h
    | ok read =>
      rw [parse, hr] at h
      cases h
      exact Iso.headTracking.rules_of_run Iso.outline_describes hr rfl rfl
  | w3c =>
    cases hr : W3c.Grammar.parse text with
    | error d => simp [parse, hr, Except.map] at h
    | ok read =>
      rw [parse, hr] at h
      cases h
      exact W3c.headTracking.rules_of_run W3c.outline_describes hr (W3c.map_mark_markHeads _) rfl

def overLines : Grammar :=
  .w3c ⟨[⟨"s", 1, .ofContent (.list [.ofContent (.symbol "x"), .ofContent (.literal "a\n::="),
      .ofContent (.symbol "y")])⟩,
    ⟨"t", 3, .ofContent (.symbol "x")⟩]⟩

theorem parse_overLines :
    parse .w3c "s ::= x 'a\n::=' y\n/* z ::= */ t /*\n*/ ::= x" = .ok overLines := by
  with_unfolding_all rfl

def overComments : Grammar :=
  .iso ⟨[⟨"ab", 1, ["="], [[⟨.ofPrimary (.terminal "= ;"), none⟩]]⟩,
    ⟨"c", 3, [], [[⟨.ofPrimary (.special "d ="), none⟩]]⟩], []⟩

theorem parse_overComments :
    parse .iso "a b(* = *)= '= ;' ;\n\nc\n= ? d = ? ." = .ok overComments := by
  with_unfolding_all rfl

theorem heads_of_parse_overLines :
    (parse .w3c "s ::= x 'a\n::=' y\n/* z ::= */ t /*\n*/ ::= x" = .ok overLines ∧
      overLines.heads.map some =
        W3c.outline.heads [] none "s ::= x 'a\n::=' y\n/* z ::= */ t /*\n*/ ::= x".toList) ∧
    parse .iso "a b(* = *)= '= ;' ;\n\nc\n= ? d = ? ." = .ok overComments ∧
      overComments.heads.map some =
        Iso.outline.heads [] none "a b(* = *)= '= ;' ;\n\nc\n= ? d = ? .".toList :=
  ⟨⟨parse_overLines, heads_of_parse parse_overLines⟩,
    parse_overComments, heads_of_parse parse_overComments⟩

end Grammar

end GrammarText
