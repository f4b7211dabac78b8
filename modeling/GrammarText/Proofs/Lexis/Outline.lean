import GrammarText.Lexis.Reader
import GrammarText.Proofs.Lexis.Continuation
import GrammarText.Proofs.Lexis.Spelling

/-!
# Outlines

A scan that knows only comments, passages, names and the defining mark of a notation finds whether a
text ends outside all constructs, and which rules the defining marks of the text introduce.
`Outline.Describes` says how such a scan and the tokens of a lexicon belong together.
-/

namespace GrammarText

/-- What a scan must know of a notation to find where its rules begin. -/
structure Outline where
  comment : List Char → Recognition String
  /-- A construct in which no other mark counts. -/
  passage : List Char → Recognition String
  /-- The name of a rule, or what could be one. -/
  name : List Char → Recognition String
  /-- The mark after the name of a rule. -/
  defining : List Char
  comment_isSplitOf : ∀ text, (comment text).IsSplitOf text
  passage_isSplitOf : ∀ text, (passage text).IsSplitOf text
  name_isSplitOf : ∀ text, (name text).IsSplitOf text
  defining_ne_nil : defining ≠ []

namespace Outline

variable (O : Outline)

/-- Whether a scan from left to right ends outside all comments and passages. -/
def endsOutside (text : List Char) : Bool :=
  match text with
  | [] => true
  | c :: more =>
    match _hc : O.comment (c :: more) with
    | .found _ _ rest => endsOutside rest
    | .unclosed _ _ => false
    | .absent =>
      match _hp : O.passage (c :: more) with
      | .found _ _ rest => endsOutside rest
      | .unclosed _ _ => false
      | .absent => endsOutside more
termination_by text.length
decreasing_by
  · exact (O.comment_isSplitOf _).length_lt _hc
  · exact (O.passage_isSplitOf _).length_lt _hp
  · simp

/-- The rules that the defining marks of a text introduce, one for each mark outside comments and
passages. `before` is the text that has been passed, and `last` the name with nothing but blanks and
comments between it and the text. -/
def heads (before : List Char) (last : Option RuleContext) (text : List Char) :
    List (Option RuleContext) :=
  match text with
  | [] => []
  | c :: more =>
    match _hc : O.comment (c :: more) with
    | .found _ source rest => heads (before ++ source) last rest
    | .unclosed _ _ => []
    | .absent =>
      match _hp : O.passage (c :: more) with
      | .found _ source rest => heads (before ++ source) none rest
      | .unclosed _ _ => []
      | .absent =>
        match _hn : O.name (c :: more) with
        | .found name source rest =>
          heads (before ++ source) (some ⟨name, 1 + lineFeeds before⟩) rest
        | _ =>
          match _hm : afterMark? O.defining (c :: more) with
          | some rest => last :: heads (before ++ O.defining) none rest
          | none => heads (before ++ [c]) (if isBlank c then last else none) more
termination_by text.length
decreasing_by
  · exact (O.comment_isSplitOf _).length_lt _hc
  · exact (O.passage_isSplitOf _).length_lt _hp
  · exact (O.name_isSplitOf _).length_lt _hn
  · have hl := congrArg List.length (eq_append_of_afterMark? _hm)
    have hd := List.length_pos_iff.2 O.defining_ne_nil
    rw [List.length_append] at hl
    omega
  · simp

/-- The character starts neither a comment nor a passage. -/
def Inert (c : Char) : Prop :=
  ∀ more, O.comment (c :: more) = .absent ∧ O.passage (c :: more) = .absent

/-- The character is nothing to the scan, unless it is a blank. -/
def Skips (c : Char) : Prop :=
  O.Inert c ∧ ∀ more, O.name (c :: more) = .absent ∧ afterMark? O.defining (c :: more) = none

variable {O} {c : Char} {before text more source rest : List Char} {last : Option RuleContext}

/-! ## One construct -/

theorem endsOutside_cons (c : Char) (more : List Char) : O.endsOutside (c :: more) =
    match O.comment (c :: more) with
    | .found _ _ rest => O.endsOutside rest
    | .unclosed _ _ => false
    | .absent =>
      match O.passage (c :: more) with
      | .found _ _ rest => O.endsOutside rest
      | .unclosed _ _ => false
      | .absent => O.endsOutside more := by
  rw [endsOutside]
  cases O.comment (c :: more) with
  | absent => cases O.passage (c :: more) <;> rfl
  | _ => rfl

theorem heads_cons (c : Char) (more : List Char) : O.heads before last (c :: more) =
    match O.comment (c :: more) with
    | .found _ source rest => O.heads (before ++ source) last rest
    | .unclosed _ _ => []
    | .absent =>
      match O.passage (c :: more) with
      | .found _ source rest => O.heads (before ++ source) none rest
      | .unclosed _ _ => []
      | .absent =>
        match O.name (c :: more) with
        | .found name source rest =>
          O.heads (before ++ source) (some ⟨name, 1 + lineFeeds before⟩) rest
        | _ =>
          match afterMark? O.defining (c :: more) with
          | some rest => last :: O.heads (before ++ O.defining) none rest
          | none => O.heads (before ++ [c]) (if isBlank c then last else none) more := by
  rw [heads]
  cases O.comment (c :: more) with
  | absent =>
    cases O.passage (c :: more) with
    | absent =>
      cases O.name (c :: more) with
      | found => rfl
      | _ => cases afterMark? O.defining (c :: more) <;> rfl
    | _ => rfl
  | _ => rfl

theorem endsOutside_append (h : ∀ c ∈ source, O.Inert c) :
    O.endsOutside (source ++ rest) = O.endsOutside rest := by
  induction source with
  | nil => rfl
  | cons c source ih =>
    obtain ⟨hc, hs⟩ := List.forall_mem_cons.1 h
    obtain ⟨hcomment, hpassage⟩ := hc (source ++ rest)
    rw [List.cons_append, endsOutside_cons, hcomment, hpassage]
    exact ih hs

theorem heads_skip (hc : O.Skips c) : O.heads before last (c :: more) =
    O.heads (before ++ [c]) (if isBlank c then last else none) more := by
  obtain ⟨hcomment, hpassage⟩ := hc.1 more
  obtain ⟨hname, hmark⟩ := hc.2 more
  rw [heads_cons, hcomment, hpassage, hname, hmark]

theorem heads_append (h : ∀ c ∈ source, O.Skips c) :
    O.heads before none (source ++ rest) = O.heads (before ++ source) none rest := by
  induction source generalizing before with
  | nil => simp
  | cons c source ih =>
    obtain ⟨hc, hs⟩ := List.forall_mem_cons.1 h
    rw [List.cons_append, heads_skip hc, ite_self, ih hs, List.append_assoc, List.singleton_append]

end Outline

/-! ## Tokens in an outline -/

/-- What a token is to a scan. -/
inductive Role where
  | name (text : String)
  | defining
  /-- A passage that never ends. -/
  | unclosed
  | other

namespace Role

/-- The head that a token adds, after the name `last`. -/
def heads (last : Option RuleContext) : Role → List (Option RuleContext)
  | defining => [last]
  | _ => []

/-- The name that a token on the given line leaves for a defining mark after it. -/
def last (line : Nat) : Role → Option RuleContext
  | name text => some ⟨text, line⟩
  | _ => none

end Role

/-- The rules that the defining marks among tokens introduce. Each token stands with its line. -/
def headsOf (last : Option RuleContext) : List (Nat × Role) → List (Option RuleContext)
  | [] => []
  | (line, role) :: more => role.heads last ++ headsOf (role.last line) more

/-- How a scan passes the token at the start of a text, outside comments. -/
inductive Outline.Passes (O : Outline) : Role → List Char → List Char → List Char → Prop where
  | passage {text value source rest} (hp : O.passage text = .found value source rest) :
      Passes O .other text source rest
  | unclosed {text source rest source' rest'} (hp : O.passage text = .unclosed source' rest') :
      Passes O .unclosed text source rest
  | name {text name source rest} (hp : O.passage text = .absent)
      (hn : O.name text = .found name source rest) (hs : ∀ c ∈ source, O.Inert c) :
      Passes O (.name name) text source rest
  | defining {rest} (hp : O.passage (O.defining ++ rest) = .absent)
      (hn : O.name (O.defining ++ rest) = .absent) (hs : ∀ c ∈ O.defining, O.Inert c) :
      Passes O .defining (O.defining ++ rest) O.defining rest
  | other {c tail rest} (hp : O.passage (c :: tail ++ rest) = .absent)
      (hn : O.name (c :: tail ++ rest) = .absent)
      (hd : afterMark? O.defining (c :: tail ++ rest) = none) (hs : ∀ c ∈ tail, O.Skips c) :
      Passes O .other (c :: tail ++ rest) (c :: tail) rest

/-- The scan and the lexicon agree on comments, and the scan passes every token. -/
structure Outline.Describes {Token : Type} (O : Outline) (L : Lexicon Token) (role : Token → Role) :
    Prop where
  comment : L.comment = O.comment
  blank : ∀ c, isBlank c = true → O.Skips c
  token : ∀ c more, isBlank c = false → O.comment (c :: more) = .absent →
    O.Passes (role (L.token c more).token) (c :: more) (L.token c more).source (L.token c more).rest

namespace Outline

variable {O : Outline} {Token : Type} {L : Lexicon Token} {role : Token → Role} {r : Role}
  {c : Char} {before text more source rest : List Char} {last : Option RuleContext} {glued : Bool}

theorem Passes.endsOutside (h : O.Passes r (c :: more) source rest)
    (hc : O.comment (c :: more) = .absent) (ho : O.endsOutside (c :: more) = true) :
    r ≠ .unclosed ∧ O.endsOutside rest = true := by
  generalize ht : c :: more = text at h hc ho
  cases h with
  | passage hp =>
    subst ht
    rw [endsOutside_cons, hc, hp] at ho
    exact ⟨by simp, ho⟩
  | unclosed hp =>
    subst ht
    rw [endsOutside_cons, hc, hp] at ho
    cases ho
  | name hp hn hs =>
    obtain ⟨rfl, -⟩ := (O.name_isSplitOf _).of_found hn
    rw [endsOutside_append hs] at ho
    exact ⟨by simp, ho⟩
  | defining hp hn hs =>
    rw [endsOutside_append hs] at ho
    exact ⟨by simp, ho⟩
  | other hp hn hd hs =>
    cases ht
    rw [List.cons_append, endsOutside_cons] at ho
    rw [List.cons_append] at hc hp
    rw [hc, hp] at ho
    exact ⟨by simp, by rwa [← endsOutside_append fun c hc => (hs c hc).1]⟩

theorem Passes.heads (h : O.Passes r (c :: more) source rest) (hb : isBlank c = false)
    (hc : O.comment (c :: more) = .absent) (hr : r ≠ .unclosed) : O.heads before last (c :: more) =
      r.heads last ++ O.heads (before ++ source) (r.last (1 + lineFeeds before)) rest := by
  generalize ht : c :: more = text at h hc
  cases h with
  | passage hp =>
    subst ht
    rw [heads_cons, hc, hp]
    rfl
  | unclosed => exact absurd rfl hr
  | name hp hn =>
    subst ht
    rw [heads_cons, hc, hp, hn]
    rfl
  | defining hp hn =>
    have hm := afterMark?_self_append O.defining rest
    rw [← ht] at hc hp hn hm ⊢
    rw [heads_cons, hc, hp, hn, hm]
    rfl
  | other hp hn hd hs =>
    cases ht
    rw [List.cons_append] at hc hp hn hd ⊢
    rw [heads_cons, hc, hp, hn, hd]
    simp only [hb, Bool.false_eq_true, if_false]
    rw [heads_append hs, List.append_assoc, List.singleton_append]
    rfl

/-- A scan finds the heads of rules that are among the tokens. -/
theorem Describes.heads_eq (hO : O.Describes L role) {t : Transcript (Nat × Role)}
    (ht : L.transcript (fun _ start token => (start.line, role token)) glued
      (Position.start.advance before) text = t)
    (hc : t.closed = true) (hu : ∀ value ∈ t.tokens, value.2 ≠ .unclosed) :
    O.heads before last text = headsOf last t.tokens := by
  subst ht
  generalize hp : Position.start.advance before = place at hc hu ⊢
  fun_induction L.transcript (fun _ start token => (start.line, role token)) glued place text
    generalizing before last with
  | case1 => simp [Transcript.tokens, headsOf, heads]
  | case2 glued place c more hb ih =>
    rw [heads_skip (hO.blank c hb), if_pos hb]
    exact ih (by rw [Position.advance_append, hp]) hc hu
  | case3 glued place c more hb body source rest hr ih =>
    rw [hO.comment] at hr
    rw [heads_cons, hr, Transcript.tokens_prepend_comment]
    exact ih (by rw [Position.advance_append, hp]) hc hu
  | case4 => cases hc
  | case5 glued place c more hb hr piece =>
    rename_i ih
    rw [hO.comment] at hr
    have hpasses := hO.token c more (by simpa using hb) hr
    rw [Transcript.tokens_prepend_token] at hu ⊢
    obtain ⟨hrole, hu⟩ := List.forall_mem_cons.1 hu
    have hplace : Position.start.advance (before ++ piece.source) = place.advance piece.source := by
      rw [Position.advance_append, hp]
    have hline : place.line = 1 + lineFeeds before := by rw [← hp]; rfl
    rw [hpasses.heads (by simpa using hb) hr hrole, headsOf, hline, ih hplace hc hu]

/-- A text in which a scan ends outside spells something, and all its passages end. -/
theorem Describes.exists_spells (hO : O.Describes L role) (glued : Bool)
    (h : O.endsOutside text = true) :
    ∃ entries, L.Spells (fun _ token => token) glued text entries ∧
      ∀ token ∈ entries.filterMap Entry.token?, role token ≠ .unclosed := by
  -- The scan takes a token one character at a time, so its own recursion is too fine here.
  induction hn : text.length using Nat.strong_induction_on generalizing text glued with
  | _ n ih =>
    subst hn
    cases text with
    | nil => exact ⟨[], .nil, by simp⟩
    | cons c more =>
      by_cases hb : isBlank c = true
      · obtain ⟨hcomment, hpassage⟩ := (hO.blank c hb).1 more
        rw [endsOutside_cons, hcomment, hpassage] at h
        obtain ⟨entries, hs, hu⟩ := ih more.length (by simp) false h rfl
        exact ⟨entries, .blank hb hs, hu⟩
      · rw [Bool.not_eq_true] at hb
        cases hc : O.comment (c :: more) with
        | found body source rest =>
          rw [endsOutside_cons, hc] at h
          have hl := (O.comment_isSplitOf _).length_lt hc
          rw [← hO.comment] at hc
          obtain ⟨entries, hs, hu⟩ := ih rest.length hl false h rfl
          exact ⟨_, .comment hb hc hs, hu⟩
        | unclosed source rest =>
          rw [endsOutside_cons, hc] at h
          cases h
        | absent =>
          obtain ⟨hrole, hrest⟩ := (hO.token c more hb hc).endsOutside hc h
          rw [← hO.comment] at hc
          obtain ⟨entries, hs, hu⟩ := ih _ (L.token_isSplitOf c more).length_lt true hrest rfl
          exact ⟨_, .token hb hc rfl hs, List.forall_mem_cons.2 ⟨hrole, hu⟩⟩

end Outline

end GrammarText
