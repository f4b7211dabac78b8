import GrammarText.Proofs.Lexis.Continuation
import GrammarText.Proofs.Scanner

/-!
# Descents

A descent reads a text from left to right with a scanner. Its loops and its calls into the parts of
a text take fuel, and they are watched: a round of a loop that passes nothing and a call that has no
less text left than the call around it stop everything. `Descent.Ends` says that neither comes
about.
-/

namespace GrammarText

/-- Why a descent stops without an answer. -/
inductive Halt where
  | fault (d : Diagnostic)
  /-- There is not fuel enough for the rounds and calls. -/
  | exhausted
  /-- A round of a loop has passed nothing, or a call has been made with no less text left. -/
  | stalled

/-- A program for a scanner, which may keep something else as well. -/
abbrev Descent (κ α : Type) := StateT (Scanner × κ) (Except Halt) α

/-- What a round of a loop comes to. -/
inductive Round (α β : Type) where
  | again (next : α)
  | leave (answer : β)

/-- The one property holds of what the next round is given, or the other holds of the answer. -/
def Round.Holds {α β : Type} (again : α → Prop) (leave : β → Prop) : Round α β → Prop
  | .again next => again next
  | .leave answer => leave answer

/-- The number of bytes that are left of the text. -/
def Scanner.left (s : Scanner) : Nat := byteLength s.rest

namespace Descent

variable {κ α β : Type}

/-! ## Programs -/

def halt (reason : Halt) : Descent κ α := fun _ => .error reason

/-- Tells where the scanner stands. -/
def scanner : Descent κ Scanner := fun (s, kept) => .ok (s, s, kept)

/-- Does something with the scanner that finds no fault. -/
def act (f : Scanner → α × Scanner) : Descent κ α := fun (s, kept) => .ok ((f s).1, (f s).2, kept)

/-- Does something with the scanner that may find a fault. -/
def attempt (f : Scanner → Except Diagnostic α × Scanner) : Descent κ α := fun (s, kept) =>
  match f s with
  | (.ok a, after) => .ok (a, after, kept)
  | (.error d, _) => .error (.fault d)

/-- Passes a construct and goes on with its value; if there is none, does something else. -/
def read (recogniser : List Char → Recognition α) (next : α → Descent κ β)
    (otherwise : Descent κ β) : Descent κ β := do
  match ← attempt (·.recognise recogniser) with
  | some value => next value
  | none => otherwise

def skipBlanks : Descent κ Unit := act fun s => ((), s.skipBlanks)

/-- Stops with a fault. -/
def fail (fault : Scanner → Diagnostic) : Descent κ α := fun (s, _) => .error (.fault (fault s))

/-- Does one thing after the other until one says yes. -/
def anyOf : List (Descent κ Bool) → Descent κ Bool
  | [] => pure false
  | x :: more => do
    if ← x then pure true else anyOf more

/-- Passes one of some marks, and tells whether one of them was there. -/
def eatOne (marks : List (List Char)) : Descent κ Bool :=
  anyOf (marks.map fun mark => act (·.eat mark))

/-- Passes one of some marks; that none of them comes next is a fault. -/
def require (marks : List (List Char)) (fault : Fault) : Descent κ Unit := do
  if ← eatOne marks then pure () else fail (·.expected fault)

/-- Does something and returns. -/
def speculate (x : Descent κ α) : Descent κ α := fun c =>
  match x c with
  | .ok (a, _) => .ok (a, c)
  | .error reason => .error reason

/-- Tells whether something can be done without a fault. -/
def succeeds (x : Descent κ α) : Descent κ Bool := fun c =>
  match x c with
  | .ok (_, after) => .ok (true, after)
  | .error (.fault _) => .ok (false, c)
  | .error reason => .error reason

/-- Names the rule in which a fault lies. -/
def inRule (rule : RuleContext) (x : Descent κ α) : Descent κ α := fun c =>
  match x c with
  | .error (.fault d) => .error (.fault (d.inRule rule))
  | answer => answer

/-- Does one round after the other, as long as each passes something. -/
def loop (round : α → Descent κ (Round α β)) : Nat → α → Descent κ β
  | 0, _ => halt .exhausted
  | fuel + 1, a => fun c =>
    match round a c with
    | .ok (.leave b, after) => .ok (b, after)
    | .ok (.again next, after) =>
      if after.1.left < c.1.left then loop round fuel next after else .error .stalled
    | .error reason => .error reason

/-- Makes a call, if there is less text left than at `start`. -/
def beyond (start : Scanner) (call : Descent κ α) : Descent κ α := fun c =>
  if c.1.left < start.left then call c else .error .stalled

example (kept : κ) : loop (fun _ => pure (.again ())) 7 () (.ofText "a", kept) =
    (.error .stalled : Except Halt (Unit × Scanner × κ)) := rfl

end Descent

theorem afterMark?_isSome_iff {mark text : List Char} :
    (afterMark? mark text).isSome = true ↔ mark <+: text := by
  rw [Option.isSome_iff_exists]
  constructor
  · rintro ⟨rest, h⟩
    exact ⟨rest, (eq_append_of_afterMark? h).symm⟩
  · rintro ⟨rest, rfl⟩
    exact ⟨rest, afterMark?_self_append mark rest⟩

/-! ## Ends -/

namespace Scanner.Passes

variable {s after last : Scanner} {source more : List Char}

theorem trans (h : s.Passes source after) (hm : after.Passes more last) :
    s.Passes (source ++ more) last where
  text := hm.text.trans h.text
  rest := by rw [h.rest, hm.rest, List.append_assoc]
  position := by rw [hm.position, h.position, Position.advance_append]

theorem left_eq (h : s.Passes source after) : s.left = byteLength source + after.left := by
  rw [left, h.rest, byteLength_append, left]

theorem left_lt (h : s.Passes source after) (hs : source ≠ []) : after.left < s.left := by
  have := byteLength_pos hs
  have := h.left_eq
  omega

end Scanner.Passes

/-- The scanner has moved from one place to a place that is not before it. -/
def Scanner.Onward (s after : Scanner) : Prop := ∃ source, s.Passes source after

namespace Scanner.Onward

variable {s after last : Scanner}

theorem refl (s : Scanner) : s.Onward s := ⟨[], .refl s⟩

theorem trans (h : s.Onward after) (hm : after.Onward last) : s.Onward last :=
  let ⟨_, h⟩ := h
  let ⟨_, hm⟩ := hm
  ⟨_, h.trans hm⟩

theorem left_le (h : s.Onward after) : after.left ≤ s.left := by
  obtain ⟨source, h⟩ := h
  have := h.left_eq
  omega

theorem eq_pass_of_rest_eq_nil (h : s.Onward after) (hr : after.rest = []) :
    after = s.pass s.rest [] := by
  obtain ⟨source, hp⟩ := h
  have hs : s.rest = source := by rw [hp.rest, hr, List.append_nil]
  obtain ⟨text, rest, position⟩ := after
  cases hr
  cases hp.text
  cases hp.position
  rw [hs]
  rfl

/-- Every construct that never ends, ends with the text. -/
theorem unterminated_eq (h : s.Onward after) : after.unterminated = s.unterminated := by
  obtain ⟨source, h⟩ := h
  rw [unterminated, unterminated, h.position, h.rest, Position.advance_append]

theorem of_recognise {recogniser : List Char → Recognition α}
    (h : (recogniser s.rest).IsSplitOf s.rest) : s.Onward (s.recognise recogniser).2 := by
  unfold recognise
  split
  · next hr => exact ⟨_, .pass (h.of_found hr).1⟩
  · exact .refl s
  · next hr => exact ⟨_, .pass (h.of_unclosed hr).1⟩

end Scanner.Onward

namespace Descent

variable {κ α β : Type} {s : Scanner} {kept : κ}

/-- At `s` the program comes to an answer, and has not moved back, or to a fault: neither does it
stall nor does it run out of fuel. -/
inductive Ends (x : Descent κ α) (s : Scanner) (kept : κ) (answer : α → Scanner → κ → Prop)
    (fault : Diagnostic → Prop) : Prop where
  | answered {a : α} {after : Scanner} {left : κ} (hx : x (s, kept) = .ok (a, after, left))
      (ho : s.Onward after) (h : answer a after left)
  | failed {d : Diagnostic} (hx : x (s, kept) = .error (.fault d)) (h : fault d)

namespace Ends

variable {x : Descent κ α} {f : α → Descent κ β} {answer answer' : α → Scanner → κ → Prop}
  {post : β → Scanner → κ → Prop} {fault fault' : Diagnostic → Prop}

theorem pure {a : α} (h : answer a s kept) : Ends (pure a) s kept answer fault :=
  .answered rfl (.refl s) h

theorem fail {d : Scanner → Diagnostic} (h : fault (d s)) :
    Ends (fail d) s kept answer fault :=
  .failed rfl h

theorem act {f : Scanner → α × Scanner} (ho : s.Onward (f s).2)
    (h : answer (f s).1 (f s).2 kept) : Ends (act f) s kept answer fault :=
  .answered rfl ho h

theorem bind (h : Ends x s kept answer fault)
    (hf : ∀ a after left, s.Onward after → answer a after left →
      Ends (f a) after left post fault) : Ends (x >>= f) s kept post fault := by
  have hbind : (x >>= f) (s, kept) = x (s, kept) >>= fun (a, c) => f a c := rfl
  cases h with
  | failed hx h => exact .failed (by rw [hbind, hx]; rfl) h
  | answered hx ho h =>
    cases hf _ _ _ ho h with
    | failed hfa hd => exact .failed (by rw [hbind, hx]; exact hfa) hd
    | answered hfa hoa hp => exact .answered (by rw [hbind, hx]; exact hfa) (ho.trans hoa) hp

theorem scanner {f : Scanner → Descent κ α} (h : Ends (f s) s kept answer fault) :
    Ends (scanner >>= f) s kept answer fault := by
  have hs : (Descent.scanner >>= f) (s, kept) = f s (s, kept) := rfl
  cases h with
  | answered hx ho h => exact .answered (hs.trans hx) ho h
  | failed hx h => exact .failed (hs.trans hx) h

theorem imp (h : Ends x s kept answer fault)
    (ha : ∀ a after left, s.Onward after → answer a after left → answer' a after left)
    (hd : ∀ d, fault d → fault' d) : Ends x s kept answer' fault' := by
  cases h with
  | answered hx ho h => exact .answered hx ho (ha _ _ _ ho h)
  | failed hx h => exact .failed hx (hd _ h)

theorem attempt {f : Scanner → Except Diagnostic α × Scanner} (ho : s.Onward (f s).2)
    (ha : ∀ a, (f s).1 = .ok a → answer a (f s).2 kept)
    (hd : ∀ d, (f s).1 = .error d → fault d) : Ends (attempt f) s kept answer fault := by
  rcases hf : f s with ⟨d | a, after⟩
  · exact .failed (by simp [Descent.attempt, hf]) (hd d (by rw [hf]))
  · rw [hf] at ho ha
    exact .answered (by simp [Descent.attempt, hf]) ho (ha a rfl)

theorem recognise {α : Type} {recogniser : List Char → Recognition α}
    {answer : Option α → Scanner → κ → Prop} (hr : (recogniser s.rest).IsSplitOf s.rest)
    (hfound : ∀ value source rest, recogniser s.rest = .found value source rest →
      answer (some value) (s.pass source rest) kept)
    (habsent : recogniser s.rest = .absent → answer none s kept)
    (hunclosed : ∀ source rest, recogniser s.rest = .unclosed source rest →
      fault s.unterminated) :
    Ends (Descent.attempt (·.recognise recogniser)) s kept answer fault := by
  refine attempt (.of_recognise hr) ?_ ?_
  · intro a ha
    unfold Scanner.recognise at ha ⊢
    split at ha
    · next h => cases ha; simpa [h] using hfound _ _ _ h
    · next h => cases ha; simpa [h] using habsent h
    · cases ha
  · intro d hd
    unfold Scanner.recognise at hd
    split at hd
    · cases hd
    · cases hd
    · next h => cases hd; exact hunclosed _ _ h

theorem read {γ : Type} {recogniser : List Char → Recognition γ} {next : γ → Descent κ α}
    {otherwise : Descent κ α} (hr : (recogniser s.rest).IsSplitOf s.rest)
    (hfound : ∀ value source rest, recogniser s.rest = .found value source rest →
      Ends (next value) (s.pass source rest) kept answer fault)
    (habsent : recogniser s.rest = .absent → Ends otherwise s kept answer fault)
    (hunclosed : ∀ source rest, recogniser s.rest = .unclosed source rest →
      fault s.unterminated) : Ends (read recogniser next otherwise) s kept answer fault := by
  have hread : Ends (Descent.attempt (·.recognise recogniser)) s kept (fun value? after left =>
      match value? with
      | some value => Ends (next value) after left answer fault
      | none => Ends otherwise after left answer fault) fault :=
    recognise hr hfound habsent hunclosed
  refine .bind hread fun value? after left _ h => ?_
  cases value? with
  | some value => exact h
  | none => exact h

theorem count {answer : Option Nat → Scanner → κ → Prop}
    (hfound : ∀ n source rest, decimal s.rest = .found n source rest → n < countBound →
      answer (some n) (s.pass source rest) kept)
    (habsent : decimal s.rest = .absent → answer none s kept)
    (hlarge : ∀ n source rest, decimal s.rest = .found n source rest → ¬ n < countBound →
      fault (s.diagnose .countTooLarge)) :
    Ends (Descent.attempt Scanner.count) s kept answer fault := by
  cases hd : decimal s.rest with
  | found n source rest =>
    by_cases hn : n < countBound
    · have hc : s.count = (.ok (some n), s.pass source rest) := by
        simp [Scanner.count, Scanner.recognise, hd, hn]
      exact .answered (by simp [Descent.attempt, hc])
        ⟨_, .pass ((decimal_isSplitOf _).of_found hd).1⟩ (hfound n source rest hd hn)
    · have hc : s.count = (.error (s.diagnose .countTooLarge), s.pass source rest) := by
        simp [Scanner.count, Scanner.recognise, hd, hn]
      exact .failed (by simp [Descent.attempt, hc]) (hlarge n source rest hd hn)
  | absent =>
    have hc : s.count = (.ok none, s) := by simp [Scanner.count, Scanner.recognise, hd]
    exact .answered (by simp [Descent.attempt, hc]) (.refl s) (habsent hd)
  | unclosed => simp [decimal] at hd

theorem skipBlanks : Ends skipBlanks s kept
    (fun _ after left => after = s.skipBlanks ∧ left = kept) fault :=
  act ⟨_, s.readWhile_passes isBlank⟩ ⟨rfl, rfl⟩

theorem bump {answer : Option Char → Scanner → κ → Prop}
    (hc : ∀ c rest, s.rest = c :: rest → answer (some c) (s.pass [c] rest) kept)
    (hend : s.rest = [] → answer none s kept) :
    Ends (Descent.act Scanner.bump) s kept answer fault := by
  cases hr : s.rest with
  | nil =>
    have hb : s.bump = (none, s) := by rw [Scanner.bump, hr]
    exact .answered (by rw [Descent.act, hb]) (.refl s) (hend hr)
  | cons c rest =>
    have hb : s.bump = (some c, s.pass [c] rest) := by rw [Scanner.bump, hr]
    exact .answered (by rw [Descent.act, hb]) ⟨[c], .pass hr⟩ (hc c rest hr)

theorem anyOf {x : Descent κ Bool} {more : List (Descent κ Bool)}
    {answer : Bool → Scanner → κ → Prop} (h : Ends x s kept (fun b after left =>
      if b then answer true after left else Ends (anyOf more) after left answer fault) fault) :
    Ends (anyOf (x :: more)) s kept answer fault := by
  refine .bind h fun b after left _ hb => ?_
  cases b with
  | true => exact .pure hb
  | false => exact hb

theorem eat {mark : List Char} {answer : Bool → Scanner → κ → Prop}
    (hfound : ∀ rest, s.rest = mark ++ rest → answer true (s.pass mark rest) kept)
    (hmissing : ¬ mark <+: s.rest → answer false s kept) :
    Ends (Descent.act (·.eat mark)) s kept answer fault := by
  cases he : afterMark? mark s.rest with
  | some rest =>
    have hs := eq_append_of_afterMark? he
    have hr : s.eat mark = (true, s.pass mark rest) := by rw [Scanner.eat, he]
    exact .answered (by rw [Descent.act, hr]) ⟨mark, .pass hs⟩ (hfound rest hs)
  | none =>
    have hr : s.eat mark = (false, s) := by rw [Scanner.eat, he]
    refine .answered (by rw [Descent.act, hr]) (.refl s) (hmissing ?_)
    rintro ⟨rest, hs⟩
    rw [← hs, afterMark?_self_append] at he
    cases he

theorem eatOne {marks : List (List Char)} {answer : Bool → Scanner → κ → Prop}
    (hfound : ∀ mark ∈ marks, ∀ rest, s.rest = mark ++ rest → answer true (s.pass mark rest) kept)
    (hmissing : (∀ mark ∈ marks, ¬ mark <+: s.rest) → answer false s kept) :
    Ends (eatOne marks) s kept answer fault := by
  induction marks with
  | nil => exact .pure (hmissing (by simp))
  | cons mark marks ih =>
    refine .anyOf (.eat (fun rest hs => ?_) fun hn => ?_)
    · exact hfound mark (by simp) rest hs
    · refine ih (fun m hm => hfound m (by simp [hm])) fun hm => hmissing ?_
      exact List.forall_mem_cons.2 ⟨hn, hm⟩

theorem ifEatOne {marks : List (List Char)} {y : Descent κ α}
    (hfound : ∀ mark ∈ marks, ∀ rest, s.rest = mark ++ rest →
      Ends x (s.pass mark rest) kept answer fault)
    (hmissing : (∀ mark ∈ marks, ¬ mark <+: s.rest) → Ends y s kept answer fault) :
    Ends (Descent.eatOne marks >>= fun b => if b then x else y) s kept answer fault := by
  have hmark : Ends (Descent.eatOne marks) s kept (fun b after left =>
      if b then Ends x after left answer fault else Ends y after left answer fault) fault :=
    eatOne hfound hmissing
  refine .bind hmark fun b after left _ hb => ?_
  cases b with
  | true => exact hb
  | false => exact hb

theorem require {marks : List (List Char)} {missing : Fault} {answer : Unit → Scanner → κ → Prop}
    (hfound : ∀ mark ∈ marks, ∀ rest, s.rest = mark ++ rest → answer () (s.pass mark rest) kept)
    (hmissing : (∀ mark ∈ marks, ¬ mark <+: s.rest) → fault (s.expected missing)) :
    Ends (require marks missing) s kept answer fault :=
  .ifEatOne (fun mark hm rest hs => .pure (hfound mark hm rest hs)) fun hn => .fail (hmissing hn)

theorem speculate (h : Ends x s kept answer fault) :
    Ends (speculate x) s kept
      (fun a back left => back = s ∧ left = kept ∧ ∃ after left, answer a after left) fault := by
  cases h with
  | answered hx _ h =>
    exact .answered (by simp [Descent.speculate, hx]) (.refl s) ⟨rfl, rfl, _, _, h⟩
  | failed hx h => exact .failed (by simp [Descent.speculate, hx]) h

theorem succeeds (h : Ends x s kept answer fault) :
    Ends (succeeds x) s kept
      (fun ok after left => if ok then ∃ a, answer a after left else ∃ d, fault d) fault' := by
  cases h with
  | @answered a after left hx ho h =>
    have hok : Descent.succeeds x (s, kept) = .ok (true, after, left) := by
      rw [Descent.succeeds, hx]
    exact .answered hok ho (by simpa using ⟨_, h⟩)
  | failed hx h =>
    have hnot : Descent.succeeds x (s, kept) = .ok (false, s, kept) := by
      rw [Descent.succeeds, hx]
    exact .answered hnot (.refl s) (by simpa using ⟨_, h⟩)

theorem inRule {rule : RuleContext} (h : Ends x s kept answer fun d => fault (d.inRule rule)) :
    Ends (inRule rule x) s kept answer fault := by
  cases h with
  | answered hx ho h => exact .answered (by simp [Descent.inRule, hx]) ho h
  | failed hx h => exact .failed (by simp [Descent.inRule, hx]) h

theorem beyond {start : Scanner} (hs : s.left < start.left) (h : Ends x s kept answer fault) :
    Ends (beyond start x) s kept answer fault := by
  have hb : Descent.beyond start x (s, kept) = x (s, kept) := if_pos hs
  cases h with
  | answered hx ho h => exact .answered (hb.trans hx) ho h
  | failed hx h => exact .failed (hb.trans hx) h

/-- A loop with less text left than fuel ends if each round keeps an invariant and passes something
or leaves the loop. -/
theorem loop {round : α → Descent κ (Round α β)} (inv : α → Scanner → κ → Prop)
    (hround : ∀ a s kept, inv a s kept → Ends (round a) s kept
      (fun r after left => r.Holds (fun next => after.left < s.left ∧ inv next after left)
        fun b => post b after left) fault)
    {fuel : Nat} {a : α} (h : inv a s kept) (hs : s.left < fuel) :
    Ends (loop round fuel a) s kept post fault := by
  induction fuel generalizing a s kept with
  | zero => omega
  | succ fuel ih =>
    cases hround a s kept h with
    | failed hx h => exact .failed (by simp [Descent.loop, hx]) h
    | @answered r after left hx ho h =>
      cases r with
      | leave b => exact .answered (by simp [Descent.loop, hx]) ho h
      | again next =>
        obtain ⟨hlt, h⟩ := h
        have hl : Descent.loop round (fuel + 1) a (s, kept) =
            Descent.loop round fuel next (after, left) := by
          simp [Descent.loop, hx, hlt]
        cases ih h (by omega) with
        | answered hy hoa hp => exact .answered (hl.trans hy) (ho.trans hoa) hp
        | failed hy hd => exact .failed (hl.trans hy) hd

end Ends

end Descent

end GrammarText
