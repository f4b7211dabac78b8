import GrammarText.Lexis.Reader

/-!
# Runs of a reader

A fold can be carried over to another machine that keeps in step, and two readings agree if they
come to the same up to what is not looked at, such as the place of a fault.
-/

namespace GrammarText

/-! ## Folds that keep in step -/

@[simp] theorem ok_bind {ε α β : Type} (a : α) (f : α → Except ε β) : (.ok a >>= f) = f a := rfl

@[simp] theorem error_bind {ε α β : Type} (e : ε) (f : α → Except ε β) :
    (.error e >>= f) = .error e := rfl

theorem bind_eq_ok_iff {ε α β : Type} {x : Except ε α} {f : α → Except ε β} {b : β} :
    (x >>= f) = .ok b ↔ ∃ a, x = .ok a ∧ f a = .ok b := by
  cases x <;> simp

theorem map_eq_ok_iff {ε α β : Type} {x : Except ε α} {f : α → β} {b : β} :
    x.map f = .ok b ↔ ∃ a, x = .ok a ∧ f a = b := by
  cases x <;> simp [Except.map]

theorem map_eq_error_iff {ε α β : Type} {x : Except ε α} {f : α → β} {e : ε} :
    x.map f = .error e ↔ x = .error e := by
  cases x <;> simp [Except.map]

@[simp] theorem mapError_ok {δ ε α : Type} (f : ε → δ) (a : α) :
    (.ok a : Except ε α).mapError f = .ok a := rfl

@[simp] theorem mapError_error {δ ε α : Type} (f : ε → δ) (e : ε) :
    (.error e : Except ε α).mapError f = .error (f e) := rfl

/-- If every step of one machine is a few steps of another, so is every run. -/
theorem foldlM_flatMap_eq_map {ε α β σ τ : Type} {f : σ → α → Except ε σ} {g : τ → β → Except ε τ}
    {φ : σ → τ} {ψ : α → List β} (h : ∀ s a, (ψ a).foldlM g (φ s) = (f s a).map φ) (l : List α)
    (s : σ) : (l.flatMap ψ).foldlM g (φ s) = (l.foldlM f s).map φ := by
  induction l generalizing s with
  | nil => rfl
  | cons a l ih =>
    rw [List.flatMap_cons, List.foldlM_append, h, List.foldlM_cons]
    cases hs : f s a with
    | error e => rfl
    | ok t => exact ih t

theorem foldlM_map_eq_map {ε α β σ τ : Type} {f : σ → α → Except ε σ} {g : τ → β → Except ε τ}
    {φ : σ → τ} {ψ : α → β} (h : ∀ s a, g (φ s) (ψ a) = (f s a).map φ) (l : List α) (s : σ) :
    (l.map ψ).foldlM g (φ s) = (l.foldlM f s).map φ := by
  rw [List.map_eq_flatMap]
  exact foldlM_flatMap_eq_map (fun s a => by simp [h]) l s

/-- The same with faults that are told in another way. -/
theorem foldlM_map_eq_mapError {δ ε α β σ τ : Type} {f : σ → α → Except ε σ}
    {g : τ → β → Except δ τ} {φ : σ → τ} {ψ : α → β} {θ : ε → δ}
    (h : ∀ s a, g (φ s) (ψ a) = ((f s a).map φ).mapError θ) (l : List α) (s : σ) :
    (l.map ψ).foldlM g (φ s) = ((l.foldlM f s).map φ).mapError θ := by
  induction l generalizing s with
  | nil => rfl
  | cons a l ih =>
    rw [List.map_cons, List.foldlM_cons, List.foldlM_cons, h]
    cases hs : f s a with
    | error e => rfl
    | ok t => exact ih t

theorem foldlM_cons_eq_ok_iff {ε α σ : Type} {f : σ → α → Except ε σ} {a : α} {l : List α}
    {s t : σ} : (a :: l).foldlM f s = .ok t ↔ ∃ u, f s a = .ok u ∧ l.foldlM f u = .ok t := by
  rw [List.foldlM_cons, bind_eq_ok_iff]

theorem foldlM_eq_ok_of_imp {δ ε α σ : Type} {f : σ → α → Except δ σ} {g : σ → α → Except ε σ}
    (h : ∀ {s a t}, f s a = .ok t → g s a = .ok t) {l : List α} {s t : σ}
    (hl : l.foldlM f s = .ok t) : l.foldlM g s = .ok t := by
  induction l generalizing s with
  | nil => cases hl; rfl
  | cons a l ih =>
    obtain ⟨u, hu, ht⟩ := foldlM_cons_eq_ok_iff.1 hl
    exact foldlM_cons_eq_ok_iff.2 ⟨u, h hu, ih ht⟩

theorem foldlM_append_eq_ok_iff {ε α σ : Type} {f : σ → α → Except ε σ} {l m : List α} {s t : σ} :
    (l ++ m).foldlM f s = .ok t ↔ ∃ u, l.foldlM f s = .ok u ∧ m.foldlM f u = .ok t := by
  rw [List.foldlM_append, bind_eq_ok_iff]

/-- A fold that fails has done some steps and fails at the next. -/
theorem foldlM_eq_error {ε α σ : Type} {f : σ → α → Except ε σ} {l : List α} {s : σ} {e : ε}
    (h : l.foldlM f s = .error e) : ∃ before a after t,
      l = before ++ a :: after ∧ before.foldlM f s = .ok t ∧ f t a = .error e := by
  induction l generalizing s with
  | nil => cases h
  | cons a l ih =>
    rw [List.foldlM_cons] at h
    cases hs : f s a with
    | error fault =>
      rw [hs] at h
      cases h
      exact ⟨[], a, l, s, rfl, rfl, hs⟩
    | ok u =>
      rw [hs] at h
      obtain ⟨before, b, after, t, rfl, hb, ht⟩ := ih h
      exact ⟨a :: before, b, after, t, rfl, foldlM_cons_eq_ok_iff.2 ⟨u, hs, hb⟩, ht⟩

/-- What every step preserves, a run preserves. -/
theorem foldlM_invariant {ε α σ : Type} {f : σ → α → Except ε σ} {p : σ → Prop} {q : α → Prop}
    (hstep : ∀ {s a t}, p s → q a → f s a = .ok t → p t) {l : List α} {s t : σ} (hs : p s)
    (hl : ∀ a ∈ l, q a) (h : l.foldlM f s = .ok t) : p t := by
  induction l generalizing s with
  | nil => cases h; exact hs
  | cons a l ih =>
    obtain ⟨u, hu, ht⟩ := foldlM_cons_eq_ok_iff.1 h
    obtain ⟨ha, hl⟩ := List.forall_mem_cons.1 hl
    exact ih (hstep hs ha hu) hl ht

/-- What holds of all that a step takes holds of all that a run takes. -/
theorem forall_mem_of_foldlM {ε α σ : Type} {f : σ → α → Except ε σ} {q : α → Prop} {l : List α}
    {s t : σ} (h : l.foldlM f s = .ok t) (hstep : ∀ s a t, f s a = .ok t → q a) : ∀ a ∈ l, q a := by
  induction l generalizing s with
  | nil => simp
  | cons a l ih =>
    obtain ⟨u, hu, ht⟩ := foldlM_cons_eq_ok_iff.1 h
    exact List.forall_mem_cons.2 ⟨hstep _ _ _ hu, ih ht⟩

/-- What holds at the end of a run and not at its start comes to hold in some step. -/
theorem exists_step_of_foldlM {ε α σ : Type} {f : σ → α → Except ε σ} {p : σ → Prop} {l : List α}
    {s t : σ} (hs : ¬ p s) (ht : p t) (h : l.foldlM f s = .ok t) : ∃ before a after u v,
      l = before ++ a :: after ∧ before.foldlM f s = .ok u ∧ f u a = .ok v ∧ ¬ p u ∧ p v := by
  induction l generalizing s with
  | nil => cases h; exact absurd ht hs
  | cons a l ih =>
    obtain ⟨u, hu, hl⟩ := foldlM_cons_eq_ok_iff.1 h
    by_cases hp : p u
    · exact ⟨[], a, l, s, u, rfl, rfl, hu, hs, hp⟩
    · obtain ⟨before, b, after, v, w, rfl, hb, hstep⟩ := ih hp hl
      exact ⟨a :: before, b, after, v, w, rfl, foldlM_cons_eq_ok_iff.2 ⟨u, hu, hb⟩, hstep⟩

/-! ## Outcomes without places -/

theorem map_mapError_eq_ok_iff {ε δ α β : Type} {x : Except ε α} {f : ε → δ} {g : α → β} {b : β} :
    (x.mapError f).map g = .ok b ↔ ∃ a, x = .ok a ∧ g a = b := by
  constructor
  · intro h
    cases x with
    | error e => cases h
    | ok a => cases h; exact ⟨a, rfl, rfl⟩
  · rintro ⟨a, rfl, rfl⟩
    rfl

/-- Both readings succeed with results that `f` does not tell apart, or both fail with the same
fault. -/
def Agree {α β : Type} (f : α → β) : Except Diagnostic α → Except Diagnostic α → Prop
  | .ok a, .ok b => f a = f b
  | .error d, .error e => d.fault = e.fault
  | _, _ => False

theorem agree_iff {α β : Type} {f : α → β} {x y : Except Diagnostic α} :
    Agree f x y ↔ (x.mapError Diagnostic.fault).map f = (y.mapError Diagnostic.fault).map f := by
  cases x <;> cases y <;> simp [Agree, Except.map]

namespace Reader

variable {Token State Result : Type} (R : Reader Token State Result)

theorem mapError_foldlM_advance (stop : Position) (lexemes : List (Lexeme Token)) (state : State) :
    (lexemes.foldlM (R.advance stop) state).mapError Diagnostic.fault =
      lexemes.foldlM R.step state := by
  induction lexemes generalizing state with
  | nil => rfl
  | cons lexeme lexemes ih =>
    rw [List.foldlM_cons, List.foldlM_cons, advance]
    cases hs : R.step state lexeme with
    | error fault => rfl
    | ok next => exact ih next

theorem foldlM_advance_eq_ok_iff {stop : Position} {lexemes : List (Lexeme Token)}
    {state final : State} :
    lexemes.foldlM (R.advance stop) state = .ok final ↔
      lexemes.foldlM R.step state = .ok final := by
  rw [← R.mapError_foldlM_advance stop]
  cases lexemes.foldlM (R.advance stop) state <;> simp

theorem conclude_eq_ok_iff {stop : Position} {trailing : Option (List String)} {state : State}
    {result : Result} : R.conclude stop trailing state = .ok result ↔
      ∃ comments, trailing = some comments ∧ R.finish state comments = some result := by
  rw [← Option.bind_eq_some_iff, conclude]
  cases trailing.bind (R.finish state) <;> simp

theorem run_eq_ok_iff {lexed : Lexed Token} {result : Result} : R.run lexed = .ok result ↔
    ∃ state, lexed.lexemes.foldlM R.step R.initial = .ok state ∧
      ∃ comments, lexed.trailing = some comments ∧ R.finish state comments = some result := by
  rw [run, bind_eq_ok_iff]
  simp only [R.foldlM_advance_eq_ok_iff, R.conclude_eq_ok_iff]

/-- A text with a result does not end within a comment, and the state at its end is final. -/
theorem exists_state_of_run {lexed : Lexed Token} {result : Result}
    (h : R.run lexed = .ok result) : ∃ state comments,
      lexed.lexemes.foldlM R.step R.initial = .ok state ∧ lexed.trailing = some comments ∧
        R.finish state comments = some result := by
  obtain ⟨state, hs, comments, hc⟩ := R.run_eq_ok_iff.1 h
  exact ⟨state, comments, hs, hc⟩

end Reader

end GrammarText
