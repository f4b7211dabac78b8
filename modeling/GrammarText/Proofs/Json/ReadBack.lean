import GrammarText.Proofs.Json.Record

/-!
# What is read back

A tree is not decoded from what it is encoded to if a list in it is empty or a number in it takes
more than 64 bits. Which of the two is told depends on the order of the fields; each way to put
trees together has one lemma here.
-/

namespace GrammarText

theorem Json.asNat_ofNat (n : Nat) :
    (ofNat n).asNat = if n < countBound then .ok n else .error (.outOfRange n) := rfl

theorem Json.lt_of_asNat {json : Json} {n : Nat} (h : json.asNat = .ok n) : n < countBound := by
  unfold asNat at h
  split at h
  · split at h
    · next hn => cases h; exact hn
    · cases h
  · cases h
  · cases h

/-- The tree itself, if its lists are filled and its numbers bounded; otherwise a reason why not. -/
inductive ReadBack {α : Type} (empty : DecodeError → Prop) (filled bounded : Bool) (tree : α) :
    Except DecodeError α → Prop where
  | read (hf : filled = true) (hb : bounded = true) : ReadBack empty filled bounded tree (.ok tree)
  | notFilled {e : DecodeError} (hf : filled = false) (he : empty e) :
      ReadBack empty filled bounded tree (.error e)
  | notBounded {n : Nat} (hb : bounded = false) (hn : countBound ≤ n) :
      ReadBack empty filled bounded tree (.error (.outOfRange n))

namespace ReadBack

variable {α β γ : Type} {empty : DecodeError → Prop} {filled bounded filled' bounded' : Bool}
  {tree : α} {last : β} {result : Except DecodeError α} {lastResult : Except DecodeError β}

theorem number (n : Nat) :
    ReadBack empty true (decide (n < countBound)) n (Json.ofNat n).asNat := by
  rw [Json.asNat_ofNat]
  split
  · next h => exact .read rfl (decide_eq_true h)
  · next h => exact .notBounded (decide_eq_false h) (Nat.le_of_not_lt h)

/-- Where the first of two parts is not read back, neither is the whole. -/
theorem left {e : DecodeError} (h : ReadBack empty filled bounded tree (.error e)) (whole : γ) :
    ReadBack empty (filled && filled') (bounded && bounded') whole (.error e) := by
  cases h with
  | notFilled hf he => exact .notFilled (by simp [hf]) he
  | notBounded hb hn => exact .notBounded (by simp [hb]) hn

theorem right {e : DecodeError} (h : ReadBack empty filled bounded tree (.error e)) (whole : γ) :
    ReadBack empty (filled' && filled) (bounded' && bounded) whole (.error e) := by
  rw [Bool.and_comm filled', Bool.and_comm bounded']
  exact h.left whole

theorem map (f : α → β) (h : ReadBack empty filled bounded tree result) :
    ReadBack empty filled bounded (f tree) (f <$> result) := by
  cases h with
  | read hf hb => exact .read hf hb
  | notFilled hf he => exact .notFilled hf he
  | notBounded hb hn => exact .notBounded hb hn

theorem cons {trees : List α} {results : Except DecodeError (List α)}
    (h : ReadBack empty filled bounded tree result)
    (hm : ReadBack empty filled' bounded' trees results) :
    ReadBack empty (filled && filled') (bounded && bounded') (tree :: trees)
      (result >>= fun tree => results >>= fun trees => pure (tree :: trees)) := by
  cases result with
  | error e => exact h.left _
  | ok a =>
    cases h with
    | read hf hb =>
      subst hf hb
      exact hm.map (tree :: ·)

/-- An object of which one field may be faulty. -/
theorem field {kind : RecordKind} {members : List (String × Json)} {index : Nat} {key : String}
    (f : α → β) (h : ReadBack empty filled bounded tree result) :
    ReadBack empty filled bounded (f tree)
      (kind.conclude (.object members) (f <$> .ofExcept index key result)) := by
  cases h with
  | read hf hb => exact .read hf hb
  | notFilled hf he => exact .notFilled hf he
  | notBounded hb hn => exact .notBounded hb hn

/-- An object of which two fields may be faulty: either may be the one that is told of. -/
theorem fields {kind : RecordKind} {members : List (String × Json)} {i j : Nat} {k l : String}
    (f : α → β → γ) (h : ReadBack empty filled bounded tree result)
    (hl : ReadBack empty filled' bounded' last lastResult) :
    ReadBack empty (filled && filled') (bounded && bounded') (f tree last)
      (kind.conclude (.object members)
        (f <$> .ofExcept i k result <*> .ofExcept j l lastResult)) := by
  cases result with
  | ok a =>
    cases h with
    | read hf hb =>
      subst hf hb
      exact hl.field (f tree)
  | error e =>
    cases lastResult with
    | ok b => exact h.left _
    | error d =>
      change ReadBack _ _ _ _ (.error ((if _ then _ else _ : FieldFault).cause.getD _))
      split
      · exact hl.right _
      · exact h.left _

end ReadBack

end GrammarText
