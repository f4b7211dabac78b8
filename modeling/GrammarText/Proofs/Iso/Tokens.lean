import GrammarText.Proofs.Iso.Printable
import GrammarText.Proofs.Lexis.CommentBody

/-!
# What ISO tokens are read from

A token is read as a name, a count, a passage or a mark, whichever its first character starts. What
is read can be written down again.
-/

namespace GrammarText.Iso

/-! ## Ways to read a token -/

/-- The ways to read a token that starts with a given character. -/
inductive Token.Reads (c : Char) (more : List Char) : Piece Token → Prop where
  | name {text : String} {source rest : List Char}
      (h : metaName (c :: more) = .found text source rest) : Reads c more ⟨.name text, source, rest⟩
  | count {n : Nat} {source rest : List Char} (h : decimal (c :: more) = .found n source rest) :
      Reads c more ⟨.count n, source, rest⟩
  | terminal {text : String} {source rest : List Char}
      (h : quotedText (c :: more) = .found text source rest) :
      Reads c more ⟨.terminal text, source, rest⟩
  | special {text : String} {source rest : List Char}
      (h : specialSequence (c :: more) = .found text source rest) :
      Reads c more ⟨.special text, source, rest⟩
  | unclosed {source rest : List Char} : Reads c more ⟨.unclosed, source, rest⟩
  | mark {piece : Piece Token} (hl : isLetter c = false) (hd : c.isDigit = false)
      (hq : isQuote c = false) (hs : c ≠ '?') (h : ofMark c more = piece) : Reads c more piece

theorem Token.reads {c : Char} {more : List Char} {piece : Piece Token}
    (h : read c more = piece) : Reads c more piece := by
  subst h
  unfold read
  cases hm : metaName (c :: more) with
  | found => exact .name hm
  | unclosed => exact .unclosed
  | absent =>
    cases hd : decimal (c :: more) with
    | found => exact .count hd
    | unclosed => exact .unclosed
    | absent =>
      cases hq : quotedText (c :: more) with
      | found => exact .terminal hq
      | unclosed => exact .unclosed
      | absent =>
        cases hs : specialSequence (c :: more) with
        | found => exact .special hs
        | unclosed => exact .unclosed
        | absent =>
          exact .mark (metaName_cons_eq_absent_iff.1 hm) (decimal_cons_eq_absent_iff.1 hd)
            (quotedText_cons_eq_absent_iff.1 hq) (specialSequence_cons_eq_absent_iff.1 hs) rfl

/-! ## Legible tokens -/

/-- What a token can hold. -/
def Token.Legible : Token → Prop
  | .name text => IsName text
  | .terminal text => IsTerminal text
  | .special text => IsSpecial text
  | _ => True

def Entry.Legible : Entry Token → Prop
  | .comment body => IsCommentBody body
  | .token token => token.Legible

theorem isName_of_metaName {text source rest : List Char} {name : String}
    (h : metaName text = .found name source rest) : IsName name := by
  obtain ⟨c, tail, hl, ht, -, rfl, -, -⟩ := metaName_eq_found_iff.1 h
  refine ⟨c, tail.filter fun d => !isBlank d, ?_, hl, ?_, ?_⟩
  · simp [isBlank_of_isLetter hl]
  · intro d hd
    obtain ⟨hd, hb⟩ := List.mem_filter.1 hd
    have hc := ht d hd
    simp_all [continuesName]
  · intro d hd
    rcases List.mem_cons.1 hd with rfl | hd
    · exact isBlank_of_isLetter hl
    · simpa using (List.mem_filter.1 hd).2

theorem isSpecial_of_specialSequence {text source rest : List Char} {body : String}
    (h : specialSequence text = .found body source rest) : IsSpecial body := by
  obtain ⟨_, inner, -, hd, hm, rfl, -, -⟩ := specialSequence_eq_found h
  rw [IsSpecial, String.toList_ofList]
  refine ⟨fun hq => hm ((trimEnd_isPrefixOf inner).subset hq), ?_⟩
  rw [trim, dropWhile_trimEnd hd, trimEnd_trimEnd]

section Read

variable {c : Char} {more source rest : List Char} {token : Token}

theorem Token.ofMark_legible (h : ofMark c more = ⟨token, source, rest⟩) : token.Legible := by
  unfold ofMark at h
  split at h <;> cases h <;> trivial

theorem Token.read_legible (h : read c more = ⟨token, source, rest⟩) : token.Legible := by
  cases reads h with
  | name h => exact isName_of_metaName h
  | count => trivial
  | terminal h => exact not_both_quotes h
  | special h => exact isSpecial_of_specialSequence h
  | unclosed => trivial
  | mark _ _ _ _ h => exact ofMark_legible h

end Read

theorem legible_of_spells {glued : Bool} {text : List Char} {entries : List (Entry Token)}
    (h : lexicon.Spells (fun _ token => token) glued text entries) :
    ∀ entry ∈ entries, Entry.Legible entry := by
  induction h with
  | nil => simp
  | blank _ _ ih => exact ih
  | comment _ hr _ ih => exact List.forall_mem_cons.2 ⟨comment_of_value hr, ih⟩
  | token _ _ ht _ ih => exact List.forall_mem_cons.2 ⟨Token.read_legible ht, ih⟩

end GrammarText.Iso
