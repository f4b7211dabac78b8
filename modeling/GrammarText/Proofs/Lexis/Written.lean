import GrammarText.Lexis.Comment
import GrammarText.Lexis.Word
import GrammarText.Proofs.Lexis.Continuation
import Mathlib.Data.List.DropRight
import Mathlib.Data.List.TakeWhile

/-!
# Constructs as they are written

What the recognisers find in a construct that is written out in full, whatever follows it.
-/

namespace GrammarText

/-! ## Runs of a class -/

theorem isBlank_space : isBlank ' ' = true := rfl

theorem takeWhile_append_of_head? {p : Char → Bool} {source rest : List Char}
    (hs : ∀ c ∈ source, p c = true) (hr : ∀ c ∈ rest.head?, p c = false) :
    (source ++ rest).takeWhile p = source := by
  rw [List.takeWhile_append_of_pos hs]
  cases rest with
  | nil => simp
  | cons c rest => simp [hr c rfl]

theorem dropWhile_append_of_head? {p : Char → Bool} {source rest : List Char}
    (hs : ∀ c ∈ source, p c = true) (hr : ∀ c ∈ rest.head?, p c = false) :
    (source ++ rest).dropWhile p = rest := by
  rw [List.dropWhile_append_of_pos hs]
  cases rest with
  | nil => rfl
  | cons c rest => simp [hr c rfl]

theorem not_of_head?_dropWhile {p : Char → Bool} {text : List Char} :
    ∀ c ∈ (text.dropWhile p).head?, p c = false := by
  intro c hc
  have h := List.head?_dropWhile_not p text
  rw [Option.mem_def.1 hc] at h
  exact h

theorem run_eq_found_iff {p : Char → Bool} {text value source rest : List Char} :
    run p text = .found value source rest ↔ value = source ∧ source ≠ [] ∧
      (∀ c ∈ source, p c = true) ∧ (∀ c ∈ rest.head?, p c = false) ∧ text = source ++ rest := by
  constructor
  · intro h
    unfold run at h
    split at h
    · cases h
    · next c more ht =>
      cases h
      refine ⟨rfl, by simp, ht ▸ fun _ => List.mem_takeWhile_imp, not_of_head?_dropWhile, ?_⟩
      rw [← ht, List.takeWhile_append_dropWhile]
  · rintro ⟨rfl, hne, hs, hr, rfl⟩
    obtain ⟨c, more, rfl⟩ := List.exists_cons_of_ne_nil hne
    rw [run, takeWhile_append_of_head? hs hr, dropWhile_append_of_head? hs hr]

theorem run_cons {p : Char → Bool} {c : Char} (hc : p c = true) (text : List Char) :
    run p (c :: text) =
      .found (c :: text.takeWhile p) (c :: text.takeWhile p) (text.dropWhile p) := by
  simp [run, hc]

theorem run_cons_eq_absent {p : Char → Bool} {c : Char} {text : List Char} (hc : p c = false) :
    run p (c :: text) = .absent := by
  simp [run, hc]

theorem decimal_eq_found_iff {text source rest : List Char} {n : Nat} :
    decimal text = .found n source rest ↔ n = Nat.ofDigitChars 10 source 0 ∧ source ≠ [] ∧
      (∀ c ∈ source, c.isDigit = true) ∧ (∀ c ∈ rest.head?, c.isDigit = false) ∧
        text = source ++ rest := by
  constructor
  · intro h
    obtain ⟨digits, hr, rfl⟩ := Recognition.map_eq_found h
    obtain ⟨rfl, h⟩ := run_eq_found_iff.1 hr
    exact ⟨rfl, h⟩
  · rintro ⟨rfl, h⟩
    rw [decimal, run_eq_found_iff.2 ⟨rfl, h⟩]
    rfl

theorem word_eq_found_iff {text source rest : List Char} {name : String} :
    word text = .found name source rest ↔ name = String.ofList source ∧ source ≠ [] ∧
      (∀ c ∈ source, c.isAlpha = true) ∧ (∀ c ∈ rest.head?, c.isAlpha = false) ∧
        text = source ++ rest := by
  constructor
  · intro h
    obtain ⟨letters, hr, rfl⟩ := Recognition.map_eq_found h
    obtain ⟨rfl, h⟩ := run_eq_found_iff.1 hr
    exact ⟨rfl, h⟩
  · rintro ⟨rfl, h⟩
    rw [word, run_eq_found_iff.2 ⟨rfl, h⟩]
    rfl

theorem decimal_cons {c : Char} (hc : c.isDigit = true) (text : List Char) :
    decimal (c :: text) = .found (Nat.ofDigitChars 10 (c :: text.takeWhile Char.isDigit) 0)
      (c :: text.takeWhile Char.isDigit) (text.dropWhile Char.isDigit) := by
  rw [decimal, run_cons hc]
  rfl

theorem metaName_eq_found_iff {text source rest : List Char} {name : String} :
    metaName text = .found name source rest ↔ ∃ c tail, isLetter c = true ∧
      (∀ d ∈ tail, continuesName d = true) ∧ (∀ d ∈ rest.head?, continuesName d = false) ∧
        name = String.ofList ((c :: tail).filter fun d => !isBlank d) ∧ source = c :: tail ∧
          text = source ++ rest := by
  constructor
  · intro h
    cases text with
    | nil => cases h
    | cons c more =>
      by_cases hl : isLetter c = true
      · rw [metaName, if_pos hl] at h
        cases h
        exact ⟨c, _, hl, fun _ => List.mem_takeWhile_imp, not_of_head?_dropWhile, rfl, rfl, by simp⟩
      · rw [metaName, if_neg hl] at h
        cases h
  · rintro ⟨c, tail, hl, ht, hr, rfl, rfl, rfl⟩
    rw [List.cons_append, metaName, if_pos hl, takeWhile_append_of_head? ht hr,
      dropWhile_append_of_head? ht hr]

/-! ## Classes of characters -/

theorem ne_of_class {p : Char → Bool} {c d : Char} (hd : p d = false) (hc : p c = true) : c ≠ d := by
  rintro rfl
  rw [hd] at hc
  cases hc

/-- Classes that are apart are so whichever comes first. -/
theorem eq_false_of_class {p q : Char → Bool} {c : Char} (h : p c = true → q c = false)
    (hq : q c = true) : p c = false := by
  rw [← Bool.not_eq_true]
  intro hp
  rw [h hp] at hq
  cases hq

theorem isQuote_of_class {p : Char → Bool} {c : Char} (hsingle : p '\'' = false)
    (hdouble : p '"' = false) (hc : p c = true) : isQuote c = false := by
  simp [isQuote, ne_of_class hsingle hc, ne_of_class hdouble hc]

/-! ## First characters -/

theorem metaName_cons_eq_absent {c : Char} {text : List Char} (hc : isLetter c = false) :
    metaName (c :: text) = .absent := by
  simp [metaName, hc]

theorem decimal_cons_eq_absent {c : Char} {text : List Char} (hc : c.isDigit = false) :
    decimal (c :: text) = .absent := by
  rw [decimal, run_cons_eq_absent hc, Recognition.map]

@[simp] theorem metaName_cons_eq_absent_iff {c : Char} {text : List Char} :
    metaName (c :: text) = .absent ↔ isLetter c = false := by
  by_cases hc : isLetter c = true <;> simp [metaName, hc]

theorem isLetter_of_metaName {c : Char} {text source rest : List Char} {name : String}
    (h : metaName (c :: text) = .found name source rest) : isLetter c = true := by
  rw [← Bool.not_eq_false, ← @metaName_cons_eq_absent_iff c text, h]
  simp

@[simp] theorem decimal_cons_eq_absent_iff {c : Char} {text : List Char} :
    decimal (c :: text) = .absent ↔ c.isDigit = false := by
  by_cases hc : c.isDigit = true <;> simp [decimal, run, hc]

theorem comment_cons_eq_absent {c : Char} {text : List Char} (hc : c ≠ '(') :
    comment (c :: text) = .absent := by
  unfold comment
  split
  · next h => cases h; exact absurd rfl hc
  · rfl

theorem comment_cons_eq_absent_iff {c : Char} {text : List Char} :
    comment (c :: text) = .absent ↔ ¬ (c = '(' ∧ text.head? = some '*') := by
  constructor
  · rintro h ⟨rfl, hs⟩
    obtain ⟨more, rfl⟩ := List.head?_eq_some_iff.1 hs
    rw [comment] at h
    split at h <;> cases h
  · intro h
    unfold comment
    split
    · next hc => cases hc; exact absurd ⟨rfl, rfl⟩ h
    · rfl

theorem blockComment_cons_eq_absent_iff {c : Char} {text : List Char} :
    blockComment (c :: text) = .absent ↔ ¬ (c = '/' ∧ text.head? = some '*') := by
  constructor
  · rintro h ⟨rfl, hs⟩
    obtain ⟨more, rfl⟩ := List.head?_eq_some_iff.1 hs
    simp [blockComment] at h
  · intro h
    unfold blockComment
    split
    · next hc => cases hc; exact absurd ⟨rfl, rfl⟩ h
    · rfl

theorem blockComment_cons_eq_absent {c : Char} {text : List Char} (hc : c ≠ '/') :
    blockComment (c :: text) = .absent := by
  unfold blockComment
  split
  · next h => cases h; exact absurd rfl hc
  · rfl

/-! ## Plain letters -/

theorem word_cons {c : Char} (hc : c.isAlpha = true) (text : List Char) :
    word (c :: text) = .found (String.ofList (c :: text.takeWhile Char.isAlpha))
      (c :: text.takeWhile Char.isAlpha) (text.dropWhile Char.isAlpha) := by
  rw [word, run_cons hc]
  rfl

theorem isAlpha_of_word {c : Char} {text source rest : List Char} {name : String}
    (h : word (c :: text) = .found name source rest) : c.isAlpha = true := by
  rw [← Bool.not_eq_false, ← @word_cons_eq_absent_iff c text, h]
  simp

theorem toNat_of_isAlpha {c : Char} (h : c.isAlpha = true) : 65 ≤ c.toNat ∧ c.toNat ≤ 122 := by
  have h : (decide (65 ≤ c.val ∧ c.val ≤ 90) || 97 ≤ c.val && c.val ≤ 122) = true := h
  simp [UInt32.le_iff_toNat_le] at h
  omega

theorem isBlank_of_isAlpha {c : Char} (h : c.isAlpha = true) : isBlank c = false := by
  have := toNat_of_isAlpha h
  simp [isBlank, inRanges, blankRanges]
  omega

theorem isAlpha_of_isBlank {c : Char} (h : isBlank c = true) : c.isAlpha = false :=
  eq_false_of_class isBlank_of_isAlpha h

/-! ## Letters -/

theorem exists_of_inRanges {n : Nat} {ranges : List (Nat × Nat)} (h : inRanges n ranges = true) :
    ∃ range ∈ ranges, range.1 ≤ n ∧ n ≤ range.2 := by
  induction ranges with
  | nil => cases h
  | cons range more ih =>
    simp only [inRanges] at h
    split at h
    · cases h
    · next hlow =>
      split at h
      · next hhigh => exact ⟨range, by simp, Nat.not_lt.1 hlow, hhigh⟩
      · obtain ⟨r, hr, hn⟩ := ih h
        exact ⟨r, List.mem_cons_of_mem _ hr, hn⟩

theorem not_inRanges_of_disjoint {n : Nat} {ranges others : List (Nat × Nat)}
    (hd : ∀ r ∈ ranges, ∀ s ∈ others, r.2 < s.1 ∨ s.2 < r.1) (h : inRanges n ranges = true) :
    inRanges n others = false := by
  rw [← Bool.not_eq_true]
  intro ho
  obtain ⟨r, hr, hrn⟩ := exists_of_inRanges h
  obtain ⟨s, hs, hsn⟩ := exists_of_inRanges ho
  have := hd r hr s hs
  omega

theorem isLetter_of_isBlank {c : Char} (h : isBlank c = true) : isLetter c = false := by
  unfold isLetter
  split
  · exact isAlpha_of_isBlank h
  · exact not_inRanges_of_disjoint (by decide +kernel : ∀ r ∈ blankRanges, ∀ s ∈ alphabeticRanges,
      r.2 < s.1 ∨ s.2 < r.1) h

theorem isBlank_of_isLetter {c : Char} (h : isLetter c = true) : isBlank c = false :=
  eq_false_of_class isLetter_of_isBlank h

/-! ## Numbers -/

theorem toNat_of_isDigit {c : Char} (h : c.isDigit = true) : 48 ≤ c.toNat ∧ c.toNat ≤ 57 := by
  simpa [Char.isDigit, UInt32.le_iff_toNat_le] using h

theorem isBlank_of_isDigit {c : Char} (h : c.isDigit = true) : isBlank c = false := by
  have := toNat_of_isDigit h
  simp [isBlank, inRanges, blankRanges]
  omega

theorem isDigit_of_isBlank {c : Char} (h : isBlank c = true) : c.isDigit = false :=
  eq_false_of_class isBlank_of_isDigit h

theorem isLetter_of_isDigit {c : Char} (h : c.isDigit = true) : isLetter c = false := by
  have hd := toNat_of_isDigit h
  rw [isLetter, if_pos (by omega), ← Bool.not_eq_true]
  intro hl
  have := toNat_of_isAlpha hl
  omega

theorem decimal_toDigits (n : Nat) {c : Char} (hc : c.isDigit = false) (rest : List Char) :
    decimal (Nat.toDigits 10 n ++ c :: rest) = .found n (Nat.toDigits 10 n) (c :: rest) := by
  have hd : ∀ d ∈ Nat.toDigits 10 n, d.isDigit = true :=
    fun _ => Nat.isDigit_of_mem_toDigits (by decide) (by decide)
  have hne : Nat.toDigits 10 n ≠ [] := Nat.toDigits_ne_nil
  exact decimal_eq_found_iff.2
    ⟨(Nat.ofDigitChars_ten_toDigits).symm, hne, hd, by simpa using hc, rfl⟩

/-! ## Text in quotes -/

theorem splitAround?_of_not_mem {c : Char} {body rest : List Char} (hc : c ∉ body) :
    splitAround? [c] (body ++ c :: rest) = some (body, rest) := by
  induction body with
  | nil => simp [splitAround?, afterMark?]
  | cons d body ih =>
    have hd : c ≠ d ∧ c ∉ body := by simpa using hc
    simp [splitAround?, afterMark?, hd.1, ih hd.2]

theorem between_of_not_mem {opening body rest : List Char} {c : Char} (hc : c ∉ body) :
    between opening [c] (body ++ c :: rest) = .found body (opening ++ body ++ [c]) rest := by
  rw [between, splitAround?_of_not_mem hc]

theorem quotedText_of_not_mem (quote : Char) {body : List Char} (hq : isQuote quote = true)
    (hb : quote ∉ body) (rest : List Char) :
    quotedText (quote :: body ++ quote :: rest) =
      .found (String.ofList body) (quote :: body ++ [quote]) rest := by
  simp [quotedText, hq, between_of_not_mem hb, Recognition.map]

theorem not_mem_of_splitAround? {c : Char} {text before after : List Char}
    (h : splitAround? [c] text = some (before, after)) : c ∉ before := by
  induction text generalizing before with
  | nil => cases h
  | cons d text ih =>
    by_cases hd : c = d
    · rw [splitAround?, afterMark?, if_pos hd] at h
      cases h
      simp
    · rw [splitAround?, afterMark?, if_neg hd] at h
      split at h
      · next hn => cases hn
      · split at h
        · next hs =>
          cases h
          simpa [hd] using ih hs
        · cases h

theorem splitAround?_eq_none_iff {c : Char} {text : List Char} :
    splitAround? [c] text = none ↔ c ∉ text := by
  constructor
  · intro h hm
    obtain ⟨before, after, rfl, hb⟩ := List.eq_append_cons_of_mem hm
    rw [splitAround?_of_not_mem hb] at h
    cases h
  · intro h
    refine Option.eq_none_iff_forall_not_mem.2 fun ⟨before, after⟩ hs => h ?_
    simp [eq_append_of_splitAround? hs]

theorem between_eq_found {opening text value source rest : List Char} {c : Char}
    (h : between opening [c] text = .found value source rest) : c ∉ value := by
  unfold between at h
  split at h
  · next hs => cases h; exact not_mem_of_splitAround? hs
  · cases h

theorem quotedText_cons {c : Char} (hq : isQuote c = true) (more : List Char) :
    quotedText (c :: more) = match splitAround? [c] more with
    | some (body, rest) => .found (String.ofList body) (c :: body ++ [c]) rest
    | none => .unclosed [c] more := by
  rw [quotedText, if_pos hq, between]
  cases splitAround? [c] more <;> rfl

/-- What stands in quotes does not hold those quotes. -/
theorem quotedText_eq_found {text source rest : List Char} {value : String}
    (h : quotedText text = .found value source rest) :
    ∃ quote, isQuote quote = true ∧ quote ∉ value.toList := by
  cases text with
  | nil => cases h
  | cons c text =>
    by_cases hq : isQuote c = true
    · rw [quotedText, if_pos hq] at h
      obtain ⟨body, hb, rfl⟩ := Recognition.map_eq_found h
      exact ⟨c, hq, by simpa using between_eq_found hb⟩
    · rw [quotedText, if_neg hq] at h
      cases h

/-- Text in quotes never holds both of them. -/
theorem not_both_quotes {text source rest : List Char} {value : String}
    (h : quotedText text = .found value source rest) :
    ¬ ('"' ∈ value.toList ∧ '\'' ∈ value.toList) := by
  obtain ⟨quote, hq, hm⟩ := quotedText_eq_found h
  rintro ⟨hd, hs⟩
  simp only [isQuote, Bool.or_eq_true, beq_iff_eq] at hq
  rcases hq with rfl | rfl
  · exact hm hs
  · exact hm hd

theorem between_eq_found_iff {opening text value source rest : List Char} {c : Char} :
    between opening [c] text = .found value source rest ↔
      c ∉ value ∧ source = opening ++ value ++ [c] ∧ text = value ++ c :: rest := by
  constructor
  · intro h
    refine ⟨between_eq_found h, ?_⟩
    unfold between at h
    split at h
    · next hs => cases h; exact ⟨rfl, by simpa using eq_append_of_splitAround? hs⟩
    · cases h
  · rintro ⟨hc, rfl, rfl⟩
    exact between_of_not_mem hc

theorem quotedText_eq_found_iff {text source rest : List Char} {value : String} :
    quotedText text = .found value source rest ↔ ∃ quote, isQuote quote = true ∧
      quote ∉ value.toList ∧ source = quote :: value.toList ++ [quote] ∧ text = source ++ rest := by
  constructor
  · intro h
    cases text with
    | nil => cases h
    | cons c text =>
      by_cases hq : isQuote c = true
      · rw [quotedText, if_pos hq] at h
        obtain ⟨body, hb, rfl⟩ := Recognition.map_eq_found h
        obtain ⟨hc, rfl, rfl⟩ := between_eq_found_iff.1 hb
        exact ⟨c, hq, by simpa using hc, by simp, by simp⟩
      · rw [quotedText, if_neg hq] at h
        cases h
  · rintro ⟨quote, hq, hm, rfl, rfl⟩
    have hread := quotedText_of_not_mem quote hq hm rest
    rw [String.ofList_toList] at hread
    simpa using hread

theorem quotedText_again {text source rest : List Char} {value : String}
    (h : quotedText text = .found value source rest) (next : List Char) :
    quotedText (source ++ next) = .found value source next := by
  obtain ⟨quote, hq, hm, hs, -⟩ := quotedText_eq_found_iff.1 h
  exact quotedText_eq_found_iff.2 ⟨quote, hq, hm, hs, rfl⟩

/-! ## Trimming -/

theorem trimEnd_append_blanks {text blanks : List Char} (hb : ∀ c ∈ blanks, isBlank c = true) :
    trimEnd (text ++ blanks) = trimEnd text := by
  rw [trimEnd, List.reverse_append, List.dropWhile_append_of_pos (by simpa using hb), trimEnd]

theorem trimEnd_eq_rdropWhile (text : List Char) : trimEnd text = text.rdropWhile isBlank := rfl

theorem trimEnd_isPrefixOf (text : List Char) : trimEnd text <+: text :=
  List.rdropWhile_prefix isBlank text

theorem trimEnd_append_cons {c : Char} (hc : isBlank c = false) (init text : List Char) :
    trimEnd (init ++ c :: text) = init ++ c :: trimEnd text := by
  have hd : (text.reverse ++ c :: init.reverse).dropWhile isBlank = _ :=
    dropWhile_append_of_stop hc text.reverse init.reverse
  simp [trimEnd, hd]

theorem trimEnd_cons {c : Char} {text : List Char} (h : trimEnd text ≠ []) :
    trimEnd (c :: text) = c :: trimEnd text := by
  have hne : text.reverse.dropWhile isBlank ≠ [] := by simpa [trimEnd] using h
  rw [trimEnd, List.reverse_cons, List.dropWhile_append, if_neg (by simpa using hne)]
  simp [trimEnd]

theorem length_trimEnd_le (text : List Char) : (trimEnd text).length ≤ text.length := by
  have h : (text.reverse.dropWhile isBlank).length ≤ text.reverse.length :=
    (List.dropWhile_sublist isBlank).length_le
  simpa [trimEnd] using h

theorem dropWhile_of_trim {text : List Char} (h : trim text = text) :
    text.dropWhile isBlank = text := by
  apply (List.dropWhile_sublist isBlank).eq_of_length_le
  calc text.length = (trim text).length := by rw [h]
    _ ≤ (text.dropWhile isBlank).length := length_trimEnd_le _

theorem trimEnd_of_trim {text : List Char} (h : trim text = text) : trimEnd text = text := by
  rw [trim, dropWhile_of_trim h] at h
  exact h

theorem trimEnd_trimEnd (text : List Char) : trimEnd (trimEnd text) = trimEnd text :=
  List.rdropWhile_idempotent isBlank text

theorem dropWhile_trimEnd {text : List Char} (h : text.dropWhile isBlank = text) :
    (trimEnd text).dropWhile isBlank = trimEnd text := by
  obtain ⟨blanks, hb⟩ := trimEnd_isPrefixOf text
  cases ht : trimEnd text with
  | nil => rfl
  | cons c trimmed =>
    rw [ht] at hb
    rw [← hb] at h
    exact List.dropWhile_cons_of_neg (by simpa using h)

theorem dropWhile_trim (text : List Char) : (trim text).dropWhile isBlank = trim text :=
  dropWhile_trimEnd (List.dropWhile_idempotent isBlank text)

theorem trim_trim (text : List Char) : trim (trim text) = trim text := by
  rw [trim, dropWhile_trim, trim, trimEnd_trimEnd]

/-- A blank on each side is trimmed off. -/
theorem trim_blank_blank {text : List Char} (ht : trim text = text) :
    trim (' ' :: text ++ [' ']) = text := by
  rw [trim, List.cons_append, List.dropWhile_cons_of_pos isBlank_space]
  cases text with
  | nil => rfl
  | cons c text =>
    have hc : isBlank c = false := by simpa using dropWhile_of_trim ht
    rw [List.cons_append, List.dropWhile_cons_of_neg (by simp [hc]), ← List.cons_append,
      trimEnd_append_blanks (by simp [isBlank_space]), trimEnd_of_trim ht]

/-- A special sequence starts with blanks that do not count, and what follows them starts with
none. -/
theorem specialSequence_eq_found {text source rest : List Char} {value : String}
    (h : specialSequence text = .found value source rest) : ∃ blanks body,
      (∀ c ∈ blanks, isBlank c = true) ∧ body.dropWhile isBlank = body ∧ '?' ∉ body ∧
        value = String.ofList (trimEnd body) ∧ source = '?' :: blanks ++ body ++ ['?'] ∧
          text = source ++ rest := by
  have hs := (specialSequence_isSplitOf text).of_found h
  unfold specialSequence at h
  split at h
  · next more =>
    obtain ⟨body, hb, rfl⟩ := Recognition.map_eq_found h
    obtain ⟨hm, rfl, hr⟩ := between_eq_found_iff.1 hb
    refine ⟨more.takeWhile isBlank, body, fun _ => List.mem_takeWhile_imp, ?_, hm, rfl, rfl, hs.1⟩
    -- What `dropWhile` leaves starts with no blank, so neither does its part before the mark.
    cases body with
    | nil => rfl
    | cons c body =>
      have hc : isBlank c = false := by
        have := List.head?_dropWhile_not isBlank more
        rwa [hr] at this
      exact List.dropWhile_cons_of_neg (by simp [hc])
  · cases h

theorem specialSequence_of_body {blanks body : List Char} (hb : ∀ c ∈ blanks, isBlank c = true)
    (hd : body.dropWhile isBlank = body) (hm : '?' ∉ body) (rest : List Char) :
    specialSequence ('?' :: blanks ++ body ++ '?' :: rest) =
      .found (String.ofList (trimEnd body)) ('?' :: blanks ++ body ++ ['?']) rest := by
  have hstop : ∀ c ∈ (body ++ '?' :: rest).head?, isBlank c = false := by
    intro c hc
    cases body with
    | nil => cases hc; rfl
    | cons d body =>
      cases hc
      simpa using hd
  have hdrop : (body ++ '?' :: rest).dropWhile isBlank = body ++ '?' :: rest := by
    cases body with
    | nil => rfl
    | cons d body => exact List.dropWhile_cons_of_neg (by simpa using hstop d rfl)
  have htake : (body ++ '?' :: rest).takeWhile isBlank = [] := by
    have h := List.takeWhile_append_dropWhile (p := isBlank) (l := body ++ '?' :: rest)
    rw [hdrop] at h
    simpa using h
  simp only [List.append_assoc, List.cons_append, specialSequence]
  rw [List.dropWhile_append_of_pos hb, List.takeWhile_append_of_pos hb, hdrop, htake,
    List.append_nil, between_of_not_mem hm]
  simp [Recognition.map]

theorem specialSequence_cons (more : List Char) : specialSequence ('?' :: more) =
    match splitAround? ['?'] more with
    | some (body, rest) => .found (String.ofList (trim body)) ('?' :: body ++ ['?']) rest
    | none => .unclosed ('?' :: more.takeWhile isBlank) (more.dropWhile isBlank) := by
  cases hs : splitAround? ['?'] more with
  | some parts =>
    obtain ⟨body, rest⟩ := parts
    have hm := not_mem_of_splitAround? hs
    have hblanks : ∀ c ∈ body.takeWhile isBlank, isBlank c = true := fun _ => List.mem_takeWhile_imp
    have h := specialSequence_of_body hblanks (List.dropWhile_idempotent _ body)
      (fun hd => hm ((List.dropWhile_sublist _).subset hd)) rest
    simpa [eq_append_of_splitAround? hs, trim] using h
  | none =>
    have hm := splitAround?_eq_none_iff.1 hs
    have hd : splitAround? ['?'] (more.dropWhile isBlank) = none :=
      splitAround?_eq_none_iff.2 fun hd => hm ((List.dropWhile_sublist _).subset hd)
    simp [specialSequence, between, hd, Recognition.map]

theorem specialSequence_again {text source rest : List Char} {value : String}
    (h : specialSequence text = .found value source rest) (next : List Char) :
    specialSequence (source ++ next) = .found value source next := by
  obtain ⟨blanks, body, hb, hd, hm, rfl, rfl, -⟩ := specialSequence_eq_found h
  simpa using specialSequence_of_body hb hd hm next

/-- A special sequence is written with a blank on each side. -/
theorem specialSequence_of_trim {text : List Char} (ht : trim text = text) (hq : '?' ∉ text)
    (rest : List Char) : ∃ source, specialSequence ('?' :: ' ' :: text ++ ' ' :: '?' :: rest) =
      .found (String.ofList text) source rest := by
  obtain ⟨body, hd, hb, hm⟩ : ∃ body, (' ' :: text ++ ' ' :: '?' :: rest).dropWhile isBlank =
      body ++ '?' :: rest ∧ trimEnd body = text ∧ '?' ∉ body := by
    cases text with
    | nil => exact ⟨[], rfl, rfl, by simp⟩
    | cons c text =>
      have hc : isBlank c = false := by simpa using dropWhile_of_trim ht
      refine ⟨c :: text ++ [' '], ?_, ?_, by simpa using hq⟩
      · simp only [List.cons_append, List.append_assoc, List.nil_append]
        rw [List.dropWhile_cons_of_pos isBlank_space, List.dropWhile_cons_of_neg (by simp [hc])]
      · rw [trimEnd_append_blanks (by simp [isBlank_space]), trimEnd_of_trim ht]
  refine ⟨'?' :: (' ' :: text ++ ' ' :: '?' :: rest).takeWhile isBlank ++ body ++ ['?'], ?_⟩
  simp only [List.cons_append] at hd
  simp only [specialSequence, List.cons_append, hd, between_of_not_mem hm, Recognition.map, hb]

end GrammarText
