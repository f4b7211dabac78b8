import GrammarText.Iso.Printer
import GrammarText.Proofs.Iso.Entries
import GrammarText.Proofs.Lexis.CommentBody

/-!
# What a printed ISO grammar spells

A tree is printable if its lists are not empty and each of its leaves can be written down. The
printed text of such a tree spells the comments and tokens of the tree, in order.
-/

namespace GrammarText.Iso

/-! ## Printable trees -/

/-- A letter, then letters and numerals, and no blank among them. -/
def IsName (text : String) : Prop :=
  ∃ c more, text.toList = c :: more ∧ isLetter c = true ∧
    (∀ d ∈ more, isLetter d = true ∨ isNumeral d = true) ∧ ∀ d ∈ c :: more, isBlank d = false

/-- Between blanks and the marks of a comment, the text is read as the body of that comment. -/
def IsCommentBody (body : String) : Prop :=
  ∃ source, comment ('(' :: '*' :: ' ' :: body.toList ++ [' ', '*', ')']) = .found body source []

/-- There is a quote that the text does not hold. -/
def IsTerminal (text : String) : Prop := ¬ ('"' ∈ text.toList ∧ '\'' ∈ text.toList)

/-- No question mark, and no blanks at the two ends. -/
def IsSpecial (text : String) : Prop := '?' ∉ text.toList ∧ trim text.toList = text.toList

mutual

def Term.Printable : Term → Prop
  | ⟨factor, none⟩ => factor.Printable
  | ⟨factor, some exception⟩ => factor.Printable ∧ exception.Printable

def Factor.Printable : Factor → Prop
  | ⟨comments, count, primary⟩ =>
    (∀ body ∈ comments, IsCommentBody body) ∧ (∀ n ∈ count, n < countBound) ∧ primary.Printable

def Primary.Printable : Primary → Prop
  | .sequence _ definitions => definitions ≠ [] ∧ DefinitionsList.Printable definitions
  | .special text => IsSpecial text
  | .name text => IsName text
  | .terminal text => IsTerminal text
  | .empty => True

def DefinitionsList.Printable : List (List Term) → Prop
  | [] => True
  | definition :: more =>
    definition ≠ [] ∧ Definition.Printable definition ∧ DefinitionsList.Printable more

def Definition.Printable : List Term → Prop
  | [] => True
  | term :: more => term.Printable ∧ Definition.Printable more

end

def Rule.Printable (rule : Rule) : Prop :=
  IsName rule.name ∧ (∀ body ∈ rule.comments, IsCommentBody body) ∧ rule.definitions ≠ [] ∧
    DefinitionsList.Printable rule.definitions

def Grammar.Printable (grammar : Grammar) : Prop :=
  grammar.rules ≠ [] ∧ (∀ rule ∈ grammar.rules, rule.Printable) ∧
    ∀ body ∈ grammar.trailingComments, IsCommentBody body

/-! ## The entries of a tree -/

mutual

def Term.entries : Term → List (Entry Token)
  | ⟨factor, none⟩ => factor.entries
  | ⟨factor, some exception⟩ => factor.entries ++ .token .minus :: exception.entries

def Factor.entries : Factor → List (Entry Token)
  | ⟨comments, none, primary⟩ => comments.map .comment ++ primary.entries
  | ⟨comments, some n, primary⟩ =>
    comments.map .comment ++ .token (.count n) :: .token .star :: primary.entries

def Primary.entries : Primary → List (Entry Token)
  | .sequence bracket definitions =>
    .token (.opening bracket) ::
      (DefinitionsList.entries definitions ++ [.token (.closing bracket)])
  | .special text => [.token (.special text)]
  | .name text => [.token (.name text)]
  | .terminal text => [.token (.terminal text)]
  | .empty => []

def DefinitionsList.entries : List (List Term) → List (Entry Token)
  | [] => []
  | [definition] => Definition.entries definition
  | definition :: more =>
    Definition.entries definition ++ .token .separator :: DefinitionsList.entries more

def Definition.entries : List Term → List (Entry Token)
  | [] => []
  | [term] => term.entries
  | term :: more => term.entries ++ .token .comma :: Definition.entries more

end

def Rule.entries (rule : Rule) : List (Entry Token) :=
  rule.comments.map .comment ++ .token (.name rule.name) :: .token .defining ::
    (DefinitionsList.entries rule.definitions ++ [.token .terminator])

def Grammar.entries (grammar : Grammar) : List (Entry Token) :=
  grammar.rules.flatMap Rule.entries ++ grammar.trailingComments.map .comment

/-! ## Leaves -/

variable {more : List Char} {after : List (Entry Token)}

theorem spells_blank (h : Spells more after) : Spells (' ' :: more) after := .blank isBlank_space h

namespace Token

variable {c : Char} {text source rest : List Char}

theorem read_of_metaName {name : String} (h : metaName (c :: text) = .found name source rest) :
    read c text = ⟨.name name, source, rest⟩ := by
  simp [read, h, Recognition.toPiece?]

theorem read_of_decimal {n : Nat} (hl : isLetter c = false)
    (h : decimal (c :: text) = .found n source rest) : read c text = ⟨.count n, source, rest⟩ := by
  simp [read, metaName_cons_eq_absent hl, h, Recognition.toPiece?]

theorem read_of_quotedText {body : String} (hl : isLetter c = false) (hd : c.isDigit = false)
    (h : quotedText (c :: text) = .found body source rest) :
    read c text = ⟨.terminal body, source, rest⟩ := by
  simp [read, metaName_cons_eq_absent hl, decimal_cons_eq_absent hd, h, Recognition.toPiece?]

theorem read_of_specialSequence {body : String} (hl : isLetter c = false) (hd : c.isDigit = false)
    (hq : isQuote c = false) (h : specialSequence (c :: text) = .found body source rest) :
    read c text = ⟨.special body, source, rest⟩ := by
  simp [read, metaName_cons_eq_absent hl, decimal_cons_eq_absent hd,
    quotedText_cons_eq_absent_iff.2 hq, h, Recognition.toPiece?]

theorem read_eq_ofMark (hl : isLetter c = false) (hd : c.isDigit = false) (hq : isQuote c = false)
    (hs : c ≠ '?') : read c text = ofMark c text := by
  simp [read, metaName_cons_eq_absent hl, decimal_cons_eq_absent hd,
    quotedText_cons_eq_absent_iff.2 hq, specialSequence_cons_eq_absent_iff.2 hs,
    Recognition.toPiece?]

end Token

/-- A character that starts neither a name nor a count nor a passage. -/
def isPunctuation (c : Char) : Bool :=
  !isBlank c && !isLetter c && !c.isDigit && !isQuote c && c != '?'

theorem spells_mark {c : Char} {token : Token} (hp : isPunctuation c = true)
    (hc : comment (c :: more) = .absent) (ht : Token.ofMark c more = ⟨token, [c], more⟩)
    (h : Spells more after) : Spells (c :: more) (.token token :: after) := by
  simp only [isPunctuation, Bool.and_eq_true, Bool.not_eq_true', bne_iff_ne] at hp
  obtain ⟨⟨⟨⟨hb, hl⟩, hd⟩, hq⟩, hs⟩ := hp
  exact .token hb hc ((Token.read_eq_ofMark hl hd hq hs).trans ht) h

theorem spells_opening (bracket : Bracket) (h : Spells (' ' :: more) after) :
    Spells (bracket.opening :: ' ' :: more) (.token (.opening bracket) :: after) := by
  cases bracket <;> exact spells_mark rfl rfl rfl h

theorem spells_closing (bracket : Bracket) (h : Spells more after) :
    Spells (bracket.closing :: more) (.token (.closing bracket) :: after) := by
  cases bracket <;> exact spells_mark rfl rfl rfl h

/-- A name takes in the blanks behind it. -/
theorem spells_name_append {c : Char} {tail next : List Char} (hl : isLetter c = true)
    (ht : ∀ d ∈ tail, continuesName d = true)
    (hn : ∀ d ∈ (next.dropWhile isBlank).head?, continuesName d = false) (h : Spells next after) :
    Spells (c :: tail ++ next)
      (.token (.name (String.ofList ((c :: tail).filter fun d => !isBlank d))) :: after) := by
  have hb : ∀ d ∈ next.takeWhile isBlank, isBlank d = true := fun _ => List.mem_takeWhile_imp
  have hcont : ∀ d ∈ tail ++ next.takeWhile isBlank, continuesName d = true := by
    intro d hd
    rcases List.mem_append.1 hd with hd | hd
    · exact ht d hd
    · simp [continuesName, hb d hd]
  have hfilter : (next.takeWhile isBlank).filter (fun d => !isBlank d) = [] :=
    List.filter_eq_nil_iff.2 (by simpa using hb)
  have hread := metaName_eq_found_iff.2 ⟨c, _, hl, hcont, hn, rfl, rfl, rfl⟩
  rw [← List.cons_append, List.filter_append, hfilter, List.append_nil, List.append_assoc,
    List.takeWhile_append_dropWhile] at hread
  refine .token (isBlank_of_isLetter hl) (comment_cons_eq_absent ?_) (Token.read_of_metaName hread)
    (Spells.regardless (Lexicon.spells_dropWhile_iff.1 h))
  rintro rfl
  cases hl

theorem spells_name {text : String} {c : Char} (ht : IsName text) (hc : continuesName c = false)
    (h : Spells (c :: more) after) :
    Spells (text.toList ++ ' ' :: c :: more) (.token (.name text) :: after) := by
  obtain ⟨d, tail, hd, hl, htail, hb⟩ := ht
  have hcont : ∀ e ∈ tail, continuesName e = true := by
    intro e he
    rcases htail e he with h | h <;> simp [continuesName, h]
  have hblank : isBlank c = false := by simp_all [continuesName]
  have hn : ∀ e ∈ ((' ' :: c :: more).dropWhile isBlank).head?, continuesName e = false := by
    rw [List.dropWhile_cons_of_pos isBlank_space, List.dropWhile_cons_of_neg (by simp [hblank])]
    simpa using hc
  have hs := spells_name_append hl hcont hn (spells_blank h)
  rwa [List.filter_eq_self.2 (by simpa using hb), ← hd, String.ofList_toList] at hs

theorem spells_count (n : Nat) (h : Spells (' ' :: more) after) :
    Spells (Nat.toDigits 10 n ++ ' ' :: more) (.token (.count n) :: after) := by
  have hread := decimal_toDigits n (c := ' ') rfl more
  obtain ⟨c, digits, hd⟩ := List.exists_cons_of_ne_nil (Nat.toDigits_ne_nil (n := n) (b := 10))
  have hc : c.isDigit = true :=
    Nat.isDigit_of_mem_toDigits (b := 10) (n := n) (by decide) (by decide) (by simp [hd])
  rw [hd, List.cons_append] at hread ⊢
  refine .token (isBlank_of_isDigit hc) (comment_cons_eq_absent ?_)
    (Token.read_of_decimal (isLetter_of_isDigit hc) hread) h
  rintro rfl
  cases hc

theorem spells_terminal {text : String} (ht : IsTerminal text) (h : Spells more after) :
    Spells (terminalChars text.toList ++ more) (.token (.terminal text) :: after) := by
  -- The quote is one that the text does not hold.
  by_cases hd : '"' ∈ text.toList
  · have hread := quotedText_of_not_mem '\'' rfl (fun hs => ht ⟨hd, hs⟩) more
    rw [String.ofList_toList] at hread
    simp only [terminalChars, List.contains_iff_mem, hd, if_true, List.append_assoc]
    exact .token rfl rfl (Token.read_of_quotedText rfl rfl hread) h
  · have hread := quotedText_of_not_mem '"' rfl hd more
    rw [String.ofList_toList] at hread
    simp only [terminalChars, List.contains_iff_mem, hd, if_false, List.append_assoc]
    exact .token rfl rfl (Token.read_of_quotedText rfl rfl hread) h

theorem spells_special {text : String} (ht : IsSpecial text) (h : Spells more after) :
    Spells ('?' :: ' ' :: text.toList ++ ' ' :: '?' :: more)
      (.token (.special text) :: after) := by
  obtain ⟨source, hread⟩ := specialSequence_of_trim ht.2 ht.1 more
  rw [String.ofList_toList] at hread
  exact .token rfl rfl (Token.read_of_specialSequence rfl rfl rfl hread) h

theorem spells_comments {comments : List String} (hb : ∀ body ∈ comments, IsCommentBody body)
    (h : Spells more after) :
    Spells (commentChars comments ++ more) (comments.map .comment ++ after) := by
  induction comments with
  | nil => exact h
  | cons body comments ih =>
    obtain ⟨source, hs⟩ := hb body (by simp)
    have hread := comment_append (' ' :: (commentChars comments ++ more)) hs
    simp only [commentChars, List.cons_append, List.append_assoc, List.nil_append] at hread ⊢
    exact .comment rfl hread (spells_blank (ih fun b h => hb b (by simp [h])))

/-! ## Trees -/

theorem continuesName_closing (bracket : Bracket) : continuesName bracket.closing = false := by
  cases bracket <;> rfl

/-! In print every part of a rule has a blank and a mark behind it. -/

mutual

theorem Term.spells {c : Char} {more : List Char}
    {after : List (Entry Token)} (hc : continuesName c = false) (h : Spells (c :: more) after) :
    (term : Term) → term.Printable →
      Spells (term.chars ++ ' ' :: c :: more) (term.entries ++ after)
  | ⟨factor, none⟩, ht => Factor.spells hc h factor ht
  | ⟨factor, some exception⟩, ht => by
    have he := Factor.spells hc h exception ht.2
    have hm : Spells ('-' :: ' ' :: (exception.chars ++ ' ' :: c :: more))
        (.token .minus :: (exception.entries ++ after)) := spells_mark rfl rfl rfl (spells_blank he)
    have hf := Factor.spells rfl hm factor ht.1
    simpa [Term.chars, Term.entries] using hf

theorem Factor.spells {c : Char} {more : List Char}
    {after : List (Entry Token)} (hc : continuesName c = false) (h : Spells (c :: more) after) :
    (factor : Factor) → factor.Printable →
      Spells (factor.chars ++ ' ' :: c :: more) (factor.entries ++ after)
  | ⟨comments, none, primary⟩, hf => by
    have hp := Primary.spells hc h primary hf.2.2
    simpa [Factor.chars, Factor.entries] using spells_comments hf.1 hp
  | ⟨comments, some n, primary⟩, hf => by
    have hp := Primary.spells hc h primary hf.2.2
    have hs : Spells ('*' :: ' ' :: (primary.chars ++ ' ' :: c :: more))
        (.token .star :: (primary.entries ++ after)) := spells_mark rfl rfl rfl (spells_blank hp)
    have hn := spells_count n (spells_blank hs)
    simpa [Factor.chars, Factor.entries] using spells_comments hf.1 hn

theorem Primary.spells {c : Char} {more : List Char}
    {after : List (Entry Token)} (hc : continuesName c = false) (h : Spells (c :: more) after) :
    (primary : Primary) → primary.Printable →
      Spells (primary.chars ++ ' ' :: c :: more) (primary.entries ++ after)
  | .sequence bracket definitions, hp => by
    have hclose : Spells (bracket.closing :: ' ' :: c :: more)
        (.token (.closing bracket) :: after) := spells_closing bracket (spells_blank h)
    have hl := DefinitionsList.spells (continuesName_closing bracket) hclose
      definitions hp.2
    simpa [Primary.chars, Primary.entries] using
      spells_opening bracket (spells_blank hl)
  | .special text, hp => by
    have hx := spells_special hp (spells_blank h)
    simpa [Primary.chars, Primary.entries] using hx
  | .name text, hp => spells_name hp hc h
  | .terminal text, hp => spells_terminal hp (spells_blank h)
  | .empty, _ => spells_blank h

theorem DefinitionsList.spells {c : Char} {more : List Char}
    {after : List (Entry Token)} (hc : continuesName c = false) (h : Spells (c :: more) after) :
    (definitions : List (List Term)) → DefinitionsList.Printable definitions →
      Spells (DefinitionsList.chars definitions ++ ' ' :: c :: more)
        (DefinitionsList.entries definitions ++ after)
  | [], _ => spells_blank h
  | [definition], hd => Definition.spells hc h definition hd.2.1
  | definition :: next :: rest, hd => by
    have hl := DefinitionsList.spells hc h (next :: rest) hd.2.2
    have hm : Spells
        ('|' :: ' ' :: (DefinitionsList.chars (next :: rest) ++ ' ' :: c :: more))
        (.token .separator :: (DefinitionsList.entries (next :: rest) ++ after)) :=
      spells_mark rfl rfl rfl (spells_blank hl)
    have hf := Definition.spells rfl hm definition hd.2.1
    simpa [DefinitionsList.chars, DefinitionsList.entries] using hf

theorem Definition.spells {c : Char} {more : List Char}
    {after : List (Entry Token)} (hc : continuesName c = false) (h : Spells (c :: more) after) :
    (definition : List Term) → Definition.Printable definition →
      Spells (Definition.chars definition ++ ' ' :: c :: more)
        (Definition.entries definition ++ after)
  | [], _ => spells_blank h
  | [term], hd => Term.spells hc h term hd.1
  | term :: next :: rest, hd => by
    have hl := Definition.spells hc h (next :: rest) hd.2
    have hm : Spells (',' :: ' ' :: (Definition.chars (next :: rest) ++ ' ' :: c :: more))
        (.token .comma :: (Definition.entries (next :: rest) ++ after)) :=
      spells_mark rfl rfl rfl (spells_blank hl)
    have hf := Term.spells rfl hm term hd.1
    simpa [Definition.chars, Definition.entries] using hf

end

theorem Rule.spells {rule : Rule} (hr : rule.Printable) (h : Spells more after) :
    Spells (rule.chars ++ more) (rule.entries ++ after) := by
  obtain ⟨hn, hb, -, hd⟩ := hr
  have ht : Spells (';' :: more) (.token .terminator :: after) :=
    spells_mark rfl rfl rfl h
  have hl := DefinitionsList.spells rfl ht rule.definitions hd
  have he : Spells ('=' :: ' ' :: _) (.token .defining :: _) :=
    spells_mark rfl rfl rfl (spells_blank hl)
  have hs := spells_name hn rfl he
  simpa [Rule.chars, Rule.entries] using spells_comments hb hs

theorem spells_rulesChars (h : Spells more after) : {rules : List Rule} →
    (∀ rule ∈ rules, rule.Printable) →
      Spells (rulesChars rules ++ more) (rules.flatMap Rule.entries ++ after)
  | [], _ => h
  | [rule], hr => by
    simpa [rulesChars] using Rule.spells (hr rule (by simp)) h
  | rule :: next :: rest, hr => by
    have hl := spells_rulesChars h fun r hm => hr r (List.mem_cons_of_mem rule hm)
    have hf := Rule.spells (hr rule (by simp)) (.blank (c := '\n') rfl hl)
    simpa [rulesChars] using hf

theorem Grammar.spells {grammar : Grammar} (hg : grammar.Printable) :
    Spells grammar.chars grammar.entries := by
  obtain ⟨-, hr, hb⟩ := hg
  have hc := spells_comments hb .nil
  rw [Grammar.chars, Grammar.entries]
  split
  · next he => simpa [he] using spells_rulesChars .nil hr
  · next comments _ => simpa using spells_rulesChars (.blank (c := '\n') rfl hc) hr

end GrammarText.Iso
