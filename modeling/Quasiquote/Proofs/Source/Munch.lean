import Quasiquote.Proofs.Source.Covering

/-!
# Lexemes are as long as they can be

* `IsDigits`, `IsWord` and the spellings of marks are the classes of lexemes, told by characters
  alone; `IsStray` is a character that begins none of them. `placeValue` is the number that digits
  stand for.
* `Munch`: a slice is of the class that its item says, no longer one could have been read in its
  place, and its characters say which item it is.
* `Munched`: items read like that from a text, each right behind the one before but for layout.
* `scanner_munches`: so are the items of every text.
-/

namespace Quasiquote

/-! ## Classes of lexemes -/

def IsDigits (slice : List Char) : Prop := slice ≠ [] ∧ ∀ c ∈ slice, c.isDigit

def IsWord (slice : List Char) : Prop :=
  ∃ c rest, slice = c :: rest ∧ (c.isAlpha ∨ c = '_') ∧ ∀ d ∈ rest, d.isAlphanum ∨ d = '_'

def IsRegular (slice : List Char) : Prop :=
  (∃ m : Mark, slice = m.spelling) ∨ IsDigits slice ∨ IsWord slice

/-- A single character that begins no regular lexeme and is no layout. -/
def IsStray (slice : List Char) : Prop :=
  ∃ c, slice = [c] ∧ c ∉ [' ', '\t', '\r', '\n'] ∧ ∀ rest, ¬ IsRegular (c :: rest)

/-- The number that a run of digits stands for: each digit counts by its place. -/
def placeValue : List Char → Nat
  | [] => 0
  | c :: rest => (c.toNat - '0'.toNat) * 10 ^ rest.length + placeValue rest

/-- The slice is of the class that the item says. Keywords and names are words. -/
def IsOfClass (slice : List Char) : Except LexicalError Token → Prop
  | .error _ => IsDigits slice
  | .ok t =>
    match t.kind with
    | .mark m => slice = m.spelling
    | .keyword _ | .identifier => IsWord slice
    | .integer _ => IsDigits slice
    | .illegal => IsStray slice
    | .eof => False

/-- Nothing longer that begins where the slice does is of any class or begins a comment. -/
def IsLongest (slice rest : List Char) : Prop :=
  ∀ longer, longer <+: slice ++ rest → slice.length < longer.length →
    ¬ IsRegular longer ∧ ¬ IsStray longer ∧ ¬ ['/', '/'] <+: longer

/-- A slice with this text behind it is read as this item. It is of the item's class, and the
longest one there. A word is a keyword if it is spelled like one. A run of digits is the integer
that it stands for, or an error if that is beyond the 64-bit range. -/
structure Munch (slice rest : List Char) (item : Except LexicalError Token) : Prop where
  text : itemText item = slice
  ofClass : IsOfClass slice item
  longest : IsLongest slice rest
  keyword : IsWord slice → ∀ k, item.map Token.kind = .ok (.keyword k) ↔ slice = k.text.toList
  integer : IsDigits slice → ∀ n,
    item.map Token.kind = .ok (.integer n) ↔ n.toInt = placeValue slice
  outOfRange : IsDigits slice →
    ((∃ e, item = .error e) ↔ Int64.maxValue.toInt < placeValue slice)

/-- These items are read from a text, one right behind the other but for layout, and then its
end. -/
inductive Munched : List Char → List (Except LexicalError Token) → Prop
  | ending {gap : List Char} {line : Nat} (layout : Layout True gap) :
      Munched gap [.ok ⟨.eof, "", line⟩]
  | item {gap slice rest : List Char} {item : Except LexicalError Token}
      {items : List (Except LexicalError Token)} (layout : Layout False gap)
      (munch : Munch slice rest item) (more : Munched rest items) :
      Munched (gap ++ (slice ++ rest)) (item :: items)

/-! ## Beginnings -/

theorem IsDigits.first {c : Char} {rest : List Char} (h : IsDigits (c :: rest)) : c.isDigit :=
  h.2 c List.mem_cons_self

theorem IsWord.first {c : Char} {rest : List Char} (h : IsWord (c :: rest)) : startsWord c := by
  obtain ⟨d, tail, eq, starts, _⟩ := h
  cases eq
  simpa [startsWord] using starts

theorem IsWord.continues {slice : List Char} (h : IsWord slice) :
    ∀ c ∈ slice, continuesWord c := by
  obtain ⟨c, rest, rfl, starts, continues⟩ := h
  intro d inside
  rcases List.mem_cons.mp inside with rfl | inside
  · apply startsWord_continues
    simpa [startsWord] using starts
  · simpa [continuesWord] using continues d inside

theorem isWord_cons {c : Char} {rest : List Char} (starts : startsWord c)
    (continues : ∀ d ∈ rest, continuesWord d) : IsWord (c :: rest) := by
  refine ⟨c, rest, rfl, by simpa [startsWord] using starts, ?_⟩
  intro d inside
  simpa [continuesWord] using continues d inside

/-- No run of digits is a word. -/
theorem IsDigits.not_word {slice : List Char} (h : IsDigits slice) : ¬ IsWord slice := by
  intro word
  cases slice with
  | nil => exact h.1 rfl
  | cons c rest =>
    have digit := h.first
    rw [startsWord_not_digit word.first] at digit
    cases digit

/-- Where a mark stands, no run of digits begins and no word. -/
theorem Mark.no_run (m : Mark) {slice behind : List Char}
    (inside : slice <+: m.spelling ++ behind) : ¬ IsDigits slice ∧ ¬ IsWord slice := by
  cases slice with
  | nil => exact ⟨fun h => h.1 rfl, fun ⟨_, _, h, _⟩ => nomatch h⟩
  | cons c tail =>
    obtain ⟨rest, split⟩ := inside
    have other : continuesWord c = false := by
      apply m.spelling_head c
      have some := m.spelling_length_pos
      cases spelled : m.spelling with
      | nil => simp [spelled] at some
      | cons d tail =>
        rw [spelled] at split
        rw [(List.cons.inj split).1]
        rfl
    constructor
    · intro digits
      rw [digit_continues digits.first] at other
      cases other
    · intro word
      rw [startsWord_continues word.first] at other
      cases other

/-- Where a mark begins, its first character is a mark too. -/
theorem Mark.of_first {m : Mark} {c : Char} {rest : List Char} (h : m.spelling = c :: rest) :
    ∃ single : Mark, single.spelling = [c] := by
  cases m with
  | bangEqual => cases h; exact ⟨.bang, rfl⟩
  | equalEqual => cases h; exact ⟨.equal, rfl⟩
  | greaterEqual => cases h; exact ⟨.greater, rfl⟩
  | lessEqual => cases h; exact ⟨.less, rfl⟩
  | _ => exact ⟨_, h.trans (by cases h; rfl)⟩

/-! ## Nothing longer -/

/-- A mark of two characters is found wherever it stands. -/
theorem Mark.length_le_of_found {m other : Mark} {text : List Char}
    (found : (Mark.all.find? fun m => m.spelling.isPrefixOf text) = some m)
    (inside : other.spelling <+: text) : other.spelling.length ≤ m.spelling.length := by
  have some := m.spelling_length_pos
  obtain ⟨rest, rfl⟩ := inside
  cases other with
  | bangEqual | equalEqual | greaterEqual | lessEqual =>
    simp [Mark.all, Mark.spelling, List.isPrefixOf] at found
    subst found
    rfl
  | _ => exact some

/-- What is in a text from its beginning on and of one class throughout is in the longest run of
that class. -/
theorem length_le_takeWhile {p : Char → Bool} {text longer : List Char} (inside : longer <+: text)
    (all : ∀ c ∈ longer, p c) : longer.length ≤ (text.takeWhile p).length := by
  obtain ⟨rest, rfl⟩ := inside
  rw [List.takeWhile_append_of_pos all, List.length_append]
  omega

theorem IsStray.length {slice : List Char} (h : IsStray slice) : slice.length = 1 := by
  obtain ⟨c, rfl, _⟩ := h
  rfl

/-- A slice is the longest if no regular lexeme there is longer, and no comment is there. -/
theorem longest_of_regular {slice behind : List Char} (some : slice ≠ [])
    (single : ¬ ['/', '/'] <+: slice ++ behind)
    (regular : ∀ longer, longer <+: slice ++ behind → IsRegular longer →
      longer.length ≤ slice.length) :
    IsLongest slice behind := by
  intro longer inside more
  have positive := List.length_pos_of_ne_nil some
  refine ⟨?_, ?_, ?_⟩
  · intro isRegular
    have := regular longer inside isRegular
    omega
  · intro stray
    have := stray.length
    omega
  · intro comment
    exact single (comment.trans inside)

/-! ## What is read -/

theorem decimalValue_eq (digits : List Char) : decimalValue digits = placeValue digits := by
  unfold decimalValue
  induction digits with
  | nil => rfl
  | cons c rest ih =>
    rw [Nat.ofDigitChars_cons, Nat.ofDigitChars_eq_ofDigitChars_zero, ih, placeValue]
    ring

theorem mark_munch (line : Nat) {m : Mark} {behind : List Char}
    (found : (Mark.all.find? fun m' => m'.spelling.isPrefixOf (m.spelling ++ behind)) = some m)
    (single : ¬ ['/', '/'] <+: m.spelling ++ behind) :
    Munch m.spelling behind (.ok ⟨.mark m, String.ofList m.spelling, line⟩) := by
  have some : m.spelling ≠ [] := List.ne_nil_of_length_pos m.spelling_length_pos
  obtain ⟨noDigits, noWord⟩ := m.no_run (List.prefix_append m.spelling behind)
  constructor
  · simp [itemText]
  · rfl
  · apply longest_of_regular some single
    intro longer inside regular
    rcases regular with ⟨other, rfl⟩ | digits | word
    · exact Mark.length_le_of_found found inside
    · exact absurd digits (m.no_run inside).1
    · exact absurd word (m.no_run inside).2
  · intro word
    exact absurd word noWord
  · intro digits
    exact absurd digits noDigits
  · intro digits
    exact absurd digits noDigits

/-- What begins like a word or a number is no mark. -/
theorem IsRegular.of_continuesWord {slice : List Char} {c : Char} {tail : List Char}
    (regular : IsRegular slice) (split : slice = c :: tail) (continues : continuesWord c) :
    IsDigits slice ∨ IsWord slice := by
  rcases regular with ⟨m, rfl⟩ | run
  · have other := m.spelling_head c (by rw [split]; rfl)
    rw [continues] at other
    cases other
  · exact run

theorem IsRegular.digits {c : Char} {tail : List Char} (regular : IsRegular (c :: tail))
    (digit : c.isDigit) : ∀ d ∈ c :: tail, d.isDigit := by
  rcases regular.of_continuesWord rfl (digit_continues digit) with digits | word
  · exact digits.2
  · rw [startsWord_not_digit word.first] at digit
    cases digit

theorem IsRegular.word {c : Char} {tail : List Char} (regular : IsRegular (c :: tail))
    (starts : startsWord c) : ∀ d ∈ c :: tail, continuesWord d := by
  rcases regular.of_continuesWord rfl (startsWord_continues starts) with digits | word
  · have digit := digits.first
    rw [startsWord_not_digit starts] at digit
    cases digit
  · exact word.continues

/-- The longest run of one class is the longest lexeme, if regular lexemes that begin like it are of
that class throughout. -/
theorem longest_of_run {p : Char → Bool} {c : Char} (first : p c) (noSlash : p '/' = false)
    (same : ∀ tail, IsRegular (c :: tail) → ∀ d ∈ c :: tail, p d) (rest : List Char) :
    IsLongest (c :: rest.takeWhile p) (rest.dropWhile p) := by
  have whole : c :: rest.takeWhile p ++ rest.dropWhile p = c :: rest :=
    congrArg (c :: ·) List.takeWhile_append_dropWhile
  apply longest_of_regular (List.cons_ne_nil c _)
  · intro comment
    rw [whole] at comment
    obtain ⟨rfl, _⟩ := List.cons_prefix_cons.mp comment
    rw [first] at noSlash
    cases noSlash
  · intro longer inside regular
    rw [whole] at inside
    cases longer with
    | nil => exact Nat.zero_le _
    | cons d tail =>
      obtain ⟨rfl, _⟩ := List.cons_prefix_cons.mp inside
      have run := length_le_takeWhile inside (same tail regular)
      rwa [List.takeWhile_cons_of_pos first] at run

section
variable (line : Nat) {c : Char} {rest : List Char}

/-- A run of digits is the integer that it stands for if that is in range, and else an error. -/
theorem integerToken_munch {slice behind : List Char} (digits : IsDigits slice)
    (longest : IsLongest slice behind) :
    Munch slice behind (integerToken line slice) := by
  have noWord := digits.not_word
  have bound : Int64.maxValue.toInt = 2 ^ 63 - 1 := by decide
  simp only [integerToken, decimalValue_eq]
  by_cases small : placeValue slice < 1 <<< 63
  · have value := Int64.toInt_ofNat_of_lt small
    rw [if_pos small]
    refine ⟨by simp [itemText], digits, longest, fun word => absurd word noWord, ?_, ?_⟩
    · intro _ n
      rw [← value, Int64.toInt_inj]
      constructor
      · intro same
        cases same
        rfl
      · rintro rfl
        rfl
    · intro _
      constructor
      · rintro ⟨e, error⟩
        cases error
      · intro large
        omega
  · rw [if_neg small]
    refine ⟨by simp [itemText], digits, longest, fun word => absurd word noWord, ?_, ?_⟩
    · intro _ n
      have inRange := n.toInt_lt
      constructor
      · intro same
        cases same
      · intro same
        omega
    · intro _
      have large : Int64.maxValue.toInt < placeValue slice := by omega
      exact ⟨fun _ => large, fun _ => ⟨_, rfl⟩⟩

theorem Keyword.ofText?_eq_some_iff {k : Keyword} {word : String} :
    Keyword.ofText? word = some k ↔ word = k.text := by
  constructor
  · intro found
    have spelled := List.find?_some found
    exact (beq_iff_eq.mp spelled).symm
  · rintro rfl
    cases k <;> rfl

/-- A word is a keyword if it is spelled like one, and else a name. -/
theorem wordToken_munch {slice behind : List Char} (word : IsWord slice)
    (longest : IsLongest slice behind) :
    Munch slice behind (.ok (wordToken line slice)) := by
  have noDigits : ¬ IsDigits slice := fun digits => digits.not_word word
  have spelled (k : Keyword) : Keyword.ofText? (String.ofList slice) = some k ↔
      slice = k.text.toList := by
    rw [Keyword.ofText?_eq_some_iff]
    constructor
    · intro same
      rw [← same, String.toList_ofList]
    · rintro rfl
      exact String.ofList_toList
  simp only [wordToken]
  cases found : Keyword.ofText? (String.ofList slice) with
  | some k =>
    refine ⟨by simp [itemText], word, longest, ?_, fun digits => absurd digits noDigits,
      fun digits => absurd digits noDigits⟩
    intro _ other
    rw [← spelled, found]
    simp [Except.map]
  | none =>
    refine ⟨by simp [itemText], word, longest, ?_, fun digits => absurd digits noDigits,
      fun digits => absurd digits noDigits⟩
    intro _ other
    rw [← spelled, found]
    simp [Except.map]

/-- A character that begins no regular lexeme is one of its own, since it is no layout either. -/
theorem stray_munch (blank : isBlank c = false) (other : c ≠ '\n')
    (noMark : (Mark.all.find? fun m => m.spelling.isPrefixOf (c :: rest)) = none)
    (noDigit : c.isDigit = false) (noWord : startsWord c = false) :
    Munch [c] rest (.ok ⟨.illegal, String.singleton c, line⟩) := by
  have irregular : ∀ tail, ¬ IsRegular (c :: tail) := by
    rintro tail (⟨m, spelled⟩ | digits | word)
    · obtain ⟨single, first⟩ := Mark.of_first spelled.symm
      have missed := List.find?_eq_none.mp noMark single (by cases single <;> decide)
      simp [first] at missed
    · rw [digits.first] at noDigit
      cases noDigit
    · rw [word.first] at noWord
      cases noWord
  have stray : IsStray [c] := by
    refine ⟨c, rfl, ?_, irregular⟩
    simp only [isBlank, Bool.or_eq_false_iff, beq_eq_false_iff_ne] at blank
    simp [blank, other]
  refine ⟨by simp [itemText], stray, ?_, ?_, ?_, ?_⟩
  · apply longest_of_regular (List.cons_ne_nil c [])
    · intro comment
      obtain ⟨rfl, _⟩ := List.cons_prefix_cons.mp comment
      exact irregular [] (.inl ⟨.slash, rfl⟩)
    · intro longer inside regular
      cases longer with
      | nil => exact Nat.zero_le _
      | cons d tail =>
        obtain ⟨rfl, _⟩ := List.cons_prefix_cons.mp inside
        exact absurd regular (irregular tail)
  · intro word
    exact absurd (.inr (.inr word)) (irregular [])
  · intro digits
    exact absurd (.inr (.inl digits)) (irregular [])
  · intro digits
    exact absurd (.inr (.inl digits)) (irregular [])

/-- What is read where no layout begins is as long as it can be. -/
theorem readLexeme_munch (other : c ≠ '\n') (solid : isBlank c = false)
    (single : c = '/' → rest.head? ≠ some '/') :
    Munch (itemText (readLexeme line c rest).1) (readLexeme line c rest).2
      (readLexeme line c rest).1 := by
  have noComment : ¬ ['/', '/'] <+: c :: rest := by
    intro comment
    obtain ⟨rfl, behind⟩ := List.cons_prefix_cons.mp comment
    obtain ⟨words, rfl⟩ := behind
    exact single rfl rfl
  unfold readLexeme
  split
  · next m found =>
    have starts := List.find?_some found
    obtain ⟨behind, split⟩ := List.isPrefixOf_iff_prefix.mp starts
    rw [← split] at found noComment
    rw [← split, List.drop_left]
    have munch := mark_munch line found noComment
    rw [munch.text]
    exact munch
  · next noMark =>
    by_cases digit : c.isDigit
    · have digits : IsDigits (c :: rest.takeWhile Char.isDigit) := by
        refine ⟨List.cons_ne_nil c _, ?_⟩
        intro d inside
        rcases List.mem_cons.mp inside with rfl | inside
        · exact digit
        · exact List.mem_takeWhile_imp inside
      have munch := integerToken_munch line digits
        (longest_of_run digit rfl (fun _ regular => regular.digits digit) rest)
      rw [if_pos digit, munch.text]
      exact munch
    · rw [if_neg digit]
      by_cases starts : startsWord c
      · have word : IsWord (c :: rest.takeWhile continuesWord) :=
          isWord_cons starts fun d inside => List.mem_takeWhile_imp inside
        have munch := wordToken_munch line word
          (longest_of_run (startsWord_continues starts) rfl
            (fun _ regular => regular.word starts) rest)
        rw [if_pos starts, munch.text]
        exact munch
      · have munch := stray_munch line solid other noMark (Bool.eq_false_iff.mpr digit)
          (Bool.eq_false_iff.mpr starts)
        rw [if_neg starts, munch.text]
        exact munch

end

/-! ## Items -/

/-- The items of what is left of a text are read from it, each as long as it can be. -/
theorem Source.items_munched (text : List Char) (line : Nat) :
    Munched text (Source.mk text line false).items := by
  have short := length_skipLayout_le false line text
  obtain ⟨gap, split, layout⟩ := layout_skipLayout line text
  match skip : skipLayout false line text with
  | (line', []) =>
    rw [skip] at split layout
    rw [List.append_nil] at split
    rw [Source.items_layout skip, split]
    exact .ending (by simpa using layout)
  | (line', c :: rest) =>
    rw [skip] at split layout short
    obtain ⟨solid, single⟩ := solid_skipLayout skip
    have munch := readLexeme_munch line' (head_skipLayout skip) solid single
    have lexeme := (readLexeme_isLexeme line' c rest).1.split
    have shorter : (readLexeme line' c rest).2.length < text.length := by
      have := length_readLexeme_le line' c rest
      simp only [List.length_cons] at short
      omega
    have more := Source.items_munched (readLexeme line' c rest).2 line'
    rw [Source.items_lexeme skip, split, lexeme]
    exact .item (by simpa using layout) munch more
termination_by text.length

/-- The scanner reads the longest lexeme everywhere. The slices of its items follow each other in
the text, but for layout between them. Each of them, up to the end of the text, is of the class that
its item says, and nothing longer that begins where it does is of any class, or begins a comment. A
word is a keyword if and only if it is spelled like one. A run of digits, with leading zeros or not,
is the integer that it stands for if that is in the 64-bit range. Otherwise it is an error, and
reading goes on right behind the run. -/
theorem scanner_munches (text : String) : Munched text.toList (Source.ofString text).items :=
  Source.items_munched text.toList 1

end Quasiquote
