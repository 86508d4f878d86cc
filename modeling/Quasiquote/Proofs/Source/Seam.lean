import Quasiquote.Proofs.Source.Scanning

/-!
# Scanning across the end of a line

* `Token.below`, `LexicalError.below`, `itemBelow`: what is scanned, some lines further down.
* `Source.items_below`: a text further down has the same items further down.
* `Source.items_newline`: a line end between two texts keeps their items apart, whatever stands
  before and behind it.
-/

namespace Quasiquote

def Token.below (lines : Nat) (t : Token) : Token := { t with line := t.line + lines }

def LexicalError.below (lines : Nat) (e : LexicalError) : LexicalError :=
  { e with line := e.line + lines }

def itemBelow (lines : Nat) : Except LexicalError Token → Except LexicalError Token
  | .ok t => .ok (t.below lines)
  | .error e => .error (e.below lines)

@[simp] theorem Token.terminal_below (lines : Nat) (t : Token) :
    (t.below lines).terminal = t.terminal := rfl

@[simp] theorem Token.kind_below (lines : Nat) (t : Token) : (t.below lines).kind = t.kind := rfl

/-! ## Further down -/

theorem skipLayout_below (lines : Nat) (inComment : Bool) (line : Nat) (text : List Char) :
    skipLayout inComment (line + lines) text =
      ((skipLayout inComment line text).1 + lines, (skipLayout inComment line text).2) := by
  induction text generalizing inComment line with
  | nil => rfl
  | cons c rest ih =>
    have next : line + lines + 1 = line + 1 + lines := by omega
    simp only [skipLayout, next, ih]
    split
    · rfl
    · split
      · rfl
      · split <;> rfl

theorem integerToken_below (lines line : Nat) (digits : List Char) :
    integerToken (line + lines) digits = itemBelow lines (integerToken line digits) := by
  simp only [integerToken]
  split <;> rfl

theorem wordToken_below (lines line : Nat) (word : List Char) :
    wordToken (line + lines) word = (wordToken line word).below lines := by
  simp only [wordToken]
  split <;> rfl

theorem readLexeme_below (lines line : Nat) (c : Char) (rest : List Char) :
    readLexeme (line + lines) c rest =
      (itemBelow lines (readLexeme line c rest).1, (readLexeme line c rest).2) := by
  simp only [readLexeme, integerToken_below, wordToken_below]
  split
  · rfl
  · split
    · rfl
    · split <;> rfl

/-- A text further down has the same items, each so much further down. -/
theorem Source.items_below (lines : Nat) (text : List Char) (line : Nat) :
    (Source.mk text (line + lines) false).items =
      (Source.mk text line false).items.map (itemBelow lines) := by
  have skipped := skipLayout_below lines false line text
  have short := length_skipLayout_le false line text
  match skip : skipLayout false line text with
  | (line', []) =>
    rw [skip] at skipped
    rw [Source.items_layout skip, Source.items_layout skipped]
    rfl
  | (line', c :: rest) =>
    rw [skip] at skipped short
    have shorter : (readLexeme line' c rest).2.length < text.length := by
      have := length_readLexeme_le line' c rest
      simp only [List.length_cons] at short
      omega
    have read := readLexeme_below lines line' c rest
    rw [Source.items_lexeme skip, Source.items_lexeme skipped, read, List.map_cons,
      Source.items_below lines (readLexeme line' c rest).2 line']
termination_by text.length

/-! ## Line ends -/

theorem skipLayout_newline (inComment : Bool) (line : Nat) (text rest : List Char) :
    skipLayout inComment line (text ++ '\n' :: rest) =
      match skipLayout inComment line text with
      | (line', []) => skipLayout false (line' + 1) rest
      | (line', c :: text') => (line', c :: text' ++ '\n' :: rest) := by
  induction text generalizing inComment line with
  | nil => simp [skipLayout]
  | cons c text ih =>
    have slashes : ((text ++ '\n' :: rest).head? == some '/') = (text.head? == some '/') := by
      cases text <;> simp
    simp only [List.cons_append, skipLayout, slashes, ih]
    split
    · rfl
    · split
      · rfl
      · split <;> rfl

theorem takeWhile_newline {p : Char → Bool} (ends : p '\n' = false) (text rest : List Char) :
    (text ++ '\n' :: rest).takeWhile p = text.takeWhile p := by
  induction text with
  | nil => simp [ends]
  | cons c text ih => simp only [List.cons_append, List.takeWhile_cons, ih]

theorem dropWhile_newline {p : Char → Bool} (ends : p '\n' = false) (text rest : List Char) :
    (text ++ '\n' :: rest).dropWhile p = text.dropWhile p ++ '\n' :: rest := by
  induction text with
  | nil => simp [ends]
  | cons c text ih =>
    simp only [List.cons_append, List.dropWhile_cons, ih]
    split <;> rfl

/-- A line end is in no mark, and so it completes none. -/
theorem Mark.isPrefixOf_newline (m : Mark) (text rest : List Char) :
    m.spelling.isPrefixOf (text ++ '\n' :: rest) = m.spelling.isPrefixOf text := by
  match text with
  | [] => cases m <;> rfl
  | [c] => cases m <;> simp [Mark.spelling, List.isPrefixOf]
  | c :: d :: text => cases m <;> rfl

/-- A lexeme ends at the latest where a line does. -/
theorem readLexeme_newline (line : Nat) (c : Char) (text rest : List Char) :
    readLexeme line c (text ++ '\n' :: rest) =
      ((readLexeme line c text).1, (readLexeme line c text).2 ++ '\n' :: rest) := by
  have marks : (Mark.all.find? fun m => m.spelling.isPrefixOf (c :: (text ++ '\n' :: rest))) =
      Mark.all.find? fun m => m.spelling.isPrefixOf (c :: text) := by
    congr 1
    funext m
    exact m.isPrefixOf_newline (c :: text) rest
  simp only [readLexeme, marks]
  split
  · next m found =>
    have inside : m.spelling.length ≤ (c :: text).length := by
      have starts := List.find?_some found
      exact (List.isPrefixOf_iff_prefix.mp starts).length_le
    rw [← List.cons_append, List.drop_append_of_le_length inside]
  · simp only [takeWhile_newline (by decide : Char.isDigit '\n' = false),
      dropWhile_newline (by decide : Char.isDigit '\n' = false),
      takeWhile_newline (by decide : continuesWord '\n' = false),
      dropWhile_newline (by decide : continuesWord '\n' = false)]
    split
    · rfl
    · split <;> rfl

/-! ## Counting lines -/

theorem count_skipLayout (inComment : Bool) (line : Nat) (text : List Char) :
    (skipLayout inComment line text).1 + (skipLayout inComment line text).2.count '\n' =
      line + text.count '\n' := by
  induction text generalizing inComment line with
  | nil => rfl
  | cons c rest ih =>
    simp only [skipLayout]
    split
    · next ends =>
      rw [ih, ends, List.count_cons_self]
      omega
    · next more =>
      have same : (c :: rest).count '\n' = rest.count '\n' := List.count_cons_of_ne more
      split
      · rw [ih, same]
      · split
        · rw [ih, same]
        · rfl

theorem head_skipLayout {inComment : Bool} {line line' : Nat} {text rest : List Char} {c : Char}
    (skip : skipLayout inComment line text = (line', c :: rest)) : c ≠ '\n' := by
  induction text generalizing inComment line with
  | nil => cases skip
  | cons d text ih =>
    simp only [skipLayout] at skip
    split at skip
    · exact ih skip
    · next more =>
      split at skip
      · exact ih skip
      · split at skip
        · exact ih skip
        · cases skip
          exact more

theorem count_dropWhile {p : Char → Bool} (ends : p '\n' = false) (text : List Char) :
    (text.dropWhile p).count '\n' = text.count '\n' := by
  induction text with
  | nil => rfl
  | cons c text ih =>
    rw [List.dropWhile_cons]
    split
    · next inside =>
      have other : c ≠ '\n' := by
        rintro rfl
        exact Bool.false_ne_true (ends.symm.trans inside)
      rw [ih, List.count_cons_of_ne other]
    · rfl

/-- No lexeme has a line end in it. -/
theorem count_readLexeme {line : Nat} {c : Char} (other : c ≠ '\n') (rest : List Char) :
    (readLexeme line c rest).2.count '\n' = rest.count '\n' := by
  have head : (c :: rest).count '\n' = rest.count '\n' := List.count_cons_of_ne other
  simp only [readLexeme]
  split
  · next m found =>
    have starts := List.find?_some found
    obtain ⟨behind, split⟩ := List.isPrefixOf_iff_prefix.mp starts
    have none : m.spelling.count '\n' = 0 := by cases m <;> decide
    have whole : (c :: rest).count '\n' = behind.count '\n' := by
      rw [← split, List.count_append, none, Nat.zero_add]
    rw [← head, whole, ← split, List.drop_left]
  · split
    · exact count_dropWhile (by decide) rest
    · split
      · exact count_dropWhile (by decide) rest
      · rfl

/-! ## Both texts -/

theorem Source.items_ne_nil (text : List Char) (line : Nat) :
    (Source.mk text line false).items ≠ [] := by
  match skip : skipLayout false line text with
  | (line', []) => simp [Source.items_layout skip]
  | (line', c :: rest) => simp [Source.items_lexeme skip]

/-- A line end between two texts keeps their items apart. Those of the first come without its end,
and then those of the second, on the lines behind the first. -/
theorem Source.items_newline (text rest : List Char) (line : Nat) :
    (Source.mk (text ++ '\n' :: rest) line false).items =
      (Source.mk text line false).items.dropLast ++
        (Source.mk rest (line + text.count '\n' + 1) false).items := by
  have skipped := skipLayout_newline false line text rest
  have lines := count_skipLayout false line text
  have short := length_skipLayout_le false line text
  match skip : skipLayout false line text with
  | (line', []) =>
    rw [skip] at skipped lines
    have here : line' = line + text.count '\n' := lines
    have same : (Source.mk (text ++ '\n' :: rest) line false).items =
        (Source.mk rest (line' + 1) false).items := by
      rw [Source.items_eq, Source.items_eq ⟨rest, line' + 1, false⟩]
      simp only [Source.next?, skipped]
    rw [same, here, Source.items_layout skip]
    rfl
  | (line', c :: more) =>
    rw [skip] at skipped lines short
    have other := head_skipLayout skip
    have read := readLexeme_newline line' c more rest
    have count := @count_readLexeme line' c other more
    have shorter : (readLexeme line' c more).2.length < text.length := by
      have := length_readLexeme_le line' c more
      simp only [List.length_cons] at short
      omega
    have behind : line' + (readLexeme line' c more).2.count '\n' = line + text.count '\n' := by
      rw [count, ← lines]
      congr 1
      exact (List.count_cons_of_ne other).symm
    have first := Source.items_ne_nil (readLexeme line' c more).2 line'
    have ih := Source.items_newline (readLexeme line' c more).2 rest line'
    have skippedBoth : skipLayout false line (text ++ '\n' :: rest) =
        (line', c :: (more ++ '\n' :: rest)) := skipped
    rw [Source.items_lexeme skippedBoth, read, ih, behind, Source.items_lexeme skip,
      List.dropLast_cons_of_ne_nil first, List.cons_append]
termination_by text.length

theorem allOrFirstError_eq_ok_iff {ε α : Type} {outcomes : List (Except ε α)} {xs : List α} :
    allOrFirstError outcomes = .ok xs ↔ outcomes = xs.map .ok := by
  constructor
  · intro h
    induction outcomes generalizing xs with
    | nil =>
      cases h
      rfl
    | cons outcome rest ih =>
      cases outcome with
      | error e => cases h
      | ok x =>
        cases others : allOrFirstError rest with
        | error e => simp [allOrFirstError, others, Except.map] at h
        | ok ys =>
          simp only [allOrFirstError, others, Except.map] at h
          cases h
          simp [ih others]
  · rintro rfl
    exact allOrFirstError_ok xs

/-- Two texts without errors have the tokens of the first and then those of the second, on the lines
behind, if a line end stands between them. -/
theorem Token.ofText_newline {first rest : String} {tokens others : List Token} {last : Token}
    (scanned : Token.ofText first = .ok (tokens ++ [last]))
    (behind : Token.ofText rest = .ok others) :
    Token.ofText (first ++ "\n" ++ rest) =
      .ok (tokens ++ others.map (Token.below (first.toList.count '\n' + 1))) := by
  unfold Token.ofText Source.ofString at *
  rw [allOrFirstError_eq_ok_iff] at *
  have text : (first ++ "\n" ++ rest).toList = first.toList ++ '\n' :: rest.toList := by simp
  have below := Source.items_below (first.toList.count '\n' + 1) rest.toList 1
  rw [text, Source.items_newline, scanned, Nat.add_assoc, below, behind]
  simp [itemBelow, Function.comp_def]

end Quasiquote
