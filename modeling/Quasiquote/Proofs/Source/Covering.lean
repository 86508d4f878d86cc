import Quasiquote.Proofs.Source.Seam

/-!
# What is scanned covers its text

* `Layout`: blanks, line ends, and comments up to the end of their line.
* `Covers`: items whose slices follow each other in a text with nothing but layout between them,
  each on the line that its slice starts on, and the end of the text behind them.
* `Source.items_covers`: so are the items of a text.
* `scanner_newline`: two texts with a line end between them have the items of the first, but for its
  end, and then those of the second, further down.
-/

namespace Quasiquote

/-- Blanks, line ends and comments. A comment runs up to a line end, which is no part of it; the
last one in a text may run up to the end of the text. -/
inductive Layout (last : Prop) : List Char → Prop
  | nil : Layout last []
  | blank {c : Char} {text : List Char} (blank : c ∈ [' ', '\t', '\r', '\n'])
      (more : Layout last text) : Layout last (c :: text)
  | comment {words text : List Char} (oneLine : '\n' ∉ words) (more : Layout last ('\n' :: text)) :
      Layout last ('/' :: '/' :: words ++ '\n' :: text)
  | lastComment {words : List Char} (atEnd : last) (oneLine : '\n' ∉ words) :
      Layout last ('/' :: '/' :: words)

def itemText : Except LexicalError Token → List Char
  | .ok t => t.lexeme.toList
  | .error e => e.digits.toList

def itemLine : Except LexicalError Token → Nat
  | .ok t => t.line
  | .error e => e.line

/-- What is read from the head of a text: some of its characters, as a token that is not the end of
the text, or as an error if all of them are digits. -/
structure IsLexeme (text : List Char) (item : Except LexicalError Token) (rest : List Char) :
    Prop where
  split : text = itemText item ++ rest
  nonempty : itemText item ≠ []
  inner : ∀ t, item = .ok t → t.kind ≠ .eof
  digits : ∀ e, item = .error e → ∀ c ∈ itemText item, c.isDigit

/-- These items cover the rest of a text, whose beginning has been read: each is read from the text
behind some layout, on the line that is reached there, and the last is the end of the text. Lines
count from one. -/
inductive Covers : List Char → List Char → List (Except LexicalError Token) → Prop
  | ending {before gap : List Char} (layout : Layout True gap) :
      Covers before gap [.ok ⟨.eof, "", 1 + (before ++ gap).count '\n'⟩]
  | item {before gap text rest : List Char} {item : Except LexicalError Token}
      {items : List (Except LexicalError Token)} (layout : Layout False gap)
      (lexeme : IsLexeme text item rest) (line : itemLine item = 1 + (before ++ gap).count '\n')
      (more : Covers (before ++ gap ++ itemText item) rest items) :
      Covers before (gap ++ text) (item :: items)

/-! ## Layout is skipped -/

section
variable (line : Nat)

theorem skipLayout_lineEnd (rest : List Char) :
    skipLayout false line ('\n' :: rest) = skipLayout false (line + 1) rest := by
  simp [skipLayout]

theorem skipLayout_blank {c : Char} (blank : isBlank c) (rest : List Char) :
    skipLayout false line (c :: rest) = skipLayout false line rest := by
  have other : c ≠ '\n' := by
    rintro rfl
    cases blank
  simp [skipLayout, other, blank]

theorem skipLayout_slashes (rest : List Char) :
    skipLayout false line ('/' :: '/' :: rest) = skipLayout true line rest := by
  simp [skipLayout, isBlank]

/-- A comment is skipped up to the end of its line or of the text. -/
theorem skipLayout_comment (text : List Char) :
    skipLayout true line text = skipLayout false line (text.dropWhile (· != '\n')) := by
  induction text with
  | nil => rfl
  | cons c rest ih =>
    by_cases ends : c = '\n'
    · simp [skipLayout, ends]
    · simp [skipLayout, ends, ih]

theorem skipLayout_solid {c : Char} {rest : List Char} (other : c ≠ '\n')
    (solid : isBlank c = false) (single : c = '/' → rest.head? ≠ some '/') :
    skipLayout false line (c :: rest) = (line, c :: rest) := by
  have noComment : ¬ (c = '/' && rest.head? == some '/') := by simpa using single
  simp [skipLayout, other, solid, noComment]

end

theorem layout_skipLayout (line : Nat) (text : List Char) :
    ∃ gap, text = gap ++ (skipLayout false line text).2 ∧
      Layout ((skipLayout false line text).2 = []) gap := by
  match text with
  | [] => exact ⟨[], rfl, .nil⟩
  | c :: rest =>
    by_cases ends : c = '\n'
    · obtain ⟨gap, split, layout⟩ := layout_skipLayout (line + 1) rest
      subst ends
      rw [skipLayout_lineEnd]
      exact ⟨'\n' :: gap, congrArg ('\n' :: ·) split, .blank (by simp) layout⟩
    by_cases blank : isBlank c
    · obtain ⟨gap, split, layout⟩ := layout_skipLayout line rest
      rw [skipLayout_blank line blank]
      refine ⟨c :: gap, congrArg (c :: ·) split, .blank ?_ layout⟩
      simp only [isBlank, Bool.or_eq_true, beq_iff_eq] at blank
      simp [or_assoc.symm, blank]
    by_cases slashes : c = '/' ∧ rest.head? = some '/'
    · obtain ⟨more, second⟩ := List.head?_eq_some_iff.mp slashes.2
      have words := List.takeWhile_append_dropWhile (p := (· != '\n')) (l := more)
      have oneLine : '\n' ∉ more.takeWhile (· != '\n') := fun inside => by
        simpa using List.mem_takeWhile_imp inside
      have ended := List.head?_dropWhile_not (· != '\n') more
      cases dropped : more.dropWhile (· != '\n') with
      | nil =>
        rw [dropped, List.append_nil] at words
        rw [words] at oneLine
        rw [slashes.1, second, skipLayout_slashes, skipLayout_comment, dropped]
        exact ⟨'/' :: '/' :: more, by simp [skipLayout], .lastComment rfl oneLine⟩
      | cons d behind =>
        rw [dropped] at words ended
        obtain rfl : d = '\n' := by simpa using ended
        have shorter : behind.length < rest.length := by
          rw [second, ← words]
          simp only [List.length_append, List.length_cons]
          omega
        obtain ⟨gap, split, layout⟩ := layout_skipLayout (line + 1) behind
        rw [slashes.1, second, skipLayout_slashes, skipLayout_comment, dropped, skipLayout_lineEnd]
        refine ⟨'/' :: '/' :: more.takeWhile (· != '\n') ++ '\n' :: gap, ?_,
          .comment oneLine (.blank (by simp) layout)⟩
        conv_lhs => rw [← words, split]
        simp
    · rw [skipLayout_solid line ends (by simpa using blank) fun eq => fun h => slashes ⟨eq, h⟩]
      exact ⟨[], rfl, .nil⟩
termination_by text.length

/-- What is left when layout has been skipped begins with none. -/
theorem solid_skipLayout {inComment : Bool} {line line' : Nat} {text rest : List Char} {c : Char}
    (skip : skipLayout inComment line text = (line', c :: rest)) :
    isBlank c = false ∧ (c = '/' → rest.head? ≠ some '/') := by
  induction text generalizing inComment line with
  | nil => cases skip
  | cons d text ih =>
    simp only [skipLayout] at skip
    split at skip
    · exact ih skip
    · split at skip
      · exact ih skip
      · next solid =>
        split at skip
        · exact ih skip
        · next single =>
          cases skip
          constructor
          · rw [Bool.not_eq_true, Bool.or_eq_false_iff] at solid
            exact solid.2
          · simpa using single

/-! ## Lexemes -/

theorem integerToken_isLexeme (line : Nat) {run : List Char} (some : run ≠ [])
    (digits : ∀ c ∈ run, c.isDigit) (rest : List Char) :
    IsLexeme (run ++ rest) (integerToken line run) rest ∧
      itemLine (integerToken line run) = line := by
  simp only [integerToken]
  split
  · exact ⟨⟨by simp [itemText], by simpa [itemText] using some, by simp, by simp⟩, rfl⟩
  · exact ⟨⟨by simp [itemText], by simpa [itemText] using some, by simp,
      by simpa [itemText] using digits⟩, rfl⟩

theorem token_isLexeme (kind : TokenKind) (line : Nat) {text : List Char} (some : text ≠ [])
    (inner : kind ≠ .eof) (rest : List Char) :
    IsLexeme (text ++ rest) (.ok ⟨kind, String.ofList text, line⟩) rest := by
  constructor
  · simp [itemText]
  · simpa [itemText] using some
  · rintro t ⟨⟩
    exact inner
  · nofun

theorem wordToken_isLexeme (line : Nat) {word : List Char} (some : word ≠ [])
    (rest : List Char) :
    IsLexeme (word ++ rest) (.ok (wordToken line word)) rest ∧
      (wordToken line word).line = line := by
  simp only [wordToken]
  split
  · exact ⟨token_isLexeme _ line some (by simp) rest, rfl⟩
  · exact ⟨token_isLexeme _ line some (by simp) rest, rfl⟩

/-- What is read is a lexeme of the text, on the line that it is read on. -/
theorem readLexeme_isLexeme (line : Nat) (c : Char) (rest : List Char) :
    IsLexeme (c :: rest) (readLexeme line c rest).1 (readLexeme line c rest).2 ∧
      itemLine (readLexeme line c rest).1 = line := by
  simp only [readLexeme]
  split
  · next m found =>
    have starts := List.find?_some found
    obtain ⟨behind, split⟩ := List.isPrefixOf_iff_prefix.mp starts
    have some : m.spelling ≠ [] := List.ne_nil_of_length_pos m.spelling_length_pos
    rw [← split, List.drop_left]
    exact ⟨token_isLexeme _ line some (by simp) behind, rfl⟩
  · split
    · next digit =>
      have run : c :: rest = c :: rest.takeWhile Char.isDigit ++ rest.dropWhile Char.isDigit := by
        simp [List.takeWhile_append_dropWhile]
      rw [run]
      apply integerToken_isLexeme line (List.cons_ne_nil _ _)
      intro d inside
      rcases List.mem_cons.mp inside with rfl | inside
      · exact digit
      · exact List.mem_takeWhile_imp inside
    · split
      · have word : c :: rest =
            c :: rest.takeWhile continuesWord ++ rest.dropWhile continuesWord := by
          simp [List.takeWhile_append_dropWhile]
        rw [word]
        exact wordToken_isLexeme line (List.cons_ne_nil _ _) _
      · exact ⟨token_isLexeme .illegal line (List.cons_ne_nil c []) (by simp) rest, rfl⟩

/-! ## Items -/

/-- The items of what is left of a text cover it. -/
theorem Source.items_covers (before text : List Char) :
    Covers before text (Source.mk text (1 + before.count '\n') false).items := by
  have count := count_skipLayout false (1 + before.count '\n') text
  have short := length_skipLayout_le false (1 + before.count '\n') text
  obtain ⟨gap, split, layout⟩ := layout_skipLayout (1 + before.count '\n') text
  match skip : skipLayout false (1 + before.count '\n') text with
  | (line, []) =>
    rw [skip] at count split layout
    obtain rfl : text = gap := by simpa using split
    have here : line = 1 + (before ++ text).count '\n' := by
      simp only [List.count_nil, List.count_append] at count ⊢
      omega
    rw [Source.items_layout skip, here]
    exact .ending (by simpa using layout)
  | (line, c :: rest) =>
    rw [skip] at count split layout short
    obtain ⟨lexeme, same⟩ := readLexeme_isLexeme line c rest
    have other := head_skipLayout skip
    have here : line = 1 + (before ++ gap).count '\n' := by
      conv at count => rhs; rw [split, List.count_append]
      rw [List.count_append]
      omega
    have behind : line = 1 + (before ++ gap ++ itemText (readLexeme line c rest).1).count '\n' := by
      have inside := congrArg (List.count '\n') lexeme.split
      rw [List.count_append, List.count_cons_of_ne other, count_readLexeme other] at inside
      rw [List.count_append, ← Nat.add_assoc, ← here]
      omega
    have shorter : (readLexeme line c rest).2.length < text.length := by
      have := length_readLexeme_le line c rest
      simp only [List.length_cons] at short
      omega
    have more := Source.items_covers (before ++ gap ++ itemText (readLexeme line c rest).1)
      (readLexeme line c rest).2
    rw [← behind] at more
    rw [Source.items_lexeme skip, split]
    exact .item (by simpa using layout) lexeme (same.trans here) more
termination_by text.length

/-! ## Line ends -/

/-- Items that cover a text end with its end, on its last line, and it is nowhere before that. -/
theorem Covers.ends {before text : List Char} {items : List (Except LexicalError Token)}
    (h : Covers before text items) :
    ∃ inner, items = inner ++ [.ok ⟨.eof, "", 1 + (before ++ text).count '\n'⟩] ∧
      ∀ t, .ok t ∈ inner → t.kind ≠ .eof := by
  induction h with
  | ending layout => exact ⟨[], rfl, nofun⟩
  | @item before gap text rest item items layout lexeme line more ih =>
    obtain ⟨inner, split, only⟩ := ih
    refine ⟨item :: inner, ?_, ?_⟩
    · rw [split, lexeme.split]
      simp
    · intro t inside
      rcases List.mem_cons.mp inside with first | inside
      · exact lexeme.inner t first.symm
      · exact only t inside

/-- Scanning goes over a line end one text at a time. Whatever the two texts are, with comments,
marks or errors left unfinished in the first, what is scanned from them with a line end in between
is what is scanned from the first up to its end, and then all that is scanned from the second, each
item as many lines further down as the first text and the line end take up. -/
theorem scanner_newline (first rest : String) :
    ∃ inner, (∀ t, .ok t ∈ inner → t.kind ≠ .eof) ∧
      (Source.ofString first).items =
        inner ++ [.ok ⟨.eof, "", 1 + first.toList.count '\n'⟩] ∧
      (Source.ofString (first ++ "\n" ++ rest)).items =
        inner ++ (Source.ofString rest).items.map (itemBelow (first.toList.count '\n' + 1)) := by
  obtain ⟨inner, ends, only⟩ := (Source.items_covers [] first.toList).ends
  have text : (first ++ "\n" ++ rest).toList = first.toList ++ '\n' :: rest.toList := by simp
  have scanned : (Source.mk first.toList 1 false).items.dropLast = inner :=
    (congrArg List.dropLast ends).trans List.dropLast_concat
  have below := Source.items_below (first.toList.count '\n' + 1) rest.toList 1
  refine ⟨inner, only, ends, ?_⟩
  unfold Source.ofString
  rw [text, Source.items_newline, scanned, Nat.add_assoc, below]

/-- An unfinished comment ends with its line, and the error behind it is on the line behind it. -/
example : (Source.ofString "a // (\n9223372036854775808").items =
    [.ok ⟨.identifier, "a", 1⟩, .error ⟨2, "9223372036854775808"⟩, .ok ⟨.eof, "", 2⟩] := by
  decide +kernel

end Quasiquote
