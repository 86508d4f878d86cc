import Quasiquote.Proofs.Reading.Terminal

/-!
# Scanning a text piece by piece

What a text scans to, from its end to its beginning: a lexeme before a text adds its terminal to
those of the text, if the text does not go on with that lexeme.

* `Scans`: the terminals that a text scans to, from any line.
* `Breaks`, `Calm`: the texts that go on with no word, and with no mark.
* `Scans.blank`, `Scans.mark`, `Scans.keyword`, `Scans.name`, `Scans.natural`: what may stand before
  a text.
* `Token.ofText_proper`: what the tokens of a text can be.
-/

namespace Quasiquote

theorem Source.items_eq (s : Source) :
    s.items = match s.next? with
      | none => []
      | some (item, s') => item :: s'.items := by
  rw [Source.items]
  split
  · next h => rw [h]
  · next h => rw [h]

theorem Source.items_cons {s s' : Source} {item : Except LexicalError Token}
    (h : s.next? = some (item, s')) : s.items = item :: s'.items := by
  rw [Source.items_eq, h]

theorem Source.items_layout {text : List Char} {line line' : Nat}
    (skip : skipLayout false line text = (line', [])) :
    (Source.mk text line false).items = [.ok ⟨.eof, "", line'⟩] := by
  have next : (Source.mk text line false).next? =
      some (.ok ⟨.eof, "", line'⟩, ⟨[], line', true⟩) := by
    simp only [Source.next?, skip]
    rfl
  rw [Source.items_cons next, Source.items_eq]
  rfl

theorem Source.items_lexeme {c : Char} {text rest : List Char} {line line' : Nat}
    (skip : skipLayout false line text = (line', c :: rest)) :
    (Source.mk text line false).items =
      (readLexeme line' c rest).1 :: (Source.mk (readLexeme line' c rest).2 line' false).items := by
  refine Source.items_cons ?_
  simp only [Source.next?, skip]
  rfl

theorem allOrFirstError_ok {ε α : Type} (xs : List α) :
    allOrFirstError (xs.map .ok : List (Except ε α)) = .ok xs := by
  induction xs with
  | nil => rfl
  | cons x xs ih => simp [allOrFirstError, ih, Except.map]

/-- From any line, the text is without errors and has these terminals before its end. -/
def Scans (text : List Char) (ss : List Terminal) : Prop :=
  ∀ line, ∃ tokens last, (Source.mk text line false).items = (tokens ++ [last]).map .ok ∧
    last.kind = .eof ∧ tokens.map Token.terminal = ss

/-- No word goes on with this text. -/
def Breaks (text : List Char) : Prop := ∀ c ∈ text.head?, continuesWord c = false

/-- No mark goes on with this text. -/
def Calm (text : List Char) : Prop := ∀ c ∈ text.head?, c ≠ '=' ∧ c ≠ '/'

theorem breaks_cons {c : Char} {rest : List Char} (h : continuesWord c = false) :
    Breaks (c :: rest) := by
  rintro _ ⟨⟩
  exact h

theorem calm_cons {c : Char} {rest : List Char} (h : c ≠ '=' ∧ c ≠ '/') : Calm (c :: rest) := by
  rintro _ ⟨⟩
  exact h

theorem calm_word {c : Char} {rest : List Char} (h : continuesWord c) : Calm (c :: rest) := by
  refine calm_cons ?_
  constructor <;> rintro rfl <;> cases h

def isName (word : String) : Bool :=
  match word.toList with
  | [] => false
  | c :: rest => startsWord c && rest.all continuesWord && (Keyword.ofText? word).isNone

theorem isName_spelled {id : String} (h : isName id) :
    ∃ c w, id.toList = c :: w ∧ startsWord c ∧ (∀ d ∈ w, continuesWord d) ∧
      Keyword.ofText? id = none := by
  unfold isName at h
  cases hid : id.toList with
  | nil => simp [hid] at h
  | cons c w =>
    simp only [hid, Bool.and_eq_true, List.all_eq_true, Option.isNone_iff_eq_none] at h
    exact ⟨c, w, rfl, h.1.1, h.1.2, h.2⟩

theorem startsWord_continues {c : Char} (h : startsWord c) : continuesWord c := by
  simp only [startsWord, continuesWord, Char.isAlphanum, Bool.or_eq_true] at h ⊢
  exact h.imp_left .inl

theorem startsWord_not_digit {c : Char} (h : startsWord c) : c.isDigit = false := by
  rw [Bool.eq_false_iff]
  intro digit
  have le : c.toNat ≤ 57 := (Char.isDigit_iff_toNat.mp digit).2
  simp only [startsWord, Char.isAlpha, Char.isUpper, Char.isLower, Bool.or_eq_true,
    Bool.and_eq_true, decide_eq_true_eq, beq_iff_eq, ge_iff_le, UInt32.le_iff_toNat_le] at h
  rcases h with (⟨h, _⟩ | ⟨h, _⟩) | rfl
  · have : 65 ≤ c.toNat := h
    omega
  · have : 97 ≤ c.toNat := h
    omega
  · cases digit

theorem digit_continues {c : Char} (h : c.isDigit) : continuesWord c := by
  simp [continuesWord, Char.isAlphanum, h]

theorem toString_spelled (n : Nat) :
    ∃ c run, (toString n).toList = c :: run ∧ c.isDigit ∧ ∀ d ∈ run, d.isDigit := by
  have all : ∀ c ∈ Nat.toDigits 10 n, c.isDigit := fun c =>
    Nat.isDigit_of_mem_toDigits (by decide) (by decide)
  rw [Nat.toString_eq_ofList_toDigits, String.toList_ofList]
  cases hd : Nat.toDigits 10 n with
  | nil => exact absurd hd Nat.toDigits_ne_nil
  | cons c run =>
    rw [hd] at all
    exact ⟨c, run, rfl, all c List.mem_cons_self, fun d hd => all d (List.mem_cons_of_mem c hd)⟩

theorem decimalValue_toString (n : Nat) : decimalValue (toString n).toList = n := by
  rw [Nat.toString_eq_ofList_toDigits, String.toList_ofList]
  exact Nat.ofDigitChars_ten_toDigits

theorem Breaks.isDigit {text : List Char} (h : Breaks text) :
    ∀ c ∈ text.head?, c.isDigit = false := by
  intro c hc
  cases digit : c.isDigit with
  | false => rfl
  | true => exact absurd (digit_continues digit) (by simp [h c hc])

theorem ne_of_continuesWord {c d : Char} (hc : continuesWord c) (hd : continuesWord d = false) :
    c ≠ d := by
  rintro rfl
  exact Bool.false_ne_true (hd.symm.trans hc)

/-- No layout starts like a word or a number. -/
theorem skipLayout_of_continuesWord {c : Char} (h : continuesWord c) (line : Nat)
    (text : List Char) : skipLayout false line (c :: text) = (line, c :: text) := by
  have ne {d : Char} : continuesWord d = false → c ≠ d := ne_of_continuesWord h
  have end' : c ≠ '\n' := ne (by decide)
  have blank : isBlank c = false := by
    simp only [isBlank, Bool.or_eq_false_iff, beq_eq_false_iff_ne]
    exact ⟨⟨ne (by decide), ne (by decide)⟩, ne (by decide)⟩
  have slash : c ≠ '/' := ne (by decide)
  simp [skipLayout, end', blank, slash]

theorem Mark.spelling_head (m : Mark) : ∀ c ∈ m.spelling.head?, continuesWord c = false := by
  cases m <;> rintro _ ⟨⟩ <;> rfl

/-- No mark starts like a word or a number. -/
theorem Mark.none_of_continuesWord {c : Char} (h : continuesWord c) (text : List Char) :
    (Mark.all.find? fun m => m.spelling.isPrefixOf (c :: text)) = none := by
  rw [List.find?_eq_none]
  intro m _ found
  have first := m.spelling_head
  cases hm : m.spelling with
  | nil => simpa [hm] using m.spelling_length_pos
  | cons d ds =>
    rw [hm] at found first
    simp only [List.isPrefixOf, Bool.and_eq_true, beq_iff_eq] at found
    rw [first c (by simp [found.1])] at h
    cases h

/-- A mark is found before a text that it does not go on with. -/
theorem Mark.find?_spelling (m : Mark) {text : List Char} (calm : Calm text) :
    (Mark.all.find? fun other => other.spelling.isPrefixOf (m.spelling ++ text)) = some m := by
  have noEqual : (['='].isPrefixOf text) = false := by
    cases text with
    | nil => rfl
    | cons c text => simpa [List.isPrefixOf] using Ne.symm (calm c rfl).1
  cases m <;> simp only [Mark.all, List.find?_cons] <;>
    simp [Mark.spelling, List.isPrefixOf, noEqual]

theorem takeWhile_run {p : Char → Bool} {run rest : List Char} (inside : ∀ c ∈ run, p c)
    (ends : ∀ c ∈ rest.head?, p c = false) : (run ++ rest).takeWhile p = run := by
  rw [List.takeWhile_append_of_pos inside]
  cases rest with
  | nil => simp
  | cons c rest => simp [ends c rfl]

theorem dropWhile_run {p : Char → Bool} {run rest : List Char} (inside : ∀ c ∈ run, p c)
    (ends : ∀ c ∈ rest.head?, p c = false) : (run ++ rest).dropWhile p = rest := by
  rw [List.dropWhile_append_of_pos inside]
  cases rest with
  | nil => rfl
  | cons c rest => simp [ends c rfl]

theorem readLexeme_word {c : Char} {w rest : List Char} (line : Nat) (starts : startsWord c)
    (continues : ∀ d ∈ w, continuesWord d) (breaks : Breaks rest) :
    readLexeme line c (w ++ rest) = (.ok (wordToken line (c :: w)), rest) := by
  simp only [readLexeme, Mark.none_of_continuesWord (startsWord_continues starts),
    startsWord_not_digit starts, starts, takeWhile_run continues breaks,
    dropWhile_run continues breaks]
  rfl

theorem readLexeme_digits {c : Char} {run rest : List Char} (line : Nat) (first : c.isDigit)
    (more : ∀ d ∈ run, d.isDigit) (breaks : Breaks rest) :
    readLexeme line c (run ++ rest) = (integerToken line (c :: run), rest) := by
  simp only [readLexeme, Mark.none_of_continuesWord (digit_continues first), first,
    takeWhile_run more breaks.isDigit, dropWhile_run more breaks.isDigit]
  rfl

namespace Scans

variable {text rest : List Char} {ss : List Terminal}

theorem nil : Scans [] [] := fun _ => ⟨[], _, Source.items_layout rfl, rfl, rfl⟩

theorem blank (h : Scans text ss) : Scans (' ' :: text) ss := by
  intro line
  have skip : (Source.mk (' ' :: text) line false).items = (Source.mk text line false).items := by
    rw [Source.items_eq, Source.items_eq ⟨text, line, false⟩]
    simp [Source.next?, skipLayout, isBlank]
  rw [skip]
  exact h line

theorem lexeme {c : Char} {s : Terminal} (h : Scans rest ss)
    (solid : ∀ line, skipLayout false line (c :: text) = (line, c :: text))
    (read : ∀ line, ∃ t, readLexeme line c text = (.ok t, rest) ∧ t.terminal = s) :
    Scans (c :: text) (s :: ss) := by
  intro line
  obtain ⟨t, lexeme, terminal⟩ := read line
  obtain ⟨tokens, last, items, ends, terminals⟩ := h line
  refine ⟨t :: tokens, last, ?_, ends, by rw [List.map_cons, terminal, terminals]⟩
  rw [Source.items_lexeme (solid line), lexeme, items]
  rfl

theorem mark (m : Mark) (h : Scans rest ss) (calm : Calm rest) :
    Scans (m.spelling ++ rest) (.mark m :: ss) := by
  have found := m.find?_spelling calm
  have solid : ∀ line, skipLayout false line (m.spelling ++ rest) = (line, m.spelling ++ rest) := by
    have noSlash : rest.head? ≠ some '/' := fun h => (calm '/' h).2 rfl
    intro line
    cases m <;> simp [Mark.spelling, skipLayout, isBlank, noSlash]
  have length := @List.drop_left Char m.spelling rest
  have lexed (line : Nat) (c : Char) (text : List Char) (hm : m.spelling ++ rest = c :: text) :
      readLexeme line c text = (.ok ⟨.mark m, String.ofList m.spelling, line⟩, rest) := by
    rw [hm] at found length
    simp [readLexeme, found, length]
  cases hm : m.spelling ++ rest with
  | nil => simpa [(List.append_eq_nil_iff.mp hm).1] using m.spelling_length_pos
  | cons c text =>
    rw [hm] at solid
    exact h.lexeme solid fun line => ⟨_, lexed line c text hm, rfl⟩

theorem word {c : Char} {w : List Char} {s : Terminal} (starts : startsWord c)
    (continues : ∀ d ∈ w, continuesWord d) (same : ∀ line, (wordToken line (c :: w)).terminal = s)
    (h : Scans rest ss) (breaks : Breaks rest) : Scans (c :: w ++ rest) (s :: ss) :=
  h.lexeme (fun line => skipLayout_of_continuesWord (startsWord_continues starts) line _)
    fun line => ⟨_, readLexeme_word line starts continues breaks, same line⟩

theorem digits {c : Char} {run : List Char} (first : c.isDigit) (more : ∀ d ∈ run, d.isDigit)
    (small : decimalValue (c :: run) < 2 ^ 63) (h : Scans rest ss) (breaks : Breaks rest) :
    Scans (c :: run ++ rest) (.integer (Int64.ofNat (decimalValue (c :: run))) :: ss) := by
  have token (line : Nat) : integerToken line (c :: run) =
      .ok ⟨.integer (Int64.ofNat (decimalValue (c :: run))), .ofList (c :: run), line⟩ :=
    if_pos small
  exact h.lexeme (fun line => skipLayout_of_continuesWord (digit_continues first) line _)
    fun line => ⟨_, (readLexeme_digits line first more breaks).trans (by rw [token line]), rfl⟩

theorem name {id : String} (hid : isName id) (h : Scans rest ss) (breaks : Breaks rest) :
    Scans (id.toList ++ rest) (.name id :: ss) := by
  obtain ⟨c, w, spelled, starts, continues, noKeyword⟩ := isName_spelled hid
  rw [spelled]
  refine word starts continues (fun line => ?_) h breaks
  rw [← spelled]
  simp [wordToken, noKeyword, Token.terminal]

theorem keyword (k : Keyword) (h : Scans rest ss) (breaks : Breaks rest) :
    Scans (k.text.toList ++ rest) (.keyword k :: ss) := by
  have spelled : ∃ c w, k.text.toList = c :: w ∧ startsWord c ∧ w.all continuesWord ∧
      Keyword.ofText? (.ofList (c :: w)) = some k := by
    cases k <;> exact ⟨_, _, rfl, rfl, rfl, rfl⟩
  obtain ⟨c, w, hc, starts, continues, found⟩ := spelled
  rw [hc]
  refine word starts (List.all_eq_true.mp continues) (fun line => ?_) h breaks
  simp only [wordToken, found, Token.terminal]

theorem natural {n : Nat} (small : n < 2 ^ 63) (h : Scans rest ss) (breaks : Breaks rest) :
    Scans ((toString n).toList ++ rest) (.integer (Int64.ofNat n) :: ss) := by
  have value := decimalValue_toString n
  obtain ⟨c, run, spelled, first, more⟩ := toString_spelled n
  rw [spelled] at value ⊢
  have scans := digits first more (value.symm ▸ small) h breaks
  rwa [value] at scans

end Scans

/-- A text without errors has its tokens. -/
theorem Scans.ofText {text : String} {ss : List Terminal} (h : Scans text.toList ss) :
    ∃ tokens last, Token.ofText text = .ok (tokens ++ [last]) ∧ last.kind = .eof ∧
      tokens.map Token.terminal = ss := by
  obtain ⟨tokens, last, items, ends, terminals⟩ := h 1
  refine ⟨tokens, last, ?_, ends, terminals⟩
  rw [Token.ofText, Source.ofString, items, allOrFirstError_ok]

/-- Whether a text can have this terminal: its names are no keywords, and a minus sign is no part of
a number. -/
def Terminal.isProper : Terminal → Bool
  | .name id => isName id
  | .integer n => 0 ≤ n
  | .eof => false
  | _ => true

theorem wordToken_proper {c : Char} {w : List Char} (line : Nat) (starts : startsWord c)
    (continues : ∀ d ∈ w, continuesWord d) : (wordToken line (c :: w)).terminal.isProper := by
  cases found : Keyword.ofText? (.ofList (c :: w)) with
  | some k =>
    simp only [wordToken, found]
    rfl
  | none =>
    have name : isName (.ofList (c :: w)) := by
      simp only [isName, String.toList_ofList, starts, found, Bool.true_and, Option.isNone_none,
        Bool.and_true, List.all_eq_true]
      exact continues
    simp only [wordToken, found]
    exact name

theorem integerToken_proper {digits : List Char} {line : Nat} {t : Token}
    (h : integerToken line digits = .ok t) : t.terminal.isProper := by
  simp only [integerToken] at h
  split at h
  · next small =>
    cases h
    have nonneg : (0 : Int64) ≤ Int64.ofNat (decimalValue digits) := by
      rw [Int64.le_iff_toInt_le, Int64.toInt_ofNat_of_lt small, Int64.toInt_zero]
      exact Int.natCast_nonneg _
    exact decide_eq_true nonneg
  · cases h

theorem readLexeme_proper {line : Nat} {c : Char} {text : List Char} {t : Token}
    (h : (readLexeme line c text).1 = .ok t) : t.terminal.isProper := by
  unfold readLexeme at h
  split at h
  · cases h
    rfl
  · split at h
    · exact integerToken_proper h
    · split at h
      · next starts =>
        cases h
        exact wordToken_proper line starts (List.all_eq_true.mp List.all_takeWhile)
      · cases h
        rfl

theorem Source.items_proper (text : List Char) (line : Nat) {tokens : List Token}
    (h : allOrFirstError (Source.mk text line false).items = .ok tokens) :
    ∃ body last, tokens = body ++ [last] ∧ last.kind = .eof ∧
      ∀ t ∈ body, t.terminal.isProper := by
  have short := length_skipLayout_le false line text
  match skip : skipLayout false line text with
  | (line', []) =>
    rw [Source.items_layout skip] at h
    cases h
    exact ⟨[], _, rfl, rfl, nofun⟩
  | (line', c :: rest) =>
    have shorter : (readLexeme line' c rest).2.length < text.length := by
      have := length_readLexeme_le line' c rest
      rw [skip] at short
      simp only [List.length_cons] at short
      omega
    rw [Source.items_lexeme skip] at h
    cases read : (readLexeme line' c rest).1 with
    | error e =>
      rw [read] at h
      cases h
    | ok t =>
      rw [read] at h
      cases more : allOrFirstError (Source.mk (readLexeme line' c rest).2 line' false).items with
      | error e => simp [allOrFirstError, more, Except.map] at h
      | ok others =>
        obtain ⟨body, last, rfl, ends, proper⟩ := Source.items_proper _ _ more
        simp only [allOrFirstError, more, Except.map] at h
        cases h
        refine ⟨t :: body, last, rfl, ends, ?_⟩
        rintro u (_ | ⟨_, hu⟩)
        · exact readLexeme_proper read
        · exact proper u hu
termination_by text.length

/-- Tokens of a text end with its end, and those before it have proper names and no signs. -/
theorem Token.ofText_proper {text : String} {tokens : List Token}
    (h : Token.ofText text = .ok tokens) :
    ∃ body last, tokens = body ++ [last] ∧ last.kind = .eof ∧
      ∀ t ∈ body, t.terminal.isProper := Source.items_proper _ _ h

end Quasiquote
