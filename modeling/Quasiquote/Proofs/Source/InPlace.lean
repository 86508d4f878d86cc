import Quasiquote.Proofs.Source.Covering
import Quasiquote.Proofs.Source.Cursor

/-!
# Texts are scanned in place

A cursor goes through the bytes of a text as a source goes through its characters: what is left to
read begins at the cursor.

* `Cursor.scanToken_utf8`: a turn sees the first byte of a character, and goes by the character.
* `Cursor.scanToken_reads`: where no layout begins, a turn reads the lexeme that `readLexeme` does;
  `Cursor.skipsLayout`: turns skip the layout that `skipLayout` does.
* `Cursor.next?_at`: a call gives what `Source.next?` does. `Cursor.calls_at`: so do all calls.
* `scanner_covers`: no call goes wrong, and what the calls give covers the text.
-/

namespace Quasiquote

namespace Cursor

/-! ## Bytes between two parts of a text -/

theorem length_utf8_ascii {c : Char} (ascii : c.toNat < 128) (before : List Char) :
    (utf8 (before ++ [c])).length = (utf8 before).length + 1 := by
  rw [length_utf8_append, utf8_cons, utf8EncodeChar_ascii ascii]
  rfl

theorem peek_utf8 (before rest : List Char) (c : Char) :
    peek (utf8 (before ++ c :: rest)) (utf8 before).length = firstByte c := by
  rw [peek, List.getD_eq_getElem?_getD, getElem?_utf8]
  rfl

theorem peek_end (before : List Char) : peek (utf8 before) (utf8 before).length = 0 := by
  simp [peek]

theorem matchesByte_utf8 {d : Char} (ascii : d.toNat < 128) (before rest : List Char) :
    matchesByte (utf8 (before ++ rest)) (utf8 before).length d = (rest.head? == some d) := by
  cases rest with
  | nil => simp [matchesByte]
  | cons c rest =>
    have inside : (utf8 before).length < (utf8 (before ++ c :: rest)).length := by
      have size := c.utf8Size_pos
      rw [length_utf8_append, length_utf8_cons]
      omega
    have same : (firstByte c == d.toUInt8) = (c == d) := by
      rw [Bool.eq_iff_iff, beq_iff_eq, beq_iff_eq, firstByte_eq_iff ascii]
    rw [matchesByte, peek_utf8, same, decide_eq_true inside]
    simp

theorem advanceWhile_utf8 {inside : Char → Bool} (ascii : Ascii inside)
    (zero : inside '\x00' = false) (before rest : List Char) :
    advanceWhile (utf8 (before ++ rest)) inside (utf8 before).length =
      some (utf8 (before ++ rest.takeWhile inside)).length := by
  induction rest generalizing before with
  | nil =>
    have noByte : inside (Char.ofUInt8 0) = false := zero
    rw [advanceWhile, List.append_nil, peek_end, noByte]
    simp
  | cons c rest ih =>
    have byte : inside (Char.ofUInt8 (firstByte c)) = inside c := ascii.firstChar_eq c
    rw [advanceWhile, peek_utf8, byte]
    cases here : inside c with
    | false => simp [here]
    | true =>
      have more : (utf8 before).length < (utf8 (before ++ c :: rest)).length := by
        have size := c.utf8Size_pos
        rw [length_utf8_append, length_utf8_cons]
        omega
      have next := ih (before ++ [c])
      rw [length_utf8_ascii (ascii c here), List.append_assoc, List.append_assoc] at next
      simp [here, more]
      simpa using next

/-! ## Classes of characters -/

theorem ascii_isDigit : Ascii Char.isDigit := by
  intro c digit
  exact Nat.lt_of_le_of_lt (Char.isDigit_iff_toNat.mp digit).2 (by decide)

theorem ascii_continuesWord : Ascii continuesWord := by
  intro c continues
  have value : c.val.toNat = c.toNat := rfl
  simp only [continuesWord, Char.isAlphanum, Char.isAlpha, Char.isUpper, Char.isLower,
    Char.isDigit, Bool.or_eq_true, Bool.and_eq_true, decide_eq_true_eq, beq_iff_eq, ge_iff_le,
    UInt32.le_iff_toNat_le, value] at continues
  rcases continues with ((⟨_, upper⟩ | ⟨_, lower⟩) | ⟨_, digit⟩) | rfl
  · exact Nat.lt_of_le_of_lt upper (by decide)
  · exact Nat.lt_of_le_of_lt lower (by decide)
  · exact Nat.lt_of_le_of_lt digit (by decide)
  · decide

theorem ascii_startsWord : Ascii startsWord :=
  fun c starts => ascii_continuesWord c (startsWord_continues starts)

theorem ascii_isBlank : Ascii isBlank := by
  intro c blank
  simp only [isBlank, Bool.or_eq_true, beq_iff_eq] at blank
  rcases blank with (rfl | rfl) | rfl <;> decide

theorem ascii_lineEnd : Ascii (· == '\n') := by
  intro c same
  rw [beq_iff_eq.mp same]
  decide

theorem leadMark?_eq_some {c : Char} {m : Mark} (lead : leadMark? c = some m) :
    m.spelling = [c] := by
  unfold leadMark? at lead
  split at lead <;> cases lead <;> rfl

theorem ascii_leadMark? {c : Char} {m : Mark} (lead : leadMark? c = some m) : c.toNat < 128 := by
  have spelled := leadMark?_eq_some lead
  cases m <;> cases spelled <;> decide

theorem leadMark?_firstChar (c : Char) : leadMark? (firstChar c) = leadMark? c := by
  by_cases ascii : c.toNat < 128
  · rw [firstChar_ascii ascii]
  · have noMark (d : Char) (far : 128 ≤ d.toNat) : leadMark? d = none := by
      cases lead : leadMark? d with
      | none => rfl
      | some m =>
        have := ascii_leadMark? lead
        omega
    have far : 128 ≤ c.toNat := Nat.le_of_not_lt ascii
    rw [noMark c far, noMark _ (le_firstChar far)]

/-! ## Marks -/

/-- The longest mark at the head of a text is the one that the first character is, or the longer one
if an equals sign follows. -/
theorem find?_of_leadMark {c : Char} {m : Mark} (lead : leadMark? c = some m) (rest : List Char) :
    (Mark.all.find? fun other => other.spelling.isPrefixOf (c :: rest)) =
      some (if rest.head? = some '=' then m.withEqual?.getD m else m) := by
  have spelled := leadMark?_eq_some lead
  have equal : (['='].isPrefixOf rest) = decide (rest.head? = some '=') := by
    cases rest with
    | nil => rfl
    | cons d rest =>
      rw [Bool.eq_iff_iff, decide_eq_true_iff]
      simp only [List.isPrefixOf, Bool.and_true, beq_iff_eq, List.head?_cons, Option.some.injEq]
      exact eq_comm
  by_cases follows : rest.head? = some '='
  all_goals
    cases m <;> cases spelled <;> simp only [Mark.all, List.find?_cons] <;>
      simp [Mark.spelling, List.isPrefixOf, Mark.withEqual?, equal, follows]

theorem find?_of_noMark {c : Char} (lead : leadMark? c = none) (rest : List Char) :
    (Mark.all.find? fun other => other.spelling.isPrefixOf (c :: rest)) = none := by
  rw [List.find?_eq_none]
  intro other _ starts
  cases other <;> simp only [Mark.spelling, List.isPrefixOf, Bool.and_eq_true, beq_iff_eq] at starts
    <;> rw [← starts.1] at lead <;> cases lead

/-! ## One turn -/

theorem scanComment_utf8 (before rest : List Char) (line : Nat) :
    scanComment (before ++ rest) line (utf8 before).length =
      some (skipped (utf8 (before ++ rest.takeWhile (· != '\n'))).length line) := by
  have sliced := byteSlice?_append before rest []
  rw [List.append_nil] at sliced
  have words := findIdx?_utf8 (by decide : '\n'.toNat < 128) rest
  simp only [scanComment, sliced, Option.bind_eq_bind, Option.bind_some]
  rw [length_utf8_append before (rest.takeWhile _), ← words]
  cases (utf8 rest).findIdx? (· == '\n'.toUInt8) with
  | none => simp [length_utf8_append]
  | some i => rfl

/-- A turn goes by the character at the cursor, of which it sees the first byte. -/
theorem scanToken_utf8 (before rest : List Char) (c : Char) (line : Nat) :
    scanToken (before ++ c :: rest) (utf8 before).length line =
      match leadMark? c with
      | some m =>
        if m = .slash ∧ rest.head? = some '/' then
          scanComment (before ++ c :: rest) line ((utf8 before).length + 2)
        else some (scanMark (before ++ c :: rest) (utf8 before).length line m)
      | none =>
        if isBlank c then some (skipped ((utf8 before).length + 1) line)
        else if c == '\n' then some (skipped ((utf8 before).length + 1) (line + 1))
        else if c.isDigit then scanInteger (before ++ c :: rest) (utf8 before).length line
        else if startsWord c then scanWord (before ++ c :: rest) (utf8 before).length line
        else scanOther (before ++ c :: rest) (utf8 before).length line := by
  have first : Char.ofUInt8 (firstByte c) = firstChar c := rfl
  have lineEnd : (firstChar c == '\n') = (c == '\n') := ascii_lineEnd.firstChar_eq c
  simp only [scanToken, getElem?_utf8, Option.bind_eq_bind, Option.bind_some, first,
    leadMark?_firstChar, ascii_isBlank.firstChar_eq, lineEnd, ascii_isDigit.firstChar_eq,
    ascii_startsWord.firstChar_eq]
  cases lead : leadMark? c with
  | none => rfl
  | some m =>
    have slash := matchesByte_utf8 (by decide : '/'.toNat < 128) (before ++ [c]) rest
    rw [length_utf8_ascii (ascii_leadMark? lead), List.append_assoc, List.singleton_append] at slash
    simp only [slash, beq_iff_eq]

/-! ## Turns that read a lexeme -/

/-- What a turn comes to where an item is read behind a part of the text. -/
def readTurn (before : List Char) (item : Except LexicalError Token) : Turn :=
  (item.map fun t => some t.kind, ⟨(utf8 (before ++ itemText item)).length, itemLine item⟩)

section
variable (before rest : List Char) {c : Char} (line : Nat)

theorem scanMark_utf8 {m : Mark} (lead : leadMark? c = some m) :
    scanMark (before ++ c :: rest) (utf8 before).length line m =
      readTurn before (readLexeme line c rest).1 := by
  have ascii := ascii_leadMark? lead
  have spelled := leadMark?_eq_some lead
  have follows := matchesByte_utf8 (by decide : '='.toNat < 128) (before ++ [c]) rest
  rw [length_utf8_ascii ascii, List.append_assoc, List.singleton_append] at follows
  have one : (utf8 (before ++ m.spelling)).length = (utf8 before).length + 1 := by
    rw [spelled, length_utf8_ascii ascii]
  have read := find?_of_leadMark lead rest
  simp only [readLexeme, read, readTurn, Except.map, itemText, itemLine, String.toList_ofList]
  unfold scanMark
  cases longer : m.withEqual? with
  | none => simp [one, found]
  | some m' =>
    have two : m'.spelling = m.spelling ++ ['='] := by
      cases m <;> cases longer <;> rfl
    have both : (utf8 (before ++ m'.spelling)).length = (utf8 before).length + 2 := by
      rw [two, ← List.append_assoc, length_utf8_ascii (by decide), one]
    rw [follows]
    by_cases equals : rest.head? = some '='
    · simp [equals, both, found]
    · simp [equals, one, found]

theorem scanInteger_utf8 (digit : c.isDigit) :
    scanInteger (before ++ c :: rest) (utf8 before).length line =
      some (readTurn before (integerToken line (c :: rest.takeWhile Char.isDigit))) := by
  have advanced := advanceWhile_utf8 ascii_isDigit (by decide) (before ++ [c]) rest
  have sliced := slice?_append before (c :: rest.takeWhile Char.isDigit)
    (rest.dropWhile Char.isDigit)
  rw [length_utf8_ascii (ascii_isDigit c digit), List.append_assoc, List.append_assoc] at advanced
  rw [List.cons_append, List.takeWhile_append_dropWhile] at sliced
  simp only [List.singleton_append] at advanced
  have text : itemText (integerToken line (c :: rest.takeWhile Char.isDigit)) =
      c :: rest.takeWhile Char.isDigit := by
    simp only [integerToken]
    split <;> simp [itemText]
  have same : itemLine (integerToken line (c :: rest.takeWhile Char.isDigit)) = line := by
    simp only [integerToken]
    split <;> rfl
  simp only [scanInteger, advanced, sliced, Option.bind_eq_bind, Option.bind_some, readTurn, text,
    same]

/-- Keywords can be told by their bytes. -/
theorem find?_keyword (word : List Char) :
    (Keyword.all.find? fun k => utf8 k.text.toList == utf8 word) =
      Keyword.ofText? (String.ofList word) := by
  unfold Keyword.ofText?
  congr 1
  funext k
  rw [Bool.eq_iff_iff, beq_iff_eq, beq_iff_eq, utf8_injective.eq_iff]
  constructor
  · rintro rfl
    exact String.ofList_toList.symm
  · intro same
    rw [same, String.toList_ofList]

theorem scanWord_utf8 (starts : startsWord c) :
    scanWord (before ++ c :: rest) (utf8 before).length line =
      some (readTurn before (.ok (wordToken line (c :: rest.takeWhile continuesWord)))) := by
  have advanced := advanceWhile_utf8 ascii_continuesWord (by decide) (before ++ [c]) rest
  have sliced := byteSlice?_append before (c :: rest.takeWhile continuesWord)
    (rest.dropWhile continuesWord)
  rw [length_utf8_ascii (ascii_startsWord c starts), List.append_assoc,
    List.append_assoc] at advanced
  rw [List.cons_append, List.takeWhile_append_dropWhile] at sliced
  simp only [List.singleton_append] at advanced
  simp only [scanWord, advanced, sliced, Option.bind_eq_bind, Option.bind_some, find?_keyword,
    wordToken]
  cases Keyword.ofText? (String.ofList (c :: rest.takeWhile continuesWord)) with
  | none => simp only [readTurn, itemText, itemLine, found, Except.map, String.toList_ofList]
  | some k => simp only [readTurn, itemText, itemLine, found, Except.map, String.toList_ofList]

theorem scanOther_utf8 :
    scanOther (before ++ c :: rest) (utf8 before).length line =
      some (readTurn before (.ok ⟨.illegal, String.singleton c, line⟩)) := by
  have stop : (utf8 (before ++ [c])).length = (utf8 before).length + c.utf8Size := by
    rw [length_utf8_append, length_utf8_cons]
    rfl
  simp only [scanOther, behind?_append, Option.bind_eq_bind, Option.bind_some, readTurn, itemText,
    itemLine]
  simp [stop, found, Except.map]

/-- Where no layout begins, a turn reads a lexeme. -/
theorem scanToken_reads (other : c ≠ '\n') (solid : isBlank c = false)
    (single : c = '/' → rest.head? ≠ some '/') :
    scanToken (before ++ c :: rest) (utf8 before).length line =
      some (readTurn before (readLexeme line c rest).1) := by
  rw [scanToken_utf8]
  cases lead : leadMark? c with
  | some m =>
    have noComment : ¬ (m = .slash ∧ rest.head? = some '/') := by
      rintro ⟨rfl, slash⟩
      have spelled := leadMark?_eq_some lead
      exact single (List.singleton_inj.mp spelled).symm slash
    dsimp only
    rw [if_neg noComment, scanMark_utf8 before rest line lead]
  | none =>
    simp only [solid, beq_false_of_ne other, readLexeme, find?_of_noMark lead rest]
    by_cases digit : c.isDigit
    · simpa [digit] using scanInteger_utf8 before rest line digit
    by_cases starts : startsWord c
    · simpa [digit, starts] using scanWord_utf8 before rest line starts
    · simpa [digit, starts] using scanOther_utf8 before rest line

end

/-! ## Turns that skip layout -/

/-- The turns from here on get to what is left when layout has been skipped. -/
def SkipsLayout (before rest : List Char) (line : Nat) : Prop :=
  ∃ gap, rest = gap ++ (skipLayout false line rest).2 ∧
    next? (before ++ rest) ⟨(utf8 before).length, line⟩ =
      next? (before ++ rest) ⟨(utf8 (before ++ gap)).length, (skipLayout false line rest).1⟩

/-- A turn that skips a piece of layout is followed by the turns behind it. -/
theorem SkipsLayout.step {before piece rest : List Char} {line line' : Nat} (some : piece ≠ [])
    (scan : scanToken (before ++ (piece ++ rest)) (utf8 before).length line =
      .some (skipped (utf8 (before ++ piece)).length line'))
    (same : skipLayout false line (piece ++ rest) = skipLayout false line' rest)
    (further : SkipsLayout (before ++ piece) rest line') :
    SkipsLayout before (piece ++ rest) line := by
  obtain ⟨gap, split, next⟩ := further
  have inside : (utf8 before).length < (utf8 (before ++ (piece ++ rest))).length := by
    obtain ⟨c, piece, rfl⟩ := List.exists_cons_of_ne_nil some
    have size := c.utf8Size_pos
    rw [length_utf8_append, List.cons_append, length_utf8_cons]
    omega
  refine ⟨piece ++ gap, ?_, ?_⟩
  · rw [same, List.append_assoc, ← split]
  · rw [same, next?_eq, if_neg inside.not_gt, if_neg inside.ne', scan, ← List.append_assoc,
      ← List.append_assoc]
    exact next

theorem skipsLayout (before rest : List Char) (line : Nat) : SkipsLayout before rest line := by
  match rest with
  | [] => exact ⟨[], rfl, by simp [skipLayout]⟩
  | c :: rest =>
    have turn := scanToken_utf8 before rest c line
    by_cases ends : c = '\n'
    · subst ends
      apply SkipsLayout.step (List.cons_ne_nil '\n' [])
      · rw [length_utf8_ascii (by decide)]
        exact turn
      · exact skipLayout_lineEnd line rest
      · exact skipsLayout (before ++ ['\n']) rest (line + 1)
    by_cases blank : isBlank c
    · have noMark : leadMark? c = none := by
        simp only [isBlank, Bool.or_eq_true, beq_iff_eq] at blank
        rcases blank with (rfl | rfl) | rfl <;> rfl
      rw [noMark] at turn
      apply SkipsLayout.step (List.cons_ne_nil c [])
      · rw [length_utf8_ascii (ascii_isBlank c blank)]
        simpa [blank] using turn
      · exact skipLayout_blank line blank rest
      · exact skipsLayout (before ++ [c]) rest line
    by_cases slashes : c = '/' ∧ rest.head? = some '/'
    · obtain ⟨words, second⟩ := List.head?_eq_some_iff.mp slashes.2
      have shorter : (words.dropWhile (· != '\n')).length < rest.length := by
        rw [second]
        exact Nat.lt_succ_of_le (length_dropWhile_le _ words)
      have further := skipsLayout (before ++ '/' :: '/' :: words.takeWhile (· != '\n'))
        (words.dropWhile (· != '\n')) line
      have whole : c :: rest =
          ('/' :: '/' :: words.takeWhile (· != '\n')) ++ words.dropWhile (· != '\n') := by
        rw [slashes.1, second]
        simp [List.takeWhile_append_dropWhile]
      have comment := scanComment_utf8 (before ++ ['/', '/']) words line
      have two : (utf8 (before ++ ['/', '/'])).length = (utf8 before).length + 2 := by
        rw [length_utf8_append]
        rfl
      rw [two, List.append_assoc, List.append_assoc] at comment
      rw [slashes.1, second] at turn
      rw [whole]
      apply SkipsLayout.step (List.cons_ne_nil '/' _)
      · rw [← whole, slashes.1, second]
        exact turn.trans comment
      · rw [← whole, slashes.1, second, skipLayout_slashes, skipLayout_comment]
      · exact further
    · rw [SkipsLayout, skipLayout_solid line ends (by simpa using blank)
        fun eq => fun h => slashes ⟨eq, h⟩]
      exact ⟨[], rfl, by simp⟩
termination_by rest.length

/-! ## Calls -/

/-- A cursor is where a source is left to read in a text, or beyond the end once that is over. -/
inductive At (text : List Char) : Cursor → Source → Prop
  | reading {before rest : List Char} {line : Nat} (split : text = before ++ rest) :
      At text ⟨(utf8 before).length, line⟩ ⟨rest, line, false⟩
  | ended {cursor : Cursor} {s : Source} (finished : s.ended)
      (beyond : (utf8 text).length < cursor.curr) : At text cursor s

/-- Where no layout begins, a call reads a lexeme. -/
theorem next?_reads (before rest : List Char) {c : Char} (line : Nat) (other : c ≠ '\n')
    (solid : isBlank c = false) (single : c = '/' → rest.head? ≠ some '/') :
    next? (before ++ c :: rest) ⟨(utf8 before).length, line⟩ =
      some (some (readLexeme line c rest).1,
        ⟨(utf8 (before ++ itemText (readLexeme line c rest).1)).length, line⟩) := by
  have size := c.utf8Size_pos
  have inside : (utf8 before).length < (utf8 (before ++ c :: rest)).length := by
    rw [length_utf8_append, length_utf8_cons]
    omega
  obtain ⟨lexeme, same⟩ := readLexeme_isLexeme line c rest
  have sliced := slice?_append before (itemText (readLexeme line c rest).1)
    (readLexeme line c rest).2
  rw [← lexeme.split] at sliced
  rw [next?_eq, if_neg inside.not_gt, if_neg inside.ne',
    scanToken_reads before rest line other solid single, readTurn, same]
  revert sliced same
  cases (readLexeme line c rest).1 with
  | error e => exact fun _ _ => rfl
  | ok t =>
    intro same sliced
    simp only [itemText] at sliced
    simp only [Except.map, itemText, sliced, Option.map_some, String.ofList_toList]
    rw [← same]
    rfl

/-- A call reads what the source's next item is, and goes to where the source is left. -/
theorem next?_at {text : List Char} {cursor : Cursor} {s : Source} (here : At text cursor s) :
    ∃ cursor', next? text cursor = some (s.next?.map Prod.fst, cursor') ∧
      At text cursor' (s.next?.elim s Prod.snd) := by
  cases here with
  | ended finished beyond =>
    have nothing : s.next? = none := if_pos finished
    rw [next?_eq, if_pos beyond, nothing]
    exact ⟨cursor, rfl, .ended finished beyond⟩
  | @reading before rest line split =>
    subst split
    obtain ⟨gap, split, skipped⟩ := skipsLayout before rest line
    match skip : skipLayout false line rest with
    | (line', []) =>
      have next : (Source.mk rest line false).next? =
          some (.ok ⟨.eof, "", line'⟩, ⟨[], line', true⟩) := by
        simp only [Source.next?, skip]
        rfl
      rw [skip] at split skipped
      obtain rfl : rest = gap := by simpa using split
      rw [skipped, next?_eq, if_neg (lt_irrefl _), if_pos rfl, next]
      exact ⟨_, rfl, .ended rfl (Nat.lt_succ_self _)⟩
    | (line', c :: more) =>
      have next : (Source.mk rest line false).next? =
          some ((readLexeme line' c more).1, ⟨(readLexeme line' c more).2, line', false⟩) := by
        simp only [Source.next?, skip]
        rfl
      obtain ⟨solid, single⟩ := solid_skipLayout skip
      have read := next?_reads (before ++ gap) more line' (head_skipLayout skip) solid single
      have behind := (readLexeme_isLexeme line' c more).1.split
      rw [skip] at split skipped
      rw [List.append_assoc, ← split] at read
      rw [skipped, read, next]
      refine ⟨_, rfl, .reading ?_⟩
      rw [split, behind]
      simp

/-- So many calls give the items of what is left, and nothing once these are over. -/
theorem calls_at {text : List Char} (n : Nat) {cursor : Cursor} {s : Source}
    (here : At text cursor s) :
    calls text n cursor = some ((s.items.map some ++ List.replicate n none).take n) := by
  induction n generalizing cursor s with
  | zero => simp [calls]
  | succ n ih =>
    obtain ⟨cursor', next, there⟩ := next?_at here
    rw [calls, next, Source.items_eq]
    cases given : s.next? with
    | none =>
      rw [given] at there
      have nothing : s.items = [] := by rw [Source.items_eq, given]
      have none_more : calls text n cursor' = some (List.replicate n none) := by
        simpa [nothing] using ih there
      simp [none_more, List.replicate_succ]
    | some result =>
      obtain ⟨item, s'⟩ := result
      rw [given] at there
      have enough : (s'.items.map some ++ List.replicate (n + 1) none).take n =
          (s'.items.map some ++ List.replicate n none).take n := by
        rw [List.take_append, List.take_append, List.take_replicate, List.take_replicate]
        congr 2
        omega
      have further := ih there
      rw [Option.elim_some, ← enough] at further
      simp [further]

end Cursor

/-- The scanner covers its text exactly and never goes wrong. However often it is called, no byte is
looked at beyond the end of the text and no slice is taken out of range or through a character. The
calls give the items of the text, one after the other, and nothing from then on. The slices of these
items, lexemes and runs of digits, follow each other in the text with nothing but layout before,
between and behind them; each item is on the line that its slice starts on; and the end of the text
is the last item and no other. -/
theorem scanner_covers (text : String) :
    (∀ n, Cursor.start.calls text.toList n =
      some (((Source.ofString text).items.map some ++ List.replicate n none).take n)) ∧
    Covers [] text.toList (Source.ofString text).items := by
  constructor
  · intro n
    have here : Cursor.At text.toList .start (.ofString text) :=
      @Cursor.At.reading text.toList [] text.toList 1 rfl
    exact Cursor.calls_at n here
  · exact Source.items_covers [] text.toList

end Quasiquote
