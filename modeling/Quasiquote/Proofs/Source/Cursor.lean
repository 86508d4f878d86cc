import Quasiquote.Proofs.Source.Bytes
import Quasiquote.Source

/-!
# A scanner by byte indices

A text is scanned in place: a `Cursor` is an index into its bytes, with the line that is reached
there. Bytes are looked at by index, and slices are taken between indices; where one of them goes
wrong, so does the scanner, and gives nothing.

* `Cursor.scanToken`: one turn, by the byte at the cursor. No turn stays where it is
  (`lt_of_scanToken`).
* `Cursor.next?`: turns until there is a token or an error. `Cursor.calls`: what so many calls of
  that give.
-/

namespace Quasiquote

/-- The mark that a character is, unless the text goes on with a longer one. -/
def leadMark? : Char → Option Mark
  | '(' => some .leftParen
  | ')' => some .rightParen
  | '{' => some .leftBrace
  | '}' => some .rightBrace
  | ',' => some .comma
  | ';' => some .semicolon
  | '-' => some .minus
  | '+' => some .plus
  | '*' => some .star
  | '!' => some .bang
  | '=' => some .equal
  | '<' => some .less
  | '>' => some .greater
  | '/' => some .slash
  | _ => none

/-- The longer mark that goes on with an equals sign, if there is one. -/
def Mark.withEqual? : Mark → Option Mark
  | .bang => some .bangEqual
  | .equal => some .equalEqual
  | .less => some .lessEqual
  | .greater => some .greaterEqual
  | _ => none

/-! ## The scanner -/

/-- The index of the next byte of a text, and the line that is reached there. -/
structure Cursor where
  curr : Nat
  line : Nat

namespace Cursor

def start : Cursor := ⟨0, 1⟩

/-- The byte at an index, or zero at the end. -/
def peek (bytes : List UInt8) (i : Nat) : UInt8 := bytes.getD i 0

/-- Whether there is a byte at an index, and it is this character. -/
def matchesByte (bytes : List UInt8) (i : Nat) (c : Char) : Bool :=
  decide (i < bytes.length) && peek bytes i == c.toUInt8

/-- The index behind all bytes of a class that follow each other from an index on. -/
def advanceWhile (bytes : List UInt8) (inside : Char → Bool) (i : Nat) : Option Nat :=
  if inside (Char.ofUInt8 (peek bytes i)) then
    if i < bytes.length then advanceWhile bytes inside (i + 1) else none
  else some i
termination_by bytes.length - i

/-- What one turn comes to: an error, or the kind of a token, if there is one, and the cursor behind
what was looked at. -/
abbrev Turn := Except LexicalError (Option TokenKind) × Cursor

def found (kind : TokenKind) (stop line : Nat) : Turn := (.ok (some kind), ⟨stop, line⟩)

def skipped (stop line : Nat) : Turn := (.ok none, ⟨stop, line⟩)

section
variable (text : List Char) (start line : Nat)

/-- Skips a comment whose words start at an index, up to the end of the line. -/
def scanComment (words : Nat) : Option Turn := do
  let bytes := utf8 text
  let behind ← byteSlice? bytes words bytes.length
  match behind.findIdx? (· == '\n'.toUInt8) with
  | some i => some (skipped (words + i) line)
  | none => some (skipped bytes.length line)

/-- A mark that starts at an index, the longer one if the text goes on with it. -/
def scanMark (m : Mark) : Turn :=
  match m.withEqual? with
  | none => found (.mark m) (start + 1) line
  | some longer =>
    if matchesByte (utf8 text) (start + 1) '=' then found (.mark longer) (start + 2) line
    else found (.mark m) (start + 1) line

def scanInteger : Option Turn := do
  let stop ← advanceWhile (utf8 text) Char.isDigit (start + 1)
  let digits ← slice? text start stop
  some ((integerToken line digits).map fun t => some t.kind, ⟨stop, line⟩)

def scanWord : Option Turn := do
  let bytes := utf8 text
  let stop ← advanceWhile bytes continuesWord (start + 1)
  let word ← byteSlice? bytes start stop
  match Keyword.all.find? fun k => utf8 k.text.toList == word with
  | some k => some (found (.keyword k) stop line)
  | none => some (found .identifier stop line)

/-- A character that nothing else starts with, all bytes of it. -/
def scanOther : Option Turn := do
  let rest ← behind? text start
  some (found .illegal (start + (rest.head?.map Char.utf8Size).getD 1) line)

def scanToken : Option Turn := do
  let byte ← (utf8 text)[start]?
  let c := Char.ofUInt8 byte
  match leadMark? c with
  | some m =>
    if m = .slash ∧ matchesByte (utf8 text) (start + 1) '/' then scanComment text line (start + 2)
    else some (scanMark text start line m)
  | none =>
    if isBlank c then some (skipped (start + 1) line)
    else if c == '\n' then some (skipped (start + 1) (line + 1))
    else if c.isDigit then scanInteger text start line
    else if startsWord c then scanWord text start line
    else scanOther text start line

end

/-! ## Turns go forward -/

section
variable {text : List Char} {start line : Nat} {turn : Turn}

theorem le_of_advanceWhile {bytes : List UInt8} {inside : Char → Bool} {i stop : Nat}
    (h : advanceWhile bytes inside i = some stop) : i ≤ stop := by
  rw [advanceWhile] at h
  split at h
  · split at h
    · exact (Nat.le_succ i).trans (le_of_advanceWhile h)
    · cases h
  · exact (Option.some.inj h).le
termination_by bytes.length - i

theorem le_of_scanComment {words : Nat} (h : scanComment text line words = some turn) :
    words ≤ turn.2.curr := by
  obtain ⟨behind, sliced, h⟩ := Option.bind_eq_some_iff.mp h
  have inside : words ≤ (utf8 text).length := by
    unfold byteSlice? at sliced
    split at sliced
    · next range => exact range.1
    · cases sliced
  split at h
  · cases h
    exact Nat.le_add_right _ _
  · cases h
    exact inside

theorem lt_of_scanMark (m : Mark) : start < (scanMark text start line m).2.curr := by
  unfold scanMark
  split
  · exact Nat.lt_succ_self _
  · split
    · exact Nat.lt_add_of_pos_right (by decide)
    · exact Nat.lt_succ_self _

theorem lt_of_scanInteger (h : scanInteger text start line = some turn) :
    start < turn.2.curr := by
  obtain ⟨stop, advanced, h⟩ := Option.bind_eq_some_iff.mp h
  obtain ⟨digits, _, h⟩ := Option.bind_eq_some_iff.mp h
  cases h
  exact le_of_advanceWhile advanced

theorem lt_of_scanWord (h : scanWord text start line = some turn) : start < turn.2.curr := by
  obtain ⟨stop, advanced, h⟩ := Option.bind_eq_some_iff.mp h
  obtain ⟨word, _, h⟩ := Option.bind_eq_some_iff.mp h
  split at h <;> cases h <;> exact le_of_advanceWhile advanced

theorem lt_of_scanOther (h : scanOther text start line = some turn) : start < turn.2.curr := by
  obtain ⟨rest, _, h⟩ := Option.bind_eq_some_iff.mp h
  cases h
  apply Nat.lt_add_of_pos_right
  cases rest with
  | nil => decide
  | cons c rest => exact c.utf8Size_pos

/-- No turn stays where it is. -/
theorem lt_of_scanToken (h : scanToken text start line = some turn) : start < turn.2.curr := by
  obtain ⟨byte, _, h⟩ := Option.bind_eq_some_iff.mp h
  dsimp only at h
  split at h
  · split at h
    · exact (Nat.lt_add_of_pos_right (by decide)).trans_le (le_of_scanComment h)
    · cases h
      exact lt_of_scanMark _
  · split at h
    · cases h
      exact Nat.lt_succ_self _
    split at h
    · cases h
      exact Nat.lt_succ_self _
    split at h
    · exact lt_of_scanInteger h
    split at h
    · exact lt_of_scanWord h
    · exact lt_of_scanOther h

end

/-! ## Calls -/

/-- Turns until there is a token or an error. The end of the text is a token, once. -/
def next? (text : List Char) (cursor : Cursor) :
    Option (Option (Except LexicalError Token) × Cursor) :=
  if (utf8 text).length < cursor.curr then some (none, cursor)
  else if (utf8 text).length = cursor.curr then
    some (some (.ok ⟨.eof, "", cursor.line⟩), ⟨cursor.curr + 1, cursor.line⟩)
  else
    match _ : scanToken text cursor.curr cursor.line with
    | none => none
    | some (.error e, next) => some (some (.error e), next)
    | some (.ok none, next) => next? text next
    | some (.ok (some kind), next) =>
      (slice? text cursor.curr next.curr).map fun lexeme =>
        (some (.ok ⟨kind, String.ofList lexeme, next.line⟩), next)
termination_by (utf8 text).length - cursor.curr
decreasing_by
  have moved : cursor.curr < next.curr := lt_of_scanToken ‹_›
  omega

theorem next?_eq (text : List Char) (cursor : Cursor) :
    next? text cursor =
      if (utf8 text).length < cursor.curr then some (none, cursor)
      else if (utf8 text).length = cursor.curr then
        some (some (.ok ⟨.eof, "", cursor.line⟩), ⟨cursor.curr + 1, cursor.line⟩)
      else
        match scanToken text cursor.curr cursor.line with
        | none => none
        | some (.error e, next) => some (some (.error e), next)
        | some (.ok none, next) => next? text next
        | some (.ok (some kind), next) =>
          (slice? text cursor.curr next.curr).map fun lexeme =>
            (some (.ok ⟨kind, String.ofList lexeme, next.line⟩), next) := by
  rw [next?]
  split
  · rfl
  split
  · rfl
  split <;> next scan => rw [scan]

/-- What so many calls give, one after the other. -/
def calls (text : List Char) : Nat → Cursor → Option (List (Option (Except LexicalError Token)))
  | 0, _ => some []
  | n + 1, cursor => do
    let (item, cursor) ← next? text cursor
    let items ← calls text n cursor
    some (item :: items)

end Cursor

end Quasiquote
