import Quasiquote.Token

/-!
# Reading tokens from source text

A `Source` is what is left of a text, with the line it is on. `Source.next?` takes one item off it:

* blanks, line ends and comments (from two slashes to the end of the line) are layout and are
  skipped;
* then the longest mark, the longest run of digits or the longest word is taken, and any other
  character is an illegal token of its own;
* a run of digits beyond the 64-bit range is an error, after which reading goes on behind it;
* the end of the text is one token, and nothing comes after it.

`next?_size` says that each item leaves less to read, so that `Source.items` ends.
-/

namespace Quasiquote

/-- A run of digits whose value is beyond the 64-bit range. -/
structure LexicalError where
  line : Nat
  digits : String
  deriving DecidableEq, Repr

/-- What is left of a source text: its characters, the line of the first of them, and whether its
end has been reported. -/
structure Source where
  rest : List Char
  line : Nat
  ended : Bool
  deriving DecidableEq, Repr

def Source.ofString (text : String) : Source := ⟨text.toList, 1, false⟩

/-- Blanks that end no line. -/
def isBlank (c : Char) : Bool := c == ' ' || c == '\t' || c == '\r'

/-- Whether a character can start a word. Words are of ASCII letters, digits and underscores. -/
def startsWord (c : Char) : Bool := c.isAlpha || c == '_'

def continuesWord (c : Char) : Bool := c.isAlphanum || c == '_'

/-- The layout at the head of a text, taken off, and the line of what follows. A comment takes up
everything to the end of its line, but not that end. -/
def skipLayout (inComment : Bool) (line : Nat) : List Char → Nat × List Char
  | [] => (line, [])
  | c :: rest =>
    if c = '\n' then skipLayout false (line + 1) rest
    else if inComment || isBlank c then skipLayout inComment line rest
    else if c = '/' && rest.head? == some '/' then skipLayout true line rest
    else (line, c :: rest)

/-- The number that a run of digits stands for. -/
def decimalValue (digits : List Char) : Nat := Nat.ofDigitChars 10 digits 0

def integerToken (line : Nat) (digits : List Char) : Except LexicalError Token :=
  let text := String.ofList digits
  if decimalValue digits < 1 <<< 63 then
    .ok ⟨.integer (Int64.ofNat (decimalValue digits)), text, line⟩
  else
    .error ⟨line, text⟩

/-- The token of a word: a keyword if it is spelled like one, otherwise a name. -/
def wordToken (line : Nat) (word : List Char) : Token :=
  let text := String.ofList word
  match Keyword.ofText? text with
  | some k => ⟨.keyword k, text, line⟩
  | none => ⟨.identifier, text, line⟩

/-- The longest lexeme at the head of the text `c :: rest`, and the text behind it. -/
def readLexeme (line : Nat) (c : Char) (rest : List Char) :
    Except LexicalError Token × List Char :=
  match Mark.all.find? fun m => m.spelling.isPrefixOf (c :: rest) with
  | some m =>
    (.ok ⟨.mark m, String.ofList m.spelling, line⟩, (c :: rest).drop m.spelling.length)
  | none =>
    if c.isDigit then
      (integerToken line (c :: rest.takeWhile Char.isDigit), rest.dropWhile Char.isDigit)
    else if startsWord c then
      (.ok (wordToken line (c :: rest.takeWhile continuesWord)), rest.dropWhile continuesWord)
    else
      (.ok ⟨.illegal, String.singleton c, line⟩, rest)

/-- The next token or error, and what is left after it; nothing once the end has been reported. -/
def Source.next? (s : Source) : Option (Except LexicalError Token × Source) :=
  if s.ended then none
  else
    match skipLayout false s.line s.rest with
    | (line, []) => some (.ok ⟨.eof, "", line⟩, ⟨[], line, true⟩)
    | (line, c :: rest) =>
      let read := readLexeme line c rest
      some (read.1, ⟨read.2, line, false⟩)

/-- How much is left: the characters, and the end until it has been reported. -/
def Source.size (s : Source) : Nat := s.rest.length + if s.ended then 0 else 1

theorem length_skipLayout_le (inComment : Bool) (line : Nat) (text : List Char) :
    (skipLayout inComment line text).2.length ≤ text.length := by
  induction text generalizing inComment line with
  | nil => simp [skipLayout]
  | cons c rest ih =>
    unfold skipLayout
    split
    · exact Nat.le_succ_of_le (ih _ _)
    · split
      · exact Nat.le_succ_of_le (ih _ _)
      · split
        · exact Nat.le_succ_of_le (ih _ _)
        · exact Nat.le_refl _

theorem Mark.spelling_length_pos (m : Mark) : 0 < m.spelling.length := by
  cases m <;> simp [Mark.spelling]

theorem length_dropWhile_le (p : Char → Bool) (text : List Char) :
    (text.dropWhile p).length ≤ text.length :=
  (List.dropWhile_suffix p).length_le

theorem length_readLexeme_le (line : Nat) (c : Char) (rest : List Char) :
    (readLexeme line c rest).2.length ≤ rest.length := by
  unfold readLexeme
  split
  · next m _ =>
    have := m.spelling_length_pos
    simp only [List.length_drop, List.length_cons]
    omega
  · split
    · exact length_dropWhile_le _ _
    · split
      · exact length_dropWhile_le _ _
      · exact Nat.le_refl _

theorem Source.next?_size {s s' : Source} {item : Except LexicalError Token}
    (h : s.next? = some (item, s')) : s'.size < s.size := by
  unfold Source.next? at h
  split at h
  · cases h
  · next more =>
    have short := length_skipLayout_le false s.line s.rest
    split at h
    · cases h
      simp [Source.size, more]
    · next line c rest skipped =>
      cases h
      have := length_readLexeme_le line c rest
      rw [skipped] at short
      simp only [List.length_cons] at short
      simp [Source.size, more]
      omega

/-- Every item of what is left, tokens and errors alike. -/
def Source.items (s : Source) : List (Except LexicalError Token) :=
  match _ : s.next? with
  | none => []
  | some (item, s') => item :: s'.items
termination_by s.size
decreasing_by exact Source.next?_size ‹_›

/-- The values of a list of outcomes, or the first error in it. -/
def allOrFirstError {ε α : Type} : List (Except ε α) → Except ε (List α)
  | [] => .ok []
  | .error e :: _ => .error e
  | .ok x :: rest => (allOrFirstError rest).map (x :: ·)

/-- Every token of a text, or the first error in it. -/
def Token.ofText (text : String) : Except LexicalError (List Token) :=
  allOrFirstError (Source.ofString text).items

end Quasiquote
