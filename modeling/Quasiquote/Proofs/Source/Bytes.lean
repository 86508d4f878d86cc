import Mathlib

/-!
# Texts by their bytes

Indices into a text count bytes, and a character may have up to four of them. An access or a slice
that goes wrong gives nothing.

* `utf8`: the bytes of a text. `behind?`, `before?`, `slice?`: its parts at byte indices, which must
  not be inside a character. `byteSlice?`: parts of the bytes alone.
* `slice?_append` and the statements beside it: what stands between two parts of a text is the slice
  from the end of the one to the beginning of the other.
* `firstChar`: the first byte of a character, read as a character. To a class of ASCII characters it
  belongs if the character does (`Ascii.firstChar_eq`), so that classes can be told by first bytes.
-/

namespace Quasiquote

def utf8 (text : List Char) : List UInt8 := text.flatMap String.utf8EncodeChar

theorem utf8_cons (c : Char) (rest : List Char) :
    utf8 (c :: rest) = String.utf8EncodeChar c ++ utf8 rest := List.flatMap_cons

theorem utf8_append (before rest : List Char) : utf8 (before ++ rest) = utf8 before ++ utf8 rest :=
  List.flatMap_append

theorem length_utf8_cons (c : Char) (rest : List Char) :
    (utf8 (c :: rest)).length = c.utf8Size + (utf8 rest).length := by
  simp [utf8_cons]

theorem length_utf8_append (before rest : List Char) :
    (utf8 (before ++ rest)).length = (utf8 before).length + (utf8 rest).length := by
  simp [utf8_append]

theorem utf8_injective : Function.Injective utf8 := by
  intro text other same
  have strings : String.ofList text = String.ofList other := by
    rw [← String.toByteArray_inj, String.toByteArray_ofList, String.toByteArray_ofList]
    exact congrArg List.toByteArray same
  exact String.ofList_injective strings

/-! ## Slices -/

/-- The text behind so many bytes, if no character is cut and there are as many. -/
def behind? : List Char → Nat → Option (List Char)
  | text, 0 => some text
  | [], _ + 1 => none
  | c :: rest, n + 1 => if c.utf8Size ≤ n + 1 then behind? rest (n + 1 - c.utf8Size) else none

/-- The text of the first so many bytes, if no character is cut and there are as many. -/
def before? : List Char → Nat → Option (List Char)
  | _, 0 => some []
  | [], _ + 1 => none
  | c :: rest, n + 1 =>
    if c.utf8Size ≤ n + 1 then (before? rest (n + 1 - c.utf8Size)).map (c :: ·) else none

/-- The text from one byte index to another, if neither is inside a character or out of range. -/
def slice? (text : List Char) (start stop : Nat) : Option (List Char) :=
  (before? text stop).bind fun text => behind? text start

/-- The bytes from one index to another, if neither is out of range. -/
def byteSlice? (bytes : List UInt8) (start stop : Nat) : Option (List UInt8) :=
  if start ≤ stop ∧ stop ≤ bytes.length then some ((bytes.take stop).drop start) else none

theorem length_utf8_cons_eq_succ (c : Char) (rest : List Char) :
    ∃ n, (utf8 (c :: rest)).length = n + 1 ∧ c.utf8Size ≤ n + 1 ∧
      n + 1 - c.utf8Size = (utf8 rest).length := by
  have size := c.utf8Size_pos
  refine ⟨c.utf8Size - 1 + (utf8 rest).length, ?_, ?_, ?_⟩
  · rw [length_utf8_cons]
    omega
  · omega
  · omega

theorem behind?_append (before rest : List Char) :
    behind? (before ++ rest) (utf8 before).length = some rest := by
  induction before with
  | nil => cases rest <;> rfl
  | cons c before ih =>
    obtain ⟨n, eq, enough, more⟩ := length_utf8_cons_eq_succ c before
    rw [eq, List.cons_append, behind?, if_pos enough, more, ih]

theorem before?_append (before rest : List Char) :
    before? (before ++ rest) (utf8 before).length = some before := by
  induction before with
  | nil => cases rest <;> rfl
  | cons c before ih =>
    obtain ⟨n, eq, enough, more⟩ := length_utf8_cons_eq_succ c before
    rw [eq, List.cons_append, before?, if_pos enough, more, ih]
    rfl

theorem slice?_append (before text rest : List Char) :
    slice? (before ++ (text ++ rest)) (utf8 before).length (utf8 (before ++ text)).length =
      some text := by
  rw [slice?, ← List.append_assoc, before?_append, Option.bind_some, behind?_append]

theorem byteSlice?_append (before text rest : List Char) :
    byteSlice? (utf8 (before ++ (text ++ rest))) (utf8 before).length
      (utf8 (before ++ text)).length = some (utf8 text) := by
  have inside : (utf8 before).length ≤ (utf8 (before ++ text)).length ∧
      (utf8 (before ++ text)).length ≤ (utf8 (before ++ (text ++ rest))).length := by
    simp only [length_utf8_append]
    omega
  rw [byteSlice?, if_pos inside, ← List.append_assoc, utf8_append _ rest, List.take_left,
    utf8_append, List.drop_left]

/-! ## First bytes -/

def firstByte (c : Char) : UInt8 := (String.utf8EncodeChar c).headD 0

/-- The first byte of a character, read as a character. -/
def firstChar (c : Char) : Char := Char.ofUInt8 (firstByte c)

theorem utf8_cons_eq (c : Char) (rest : List Char) :
    utf8 (c :: rest) = firstByte c :: ((String.utf8EncodeChar c).tail ++ utf8 rest) := by
  have some : String.utf8EncodeChar c ≠ [] := by
    apply List.ne_nil_of_length_pos
    rw [String.length_utf8EncodeChar]
    exact c.utf8Size_pos
  obtain ⟨b, bs, eq⟩ := List.exists_cons_of_ne_nil some
  rw [utf8_cons, firstByte, eq]
  rfl

theorem getElem?_utf8 (before rest : List Char) (c : Char) :
    (utf8 (before ++ c :: rest))[(utf8 before).length]? = some (firstByte c) := by
  rw [utf8_append, List.getElem?_append_right le_rfl, utf8_cons_eq, Nat.sub_self]
  rfl

theorem utf8EncodeChar_ascii {c : Char} (ascii : c.toNat < 128) :
    String.utf8EncodeChar c = [c.toUInt8] := by
  have size : c.utf8Size = 1 := by
    rw [Char.utf8Size_eq_one_iff, UInt32.le_iff_toNat_le]
    exact Nat.le_of_lt_succ ascii
  exact String.utf8EncodeChar_eq_singleton size

/-- No byte of a longer character is an ASCII character. -/
theorem le_of_mem_utf8EncodeChar {c : Char} (other : 128 ≤ c.toNat) {b : UInt8}
    (inside : b ∈ String.utf8EncodeChar c) : 128 ≤ b.toNat := by
  have value : c.val.toNat = c.toNat := rfl
  simp only [String.utf8EncodeChar, value] at inside
  split at inside
  · omega
  · split at inside
    · simp only [List.mem_cons, List.not_mem_nil, or_false] at inside
      rcases inside with rfl | rfl <;> simp only [UInt8.toNat_ofNat'] <;> omega
    · split at inside
      · simp only [List.mem_cons, List.not_mem_nil, or_false] at inside
        rcases inside with rfl | rfl | rfl <;> simp only [UInt8.toNat_ofNat'] <;> omega
      · simp only [List.mem_cons, List.not_mem_nil, or_false] at inside
        rcases inside with rfl | rfl | rfl | rfl <;> simp only [UInt8.toNat_ofNat'] <;> omega

/-! ## ASCII characters -/

theorem toNat_toUInt8 {c : Char} (ascii : c.toNat < 128) : c.toUInt8.toNat = c.toNat := by
  have value : c.toUInt8.toNat = c.toNat % 256 := rfl
  omega

theorem eq_of_toNat_eq {c d : Char} (same : c.toNat = d.toNat) : c = d := by
  rw [← Char.ofNat_toNat c, same, Char.ofNat_toNat]

theorem firstByte_mem (c : Char) : firstByte c ∈ String.utf8EncodeChar c := by
  have first := utf8_cons_eq c []
  rw [utf8_cons, show utf8 [] = [] from rfl, List.append_nil, List.append_nil] at first
  rw [first]
  exact List.mem_cons_self

/-- A byte is an ASCII character only where it is the whole character. -/
theorem mem_utf8EncodeChar_ascii {c d : Char} (ascii : d.toNat < 128) :
    d.toUInt8 ∈ String.utf8EncodeChar c ↔ c = d := by
  constructor
  · intro inside
    by_cases short : c.toNat < 128
    · rw [utf8EncodeChar_ascii short, List.mem_singleton] at inside
      have same := congrArg UInt8.toNat inside
      rw [toNat_toUInt8 ascii, toNat_toUInt8 short] at same
      exact eq_of_toNat_eq same.symm
    · have high := le_of_mem_utf8EncodeChar (Nat.le_of_not_lt short) inside
      rw [toNat_toUInt8 ascii] at high
      omega
  · rintro rfl
    rw [utf8EncodeChar_ascii ascii]
    exact List.mem_singleton_self _

theorem firstByte_ascii {c : Char} (ascii : c.toNat < 128) : firstByte c = c.toUInt8 := by
  rw [firstByte, utf8EncodeChar_ascii ascii]
  rfl

theorem firstByte_eq_iff {c d : Char} (ascii : d.toNat < 128) :
    firstByte c = d.toUInt8 ↔ c = d := by
  constructor
  · intro same
    rw [← mem_utf8EncodeChar_ascii ascii, ← same]
    exact firstByte_mem c
  · rintro rfl
    exact firstByte_ascii ascii

theorem toNat_firstChar (c : Char) : (firstChar c).toNat = (firstByte c).toNat := rfl

theorem firstChar_ascii {c : Char} (ascii : c.toNat < 128) : firstChar c = c := by
  apply eq_of_toNat_eq
  rw [toNat_firstChar, firstByte_ascii ascii, toNat_toUInt8 ascii]

theorem le_firstChar {c : Char} (other : 128 ≤ c.toNat) : 128 ≤ (firstChar c).toNat :=
  le_of_mem_utf8EncodeChar other (firstByte_mem c)

def Ascii (inside : Char → Bool) : Prop := ∀ c, inside c → c.toNat < 128

theorem Ascii.eq_false {inside : Char → Bool} (ascii : Ascii inside) {c : Char}
    (other : 128 ≤ c.toNat) : inside c = false := by
  rw [Bool.eq_false_iff]
  intro h
  have := ascii c h
  omega

/-- A character is in a class of ASCII characters if its first byte is. -/
theorem Ascii.firstChar_eq {inside : Char → Bool} (ascii : Ascii inside) (c : Char) :
    inside (firstChar c) = inside c := by
  by_cases short : c.toNat < 128
  · rw [firstChar_ascii short]
  · have other : 128 ≤ c.toNat := Nat.le_of_not_lt short
    rw [ascii.eq_false other, ascii.eq_false (le_firstChar other)]

/-- The first byte that is an ASCII character begins the first such character. -/
theorem findIdx?_utf8 {d : Char} (ascii : d.toNat < 128) (text : List Char) :
    ((utf8 text).findIdx? (· == d.toUInt8)).getD (utf8 text).length =
      (utf8 (text.takeWhile (· != d))).length := by
  induction text with
  | nil => rfl
  | cons c rest ih =>
    by_cases here : c = d
    · have first : (utf8 (c :: rest)).findIdx? (· == d.toUInt8) = some 0 := by
        rw [utf8_cons_eq, List.findIdx?_cons, if_pos]
        exact beq_iff_eq.mpr ((firstByte_eq_iff ascii).mpr here)
      rw [first, List.takeWhile_cons, here]
      simp [utf8]
    · have absent : (String.utf8EncodeChar c).findIdx? (· == d.toUInt8) = none := by
        rw [List.findIdx?_eq_none_iff]
        intro b inside
        rw [beq_eq_false_iff_ne]
        rintro rfl
        exact here ((mem_utf8EncodeChar_ascii ascii).mp inside)
      have taken : (c :: rest).takeWhile (· != d) = c :: rest.takeWhile (· != d) := by
        simp [here]
      rw [taken, length_utf8_cons c (rest.takeWhile _), ← ih, length_utf8_cons, utf8_cons,
        List.findIdx?_append, absent, Option.none_or, String.length_utf8EncodeChar]
      cases (utf8 rest).findIdx? (· == d.toUInt8) with
      | none => rfl
      | some i => exact Nat.add_comm _ _

end Quasiquote
