/-!
# Reading UTF-8

A byte sequence is text if it falls into sequences of one to four bytes that stand for characters in
the shortest way. Otherwise the error says where the first bad sequence starts, and how many of its
bytes could have begun a character; or that the text ends inside a sequence that was good so far.
-/

namespace Quasiquote.Utf8

/-- Why bytes are no text. -/
inductive Malformed
  | bad (length index : Nat)
  | cut (index : Nat)
  deriving DecidableEq, Repr

def Malformed.message : Malformed → String
  | .bad length index =>
    "invalid utf-8 sequence of " ++ toString length ++ " bytes from index " ++ toString index
  | .cut index => "incomplete utf-8 byte sequence from index " ++ toString index

/-- A sequence that has begun: the index of its first byte, the number of its bytes so far, the bits
of the character so far, the range of its next byte, and how many bytes come after that. -/
structure Begun where
  start : Nat
  taken : Nat
  bits : Nat
  low : Nat
  high : Nat
  after : Nat

/-- The sequence that a byte beyond ASCII begins, if it begins one. The ranges of the second byte
leave out longer forms of shorter sequences, surrogates, and what is past the last character. -/
def begin? (index byte : Nat) : Option Begun :=
  if 0xC2 ≤ byte ∧ byte ≤ 0xDF then some ⟨index, 1, byte - 0xC0, 0x80, 0xBF, 0⟩
  else if byte = 0xE0 then some ⟨index, 1, 0, 0xA0, 0xBF, 1⟩
  else if byte = 0xED then some ⟨index, 1, 0xD, 0x80, 0x9F, 1⟩
  else if 0xE1 ≤ byte ∧ byte ≤ 0xEF then some ⟨index, 1, byte - 0xE0, 0x80, 0xBF, 1⟩
  else if byte = 0xF0 then some ⟨index, 1, 0, 0x90, 0xBF, 2⟩
  else if 0xF1 ≤ byte ∧ byte ≤ 0xF3 then some ⟨index, 1, byte - 0xF0, 0x80, 0xBF, 2⟩
  else if byte = 0xF4 then some ⟨index, 1, 4, 0x80, 0x8F, 2⟩
  else none

/-- Reads bytes from an index on, behind the characters already read, the latest first. -/
def decodeFrom (index : Nat) (begun : Option Begun) (read : List Char) :
    List UInt8 → Except Malformed (List Char)
  | [] =>
    match begun with
    | none => .ok read.reverse
    | some s => .error (.cut s.start)
  | b :: rest =>
    let byte := b.toNat
    match begun with
    | none =>
      if byte < 0x80 then decodeFrom (index + 1) none (Char.ofNat byte :: read) rest
      else
        match begin? index byte with
        | some s => decodeFrom (index + 1) (some s) read rest
        | none => .error (.bad 1 index)
    | some s =>
      if s.low ≤ byte ∧ byte ≤ s.high then
        let bits := 0x40 * s.bits + (byte - 0x80)
        match s.after with
        | 0 => decodeFrom (index + 1) none (Char.ofNat bits :: read) rest
        | after + 1 =>
          decodeFrom (index + 1) (some ⟨s.start, s.taken + 1, bits, 0x80, 0xBF, after⟩) read rest
      else .error (.bad s.taken s.start)

def decode (bytes : List UInt8) : Except Malformed String :=
  (decodeFrom 0 none [] bytes).map String.ofList

end Quasiquote.Utf8
