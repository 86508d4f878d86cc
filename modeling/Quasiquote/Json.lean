/-!
# JSON values and their indented text

Integers are exact and of any size, and the members of an object keep their order. In the indented
text each member stands on a line of its own, two blanks deeper than its container; an empty
container is closed at once.
-/

namespace Quasiquote

/-- JSON values; there are no fractions. -/
inductive Json
  | null
  | bool (b : Bool)
  | int (n : Int)
  | string (s : String)
  | array (items : List Json)
  | object (members : List (String × Json))

namespace Json

/-- An object with one member, the form of a value that carries its own tag. -/
def tagged (tag : String) (content : Json) : Json := .object [(tag, content)]

def hexDigit (n : Nat) : Char := (Nat.toDigits 16 n).headD '0'

/-- A character inside quotes. The quote, the backslash and the characters below the blank are
escaped, five of them by a letter and the others by their number; all else stands for itself. -/
def escape (c : Char) : List Char :=
  if c = '"' then ['\\', '"']
  else if c = '\\' then ['\\', '\\']
  else if c = '\n' then ['\\', 'n']
  else if c = '\r' then ['\\', 'r']
  else if c = '\t' then ['\\', 't']
  else if c.toNat = 8 then ['\\', 'b']
  else if c.toNat = 12 then ['\\', 'f']
  else if c.toNat < 32 then ['\\', 'u', '0', '0', hexDigit (c.toNat / 16), hexDigit (c.toNat % 16)]
  else [c]

def quoted (s : String) : String :=
  "\"" ++ String.ofList (s.toList.flatMap escape) ++ "\""

def newline (depth : Nat) : String := "\n" ++ String.ofList (List.replicate (2 * depth) ' ')

mutual

/-- The indented text of a value that stands so many levels deep. -/
def indented (depth : Nat) : Json → String
  | .null => "null"
  | .bool true => "true"
  | .bool false => "false"
  | .int n => toString n
  | .string s => quoted s
  | .array [] => "[]"
  | .array (x :: rest) =>
    "[" ++ newline (depth + 1) ++ indented (depth + 1) x ++ itemsText (depth + 1) rest
      ++ newline depth ++ "]"
  | .object [] => "\x7b\x7d"
  | .object ((key, x) :: rest) =>
    "\x7b" ++ newline (depth + 1) ++ quoted key ++ ": " ++ indented (depth + 1) x
      ++ membersText (depth + 1) rest ++ newline depth ++ "\x7d"

/-- The later items of an array, each behind a comma on a line of its own. -/
def itemsText (depth : Nat) : List Json → String
  | [] => ""
  | x :: rest => "," ++ newline depth ++ indented depth x ++ itemsText depth rest

/-- The later members of an object, each behind a comma on a line of its own. -/
def membersText (depth : Nat) : List (String × Json) → String
  | [] => ""
  | (key, x) :: rest =>
    "," ++ newline depth ++ quoted key ++ ": " ++ indented depth x ++ membersText depth rest

end

/-- The indented text of a whole document. -/
def text (document : Json) : String := document.indented 0

end Json

end Quasiquote
