import Quasiquote.Text.Extending
import Quasiquote.Text.Unprintable

/-!
# Quoted names

A name in double quotes, so that a message shows where it starts and ends and what is in it. Double
quotes and backslashes get a backslash in front; line ends, tabs and NUL are written as letters;
characters that print nothing of their own, and marks that would be drawn onto the character before
them, are written by their number.
-/

namespace Quasiquote

/-- Whether a character is one of the two halfwidth Katakana sound marks. They extend the character
before them, yet take a place of their own. -/
def isHalfwidthSoundMark (c : Char) : Bool := 0xFF9E ≤ c.toNat && c.toNat ≤ 0xFF9F

/-- Whether a character is drawn onto the one before it. -/
def isDrawnOnto (c : Char) : Bool := extending.has c && !isHalfwidthSoundMark c

/-- Whether a character is shown as it is. Printed ASCII is looked at first: it is in no table. -/
def isShown (c : Char) : Bool :=
  (0x20 ≤ c.toNat && c.toNat ≤ 0x7E) || !(isDrawnOnto c || unprintable.has c)

def escapeInName (c : Char) : List Char :=
  if c = '"' then ['\\', '"']
  else if c = '\\' then ['\\', '\\']
  else if c = '\n' then ['\\', 'n']
  else if c = '\r' then ['\\', 'r']
  else if c = '\t' then ['\\', 't']
  else if c.toNat = 0 then ['\\', '0']
  else if isShown c then [c]
  else ['\\', 'u', '{'] ++ Nat.toDigits 16 c.toNat ++ ['}']

def quotedName (name : String) : String :=
  "\"" ++ String.ofList (name.toList.flatMap escapeInName) ++ "\""

end Quasiquote
