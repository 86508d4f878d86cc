import Quasiquote.Text.Cluster

/-!
# Erasing

In a typed line, a backspace takes back the cluster typed before it. How many bytes a cluster takes
is kept in one byte: of a cluster of 256 bytes or more only the remainder is taken back, from its
end. A line in which that would leave half a character cannot be read.
-/

namespace Quasiquote.Erasing

/-- A line while it is typed: its characters, the latest first, and the sizes of the clusters that
can still be taken back, the latest first. -/
structure Draft where
  kept : List Char
  sizes : List UInt8

/-- Takes bytes from the end of a text, given from its end, unless that leaves half a character. -/
def dropBytes : Nat → List Char → Option (List Char)
  | 0, kept => some kept
  | _ + 1, [] => none
  | n + 1, c :: kept =>
    if c.utf8Size ≤ n + 1 then dropBytes (n + 1 - c.utf8Size) kept else none

/-- The bytes that a cluster takes, as far as one byte tells. -/
def size (cluster : List Char) : UInt8 :=
  Nat.toUInt8 (cluster.foldr (fun c bytes => c.utf8Size + bytes) 0)

/-- Types a cluster. A backspace at the start does nothing. -/
def Draft.type (draft : Draft) (cluster : List Char) : Option Draft :=
  if cluster = ['\x08'] then
    match draft.sizes with
    | [] => some draft
    | size :: sizes => do some ⟨← dropBytes size.toNat draft.kept, sizes⟩
  else some ⟨cluster.reverse ++ draft.kept, size cluster :: draft.sizes⟩

/-- What a line says once its backspaces are carried out, if it can be read. -/
def typed (line : String) : Option String := do
  let draft ← (Cluster.clusters line.toList).foldlM Draft.type ⟨[], []⟩
  some (String.ofList draft.kept.reverse)

end Quasiquote.Erasing
