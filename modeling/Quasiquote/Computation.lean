import Quasiquote.Store

/-!
# Computations over a store

* An `Eval` reads and changes a store. It may also give no result: recursion is bounded by a depth,
  and a computation that gets below it is `exhausted`.
* A `Signalling` computation may be cut short by a signal besides. What is ordinary comes out as its
  result, and a signal skips everything up to a place that catches it; `Value.raise` decides
  between the two, so signals need no tests elsewhere.
* `Eval.bind_apply` and `Signalling.bind_apply` say what comes of one step after another.
-/

namespace Quasiquote

abbrev Eval (α : Type) := StateT Store Option α

/-- A computation over a store that a signal may cut short. -/
abbrev Signalling (α : Type) := ExceptT Value Eval α

namespace Eval

/-- No result, because the depth does not suffice. -/
def exhausted {α : Type} : Eval α := fun _ => none

/-- A serial number that was not given out before. -/
def newSerial : Eval Nat :=
  modifyGet fun s => (s.serials, { s with serials := s.serials + 1 })

def openFrame (f : Frame) : Eval Nat := modifyGet fun s => (s.frames.size, s.openFrame f)

def insert (frame : Nat) (name : String) (v : Value) : Eval Unit :=
  modify fun s => s.insert frame name v

def find? (frame : Nat) (name : String) : Eval (Option Value) := do
  return (← get).find? frame name

end Eval

theorem Eval.bind_apply {α β : Type} (x : Eval α) (f : α → Eval β) (s : Store) :
    (x >>= f) s =
      match x s with
      | none => none
      | some (a, t) => f a t := by
  change (x s).bind _ = _
  rcases x s with _ | ⟨a, t⟩ <;> rfl

theorem Signalling.bind_apply {α β : Type} (x : Signalling α) (f : α → Signalling β) (s : Store) :
    (x >>= f) s =
      match x s with
      | none => none
      | some (.ok a, t) => f a t
      | some (.error signal, t) => some (.error signal, t) := by
  change (x s).bind _ = _
  rcases x s with _ | ⟨_ | a, t⟩ <;> rfl

/-- An ordinary value as a result, and a signal as the end. -/
def Value.raise (v : Value) : Signalling Value :=
  if v.isSignal then throw v else pure v

namespace Signalling

/-- The result, or the signal that cut the computation short. -/
def settled (x : Signalling Value) : Eval Value := do
  match ← x.run with
  | .ok v => pure v
  | .error signal => pure signal

/-- The result, if any, or the signal that cut the computation short. -/
def settled? (x : Signalling (Option Value)) : Eval (Option Value) := do
  match ← x.run with
  | .ok v => pure v
  | .error signal => pure (some signal)

/-- Goes on with a value that was on its way out; faults stay on theirs. -/
def catchReturn (x : Signalling Value) : Signalling Value :=
  tryCatch x fun
    | .returned inner => inner.raise
    | signal => throw signal

end Signalling

end Quasiquote
