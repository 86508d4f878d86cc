import Quasiquote.Value

/-!
# Frames

A frame binds names to values and may have an enclosing frame, in which a name is looked up when the
frame itself does not bind it. A `Store` holds every frame that was ever opened, by number, and
counts the serial numbers given out.

* Frames are opened after the frames that enclose them, so `Store.find?` follows a link only to a
  smaller number, and always ends.
* `Store.insert` binds a name in one frame only, and hides what enclosing frames bind.
-/

namespace Quasiquote

/-- One scope: its bindings, the latest first and one for each name, and the number of the frame
around it. -/
structure Frame where
  bindings : List (String × Value)
  enclosing : Option Nat
  deriving DecidableEq

namespace Frame

/-- The value that this very frame binds to a name. -/
def find? (f : Frame) (name : String) : Option Value := f.bindings.lookup name

/-- The frame with a name bound to a value, in place of what the name was bound to. -/
def insert (f : Frame) (name : String) (v : Value) : Frame :=
  { f with bindings := (name, v) :: f.bindings.filter (·.1 != name) }

/-- The frame with names bound to values in order, so that the last of equal names counts. -/
def insertAll (f : Frame) (names : List String) (values : List Value) : Frame :=
  (names.zip values).foldl (fun g (name, v) => g.insert name v) f

end Frame

/-- Every frame by number, and how many serial numbers were given out. -/
structure Store where
  frames : Array Frame
  serials : Nat
  deriving DecidableEq

namespace Store

/-- One empty frame with none around it. -/
def initial : Store := ⟨#[⟨[], none⟩], 0⟩

/-- Opens a frame; its number is the number of frames before. -/
def openFrame (s : Store) (f : Frame) : Store := { s with frames := s.frames.push f }

def insert (s : Store) (frame : Nat) (name : String) (v : Value) : Store :=
  { s with frames := s.frames.modify frame (·.insert name v) }

/-- The value of a name seen from a frame: what the frame binds, or else what the frames around it
bind, the nearest first. -/
def find? (s : Store) (frame : Nat) (name : String) : Option Value :=
  match s.frames[frame]? with
  | none => none
  | some f =>
    match f.find? name with
    | some v => some v
    | none =>
      match f.enclosing with
      | none => none
      | some outer => if outer < frame then s.find? outer name else none
termination_by frame

end Store

end Quasiquote
