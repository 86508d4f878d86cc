import Quasiquote.Proofs.Store.Lookup

/-!
# Stores without loose numbers

A store is `Closed` if every number in it was given out: frames are inside frames that were opened
before them, and the values they bind have serial numbers and frames that there are.
-/

namespace Quasiquote

/-- The numbers in a value were given out. -/
def Value.Within : Value → Store → Prop
  | .routine _ serial closure, s => serial < s.serials ∧ closure.frame < s.frames.size
  | .quotation serial _, s => serial < s.serials
  | .returned inner, s => inner.Within s
  | _, _ => True

/-- Every number in a store was given out. -/
structure Store.Closed (s : Store) : Prop where
  enclosing : ∀ (i : Nat) (f : Frame) (outer : Nat), s.frames[i]? = some f →
    f.enclosing = some outer → outer < i
  bindings : ∀ (i : Nat) (f : Frame) (name : String) (v : Value), s.frames[i]? = some f →
    (name, v) ∈ f.bindings → v.Within s

theorem Value.Within.mono {s t : Store} (frames : s.frames.size ≤ t.frames.size)
    (serials : s.serials ≤ t.serials) {v : Value} (h : v.Within s) : v.Within t := by
  induction v with
  | routine role serial closure => exact ⟨h.1.trans_le serials, h.2.trans_le frames⟩
  | quotation serial node => exact Nat.lt_of_lt_of_le h serials
  | returned inner ih => exact ih h
  | _ => trivial

end Quasiquote
