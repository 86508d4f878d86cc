import Quasiquote.Proofs.Store.Lookup

/-!
# Stores that differ in what one name is bound to

* `Store.SameBut`: two stores have the same frames but for what these bind to one name, and have
  given out the same serial numbers. It is an equivalence.
* Whatever is bound to the name makes no difference (`Store.SameBut.insert_left`), and what is done
  in both stores leaves them so.
-/

namespace Quasiquote

/-- Two frames are inside the same one and bind the same but to one name. -/
structure Frame.SameBut (x : String) (f g : Frame) : Prop where
  enclosing : f.enclosing = g.enclosing
  bindings : ∀ name, name ≠ x → f.find? name = g.find? name

/-- Two stores have given out the same, and every frame binds the same but to one name. -/
structure Store.SameBut (x : String) (s t : Store) : Prop where
  serials : s.serials = t.serials
  frames : ∀ i : Nat, Option.Rel (Frame.SameBut x) s.frames[i]? t.frames[i]?

section
variable {x : String}

theorem Frame.SameBut.refl (f : Frame) : f.SameBut x f := ⟨rfl, fun _ _ => rfl⟩

theorem Frame.SameBut.symm {f g : Frame} (h : f.SameBut x g) : g.SameBut x f :=
  ⟨h.enclosing.symm, fun name ne => (h.bindings name ne).symm⟩

theorem Frame.SameBut.trans {f g k : Frame} (h : f.SameBut x g) (h' : g.SameBut x k) :
    f.SameBut x k :=
  ⟨h.enclosing.trans h'.enclosing,
    fun name ne => (h.bindings name ne).trans (h'.bindings name ne)⟩

theorem Frame.SameBut.insert {f g : Frame} (h : f.SameBut x g) (name : String) (v : Value) :
    (f.insert name v).SameBut x (g.insert name v) := by
  constructor
  · exact h.enclosing
  · intro other ne
    rw [Frame.find?_insert, Frame.find?_insert, h.bindings other ne]

namespace Store.SameBut

variable {s t u : Store}

theorem refl (s : Store) : s.SameBut x s := by
  constructor
  · rfl
  · intro i
    cases s.frames[i]? with
    | none => exact .none
    | some f => exact .some (.refl f)

theorem symm (h : s.SameBut x t) : t.SameBut x s := by
  constructor
  · exact h.serials.symm
  · intro i
    have rel := h.frames i
    generalize s.frames[i]? = given, t.frames[i]? = given' at rel
    cases rel with
    | none => exact .none
    | some same => exact .some same.symm

theorem trans (h : s.SameBut x t) (h' : t.SameBut x u) : s.SameBut x u := by
  constructor
  · exact h.serials.trans h'.serials
  · intro i
    have rel := h.frames i
    have rel' := h'.frames i
    generalize s.frames[i]? = given, t.frames[i]? = given', u.frames[i]? = given'' at rel rel'
    cases rel with
    | none => exact rel'
    | some same =>
      cases rel' with
      | some same' => exact .some (same.trans same')

/-- Whatever is bound to the name makes no difference. -/
theorem insert_left (s : Store) (frame : Nat) (v : Value) : s.SameBut x (s.insert frame x v) := by
  constructor
  · rfl
  · intro i
    by_cases eq : frame = i
    · cases here : s.frames[i]? with
      | none => simp [Store.insert, Array.getElem?_modify, here]
      | some f =>
        have differ : f.SameBut x (f.insert x v) :=
          ⟨rfl, fun name ne => by rw [Frame.find?_insert, if_neg ne]⟩
        simpa [Store.insert, Array.getElem?_modify, here, eq] using differ
    · have same := (refl (x := x) s).frames i
      simpa [Store.insert, Array.getElem?_modify, eq] using same

theorem opened_eq (h : s.SameBut x t) : s.frames.size = t.frames.size := by
  have beyond (i : Nat) : s.frames.size ≤ i ↔ t.frames.size ≤ i := by
    have rel := h.frames i
    rw [← Array.getElem?_eq_none_iff, ← Array.getElem?_eq_none_iff]
    generalize s.frames[i]? = given, t.frames[i]? = given' at rel
    cases rel <;> simp
  exact le_antisymm ((beyond _).mpr le_rfl) ((beyond _).mp le_rfl)

theorem frame (h : s.SameBut x t) {i : Nat} {f : Frame} (here : s.frames[i]? = some f) :
    ∃ g, t.frames[i]? = some g ∧ f.SameBut x g := by
  have rel := h.frames i
  rw [here] at rel
  cases there : t.frames[i]? <;> rw [there] at rel <;> cases rel
  next same => exact ⟨_, rfl, same⟩

theorem newSerial (h : s.SameBut x t) :
    Store.SameBut x { s with serials := s.serials + 1 } { t with serials := t.serials + 1 } :=
  ⟨congrArg Nat.succ h.serials, h.frames⟩

theorem openFrame (h : s.SameBut x t) (sizes : s.frames.size = t.frames.size) {f g : Frame}
    (same : f.SameBut x g) : (s.openFrame f).SameBut x (t.openFrame g) := by
  constructor
  · exact h.serials
  · intro i
    simp only [Store.openFrame, Array.getElem?_push, sizes]
    split
    · exact .some same
    · exact h.frames i

theorem insert (h : s.SameBut x t) (frame : Nat) (name : String) (v : Value) :
    (s.insert frame name v).SameBut x (t.insert frame name v) := by
  constructor
  · exact h.serials
  · intro i
    have rel := h.frames i
    simp only [Store.insert, Array.getElem?_modify]
    split
    · generalize s.frames[i]? = given, t.frames[i]? = given' at rel
      cases rel with
      | none => exact .none
      | some same => exact .some (same.insert name v)
    · exact rel

end Store.SameBut

end

end Quasiquote
