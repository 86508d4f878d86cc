import Quasiquote.Proofs.Store.Confinement

/-!
# Looking up names

* `Store.find?_eq`: a frame sees what it binds, or else what the frame around it sees.
* `Store.find?_of_retains`: what a frame sees stays as it is while every frame does.
* `Store.find?_mem`: what a frame sees is bound in some frame.
* `Store.frame_of_openFrame`, `Store.frame_of_insert`: where the frames of a store come from.
-/

namespace Quasiquote

theorem Frame.mem_of_find? {f : Frame} {name : String} {v : Value} (h : f.find? name = some v) :
    (name, v) ∈ f.bindings := by
  obtain ⟨before, after, eq, _⟩ := List.lookup_eq_some_iff.mp h
  simp [eq]

namespace Frame

theorem find?_insert (f : Frame) (name : String) (v : Value) (other : String) :
    (f.insert name v).find? other = if other = name then some v else f.find? other := by
  unfold find? insert
  by_cases eq : other = name
  · simp [eq]
  · simp only [List.lookup_cons, beq_false_of_ne eq, eq, ↓reduceIte]
    induction f.bindings with
    | nil => rfl
    | cons binding rest ih =>
      obtain ⟨key, w⟩ := binding
      by_cases here : key = name
      · have ne : other ≠ key := here ▸ eq
        simpa [List.filter_cons, List.lookup_cons, here, beq_false_of_ne eq] using ih
      · simp only [List.filter_cons, bne_iff_ne, ne_eq, here, not_false_eq_true, ↓reduceIte,
          List.lookup_cons, ih]

theorem mem_insert {f : Frame} {name other : String} {v w : Value}
    (h : (other, w) ∈ (f.insert name v).bindings) : w = v ∨ (other, w) ∈ f.bindings := by
  rcases List.mem_cons.mp h with eq | old
  · exact .inl (Prod.mk.inj eq).2
  · exact .inr (List.mem_filter.mp old).1

theorem insertAll_cons (f : Frame) (name : String) (names : List String) (v : Value)
    (values : List Value) :
    f.insertAll (name :: names) (v :: values) = (f.insert name v).insertAll names values := rfl

@[simp] theorem insertAll_enclosing (f : Frame) (names : List String) (values : List Value) :
    (f.insertAll names values).enclosing = f.enclosing := by
  induction names generalizing f values with
  | nil => rfl
  | cons name names ih =>
    cases values with
    | nil => rfl
    | cons v values => rw [insertAll_cons, ih]; rfl

theorem mem_insertAll {f : Frame} {names : List String} {values : List Value} {name : String}
    {v : Value} (h : (name, v) ∈ (f.insertAll names values).bindings) :
    v ∈ values ∨ (name, v) ∈ f.bindings := by
  induction names generalizing f values with
  | nil => exact .inr h
  | cons first names ih =>
    cases values with
    | nil => exact .inr h
    | cons w values =>
      rcases ih (f := f.insert first w) h with inside | bound
      · exact .inl (List.mem_cons_of_mem _ inside)
      · rcases mem_insert bound with rfl | old
        · exact .inl List.mem_cons_self
        · exact .inr old

theorem find?_insertAll {names : List String} (distinct : names.Nodup) (f : Frame)
    (values : List Value) (name : String) :
    (f.insertAll names values).find? name = ((names.zip values).lookup name).or (f.find? name) := by
  induction names generalizing f values with
  | nil => rfl
  | cons first names ih =>
    cases values with
    | nil => rfl
    | cons v values =>
      obtain ⟨fresh, distinct⟩ := List.nodup_cons.mp distinct
      rw [insertAll_cons, ih distinct, find?_insert, List.zip_cons_cons, List.lookup_cons]
      by_cases eq : name = first
      · have absent : (names.zip values).lookup first = none :=
          List.lookup_eq_none_iff.mpr fun binding inside =>
            bne_iff_ne.mpr fun same => fresh (same ▸ (List.of_mem_zip inside).1)
        simp [eq, absent]
      · simp [eq, beq_false_of_ne eq]

/-- Of equal names the last one counts. -/
theorem find?_insertAll_last (f : Frame) (names : List String) (values : List Value)
    (name : String) :
    (f.insertAll names values).find? name =
      ((names.zip values).reverse.lookup name).or (f.find? name) := by
  induction names generalizing f values with
  | nil => rfl
  | cons first names ih =>
    cases values with
    | nil => rfl
    | cons v values =>
      rw [insertAll_cons, ih, find?_insert, List.zip_cons_cons, List.reverse_cons,
        List.lookup_append, Option.or_assoc, List.lookup_cons, List.lookup_nil]
      by_cases eq : name = first
      · simp [eq]
      · simp [eq, beq_false_of_ne eq]

end Frame

@[simp] theorem Closure.callFrame_enclosing (closure : Closure) (args : List Value) :
    (closure.callFrame args).enclosing = some closure.frame := by
  simp [callFrame]

theorem Closure.find?_callFrame {closure : Closure} (distinct : closure.params.Nodup)
    (args : List Value) (name : String) :
    (closure.callFrame args).find? name = (closure.params.zip args).lookup name := by
  rw [callFrame, Frame.find?_insertAll distinct]
  exact Option.or_none

theorem Closure.find?_callFrame_last (closure : Closure) (args : List Value) (name : String) :
    (closure.callFrame args).find? name = (closure.params.zip args).reverse.lookup name := by
  rw [callFrame, Frame.find?_insertAll_last]
  exact Option.or_none

theorem Closure.mem_callFrame {closure : Closure} {args : List Value} {name : String} {v : Value}
    (h : (name, v) ∈ (closure.callFrame args).bindings) : v ∈ args := by
  rcases Frame.mem_insertAll h with inside | bound
  · exact inside
  · cases bound

namespace Store

theorem find?_eq {s : Store} {frame : Nat} {f : Frame} (here : s.frames[frame]? = some f)
    (name : String) :
    s.find? frame name = (f.find? name).or
      (f.enclosing.bind fun outer => if outer < frame then s.find? outer name else none) := by
  rw [find?, here]
  dsimp only
  cases f.find? name <;> cases f.enclosing <;> rfl

theorem find?_of_retains {s t : Store} (kept : s.Retains t) {frame : Nat}
    (opened : frame < s.frames.size) (name : String) : t.find? frame name = s.find? frame name := by
  induction frame using Nat.strongRecOn with
  | ind frame ih =>
    have here : s.frames[frame]? = some s.frames[frame] := Array.getElem?_eq_getElem opened
    rw [find?_eq (kept _ _ here), find?_eq here]
    cases s.frames[frame].enclosing with
    | none => rfl
    | some outer =>
      simp only [Option.bind_some]
      split
      · next lower => rw [ih outer lower (lower.trans opened)]
      · rfl

theorem find?_mem {s : Store} {frame : Nat} {name : String} {v : Value}
    (h : s.find? frame name = some v) :
    ∃ (i : Nat) (f : Frame), s.frames[i]? = some f ∧ (name, v) ∈ f.bindings := by
  induction frame using Nat.strongRecOn with
  | ind frame ih =>
    cases here : s.frames[frame]? with
    | none =>
      rw [find?, here] at h
      cases h
    | some f =>
      rw [find?_eq here, Option.or_eq_some_iff] at h
      rcases h with bound | ⟨_, further⟩
      · exact ⟨frame, f, here, Frame.mem_of_find? bound⟩
      · obtain ⟨outer, _, seen⟩ := Option.bind_eq_some_iff.mp further
        split at seen
        · next lower => exact ih outer lower seen
        · cases seen

theorem find?_insert_self {s : Store} {frame : Nat} (opened : frame < s.frames.size)
    (name : String) (v : Value) : (s.insert frame name v).find? frame name = some v := by
  have before : s.frames[frame]? = some s.frames[frame] := Array.getElem?_eq_getElem opened
  have here : (s.insert frame name v).frames[frame]? = some (s.frames[frame].insert name v) := by
    simp only [insert, Array.getElem?_modify, before, if_true, Option.map_some]
  rw [find?_eq here, Frame.find?_insert, if_pos rfl]
  rfl

/-- A frame after one was opened: a frame from before, or that one. -/
theorem frame_of_openFrame {s : Store} {f g : Frame} {i : Nat}
    (h : (s.openFrame f).frames[i]? = some g) :
    s.frames[i]? = some g ∨ i = s.frames.size ∧ g = f := by
  simp only [openFrame, Array.getElem?_push] at h
  split at h
  · next last => exact .inr ⟨last, (Option.some.inj h).symm⟩
  · exact .inl h

/-- A frame after a name was bound: a frame from before, in which the name may be bound. -/
theorem frame_of_insert {s : Store} {frame i : Nat} {name : String} {v : Value} {g : Frame}
    (h : (s.insert frame name v).frames[i]? = some g) :
    ∃ f, s.frames[i]? = some f ∧ (g = f ∨ g = f.insert name v) := by
  simp only [insert, Array.getElem?_modify] at h
  split at h
  · obtain ⟨f, hf, rfl⟩ := Option.map_eq_some_iff.mp h
    exact ⟨f, hf, .inr rfl⟩
  · exact ⟨g, h, .inl rfl⟩

theorem opened_of_find? {s : Store} {frame : Nat} {name : String} {v : Value}
    (h : s.find? frame name = some v) : frame < s.frames.size := by
  cases here : s.frames[frame]? with
  | none =>
    rw [find?, here] at h
    cases h
  | some f => exact (Array.getElem?_eq_some_iff.mp here).1

theorem macroCall?_eq_some {s : Store} {frame : Nat} {e : Expr} {call : MacroCall}
    (h : s.macroCall? frame e = some call) :
    e = .call (.name call.name) call.args ∧
      ∃ serial, s.find? frame call.name = some (.routine .transformer serial call.closure) := by
  unfold macroCall? at h
  split at h
  · split at h
    · next found =>
      cases h
      exact ⟨rfl, _, found⟩
    · cases h
  · cases h

end Store

theorem Expr.eval_name {s : Store} {frame : Nat} {name : String} {v : Value}
    (seen : s.find? frame name = some v) (quiet : v.isSignal = false) (depth : Nat) :
    Expr.eval (depth + 1) frame (.name name) s = some (.ok v, s) := by
  change ((s.find? frame name).getD (.fault (.unbound name))).raise s = _
  rw [seen, Option.getD_some, Value.raise, quiet]
  rfl

end Quasiquote
