import Quasiquote.Proofs.Store.Closed

/-!
# Definitions of macros

* `Program.Leaves`: what is left of a program without its definitions of macros.
* `Program.definitions`, `Program.lastDefinition?`: the macros that a program defines by a name, and
  the last of them.
* `Store.DefinesOnly`: a frame binds the macros of a program, each name to the last of them, and
  nothing else has changed.
* `Store.bindMacros_definesOnly`: that is what binding the macros of a program does, one statement
  after the other.
* `Store.MacrosApart`: different names are bound to different new macros, as
  `MacrosApart.bindMacros` says of those that a program defines.
-/

namespace Quasiquote

/-- The parameters and the body of the macro that a statement defines by this name, if it does. -/
def Stmt.definition? (name : String) : Stmt → Option (List String × Block)
  | .bind bound (.routine .transformer params body) =>
    if bound = name then some (params, body) else none
  | _ => none

def Program.definitions (program : Program) (name : String) : List (List String × Block) :=
  program.filterMap (Stmt.definition? name)

def Program.lastDefinition? (program : Program) (name : String) : Option (List String × Block) :=
  program.reverse.findSome? (Stmt.definition? name)

theorem Program.lastDefinition?_append (first rest : Program) (name : String) :
    Program.lastDefinition? (first ++ rest) name =
      (Program.lastDefinition? rest name).or (Program.lastDefinition? first name) := by
  simp [lastDefinition?, List.findSome?_append]

theorem Program.lastDefinition?_eq (program : Program) (name : String) :
    program.lastDefinition? name = (program.definitions name).getLast? := by
  rw [lastDefinition?, definitions, List.getLast?_filterMap]

theorem Stmt.definition?_eq_none {st : Stmt} (other : st.isMacroBinding = false) (name : String) :
    st.definition? name = none := by
  unfold definition?
  split
  · cases other
  · rfl

/-- A statement that defines a macro. -/
theorem Stmt.isMacroBinding_iff {st : Stmt} :
    st.isMacroBinding ↔
      ∃ name params body, st = .bind name (.routine .transformer params body) := by
  constructor
  · intro binding
    unfold isMacroBinding at binding
    split at binding
    · exact ⟨_, _, _, rfl⟩
    · cases binding
  · rintro ⟨name, params, body, rfl⟩
    rfl

/-- What is left of a program when every binding of a macro literal at its top is taken out, and
nothing else. -/
inductive Program.Leaves : Program → Program → Prop
  | nil : Leaves [] []
  | taken {program rest} (name : String) (params : List String) (body : Block)
      (others : Leaves program rest) :
      Leaves (.bind name (.routine .transformer params body) :: program) rest
  | kept {st program rest}
      (other : ∀ name params body, st ≠ .bind name (.routine .transformer params body))
      (others : Leaves program rest) : Leaves (st :: program) (st :: rest)

theorem Stmt.isMacroBinding_eq_false_iff {st : Stmt} :
    st.isMacroBinding = false ↔
      ∀ name params body, st ≠ .bind name (.routine .transformer params body) := by
  simp [Bool.eq_false_iff, isMacroBinding_iff]

theorem Program.withoutMacros_cons {st : Stmt} (other : st.isMacroBinding = false)
    (program : Program) : withoutMacros (st :: program) = st :: withoutMacros program := by
  simp [withoutMacros, other]

theorem Program.leaves_iff {program rest : Program} :
    program.Leaves rest ↔ rest = program.withoutMacros := by
  constructor
  · intro leaves
    induction leaves with
    | nil => rfl
    | taken name params body _ ih => exact ih
    | kept other _ ih => rw [withoutMacros_cons (Stmt.isMacroBinding_eq_false_iff.mpr other), ih]
  · rintro rfl
    induction program with
    | nil => exact .nil
    | cons st program ih =>
      by_cases binding : st.isMacroBinding
      · obtain ⟨name, params, body, rfl⟩ := Stmt.isMacroBinding_iff.mp binding
        exact .taken name params body ih
      · have other := Bool.eq_false_iff.mpr binding
        rw [withoutMacros_cons other]
        exact .kept (Stmt.isMacroBinding_eq_false_iff.mp other) ih

namespace Store

/-- A frame binds each name that a program defines a macro by to the last such macro, which was made
anew and closes over that very frame. All other bindings, the frame around it and all other frames
are as they were. -/
structure DefinesOnly (frame : Nat) (program : Program) (s t : Store) : Prop where
  serials : s.serials ≤ t.serials
  others : ∀ (i : Nat) (f : Frame), i ≠ frame → s.frames[i]? = some f → t.frames[i]? = some f
  here : ∀ f : Frame, s.frames[frame]? = some f → ∃ g, t.frames[frame]? = some g ∧
    g.enclosing = f.enclosing ∧ ∀ name,
      match program.lastDefinition? name with
      | none => g.find? name = f.find? name
      | some (params, body) => ∃ serial, s.serials ≤ serial ∧
          g.find? name = some (.routine .transformer serial ⟨params, body, frame⟩)

section
variable {frame : Nat} {s t u : Store} {first rest : Program}

theorem DefinesOnly.nil (frame : Nat) (s : Store) : s.DefinesOnly frame [] s :=
  ⟨le_rfl, fun _ _ _ hf => hf, fun f hf => ⟨f, hf, rfl, fun _ => rfl⟩⟩

theorem DefinesOnly.append (h : s.DefinesOnly frame first t) (h' : t.DefinesOnly frame rest u) :
    s.DefinesOnly frame (first ++ rest) u := by
  refine ⟨h.serials.trans h'.serials, ?_, ?_⟩
  · intro i f other hf
    exact h'.others i f other (h.others i f other hf)
  · intro f hf
    obtain ⟨g, hg, around, bound⟩ := h.here f hf
    obtain ⟨k, hk, around', bound'⟩ := h'.here g hg
    refine ⟨k, hk, around'.trans around, fun name => ?_⟩
    have before := bound name
    have after := bound' name
    rw [Program.lastDefinition?_append]
    cases last : Program.lastDefinition? rest name with
    | none =>
      rw [last] at after
      rw [Option.none_or, after]
      exact before
    | some definition =>
      rw [last] at after
      obtain ⟨serial, fresh, found⟩ := after
      exact ⟨serial, h.serials.trans fresh, found⟩

/-- Later work that changes no frame adds nothing to what was defined. -/
theorem DefinesOnly.retains (h : s.DefinesOnly frame first t) (kept : t.Retains u)
    (serials : s.serials ≤ u.serials) : s.DefinesOnly frame first u := by
  refine ⟨serials, fun i f other hf => kept i f (h.others i f other hf), ?_⟩
  intro f hf
  obtain ⟨g, hg, bound⟩ := h.here f hf
  exact ⟨g, kept frame g hg, bound⟩

theorem bindMacro_eq_self {st : Stmt} (other : st.isMacroBinding = false) :
    bindMacro frame s st = s := by
  unfold bindMacro
  split
  · cases other
  · rfl

/-- A program without definitions binds nothing. -/
theorem bindMacros_eq_self {program : Program} (plain : program.withoutMacros = program) :
    s.bindMacros frame program = s := by
  have others : ∀ st ∈ program, st.isMacroBinding = false := by
    simpa [Program.withoutMacros] using plain
  unfold bindMacros
  induction program with
  | nil => rfl
  | cons st rest ih =>
    obtain ⟨first, rest⟩ := List.forall_mem_cons.mp others
    rw [List.foldl_cons, bindMacro_eq_self first]
    exact ih (by simpa [Program.withoutMacros] using rest) rest

theorem bindMacro_definesOnly (frame : Nat) (s : Store) (st : Stmt) :
    s.DefinesOnly frame [st] (bindMacro frame s st) := by
  by_cases binding : st.isMacroBinding
  · obtain ⟨name, params, body, rfl⟩ := Stmt.isMacroBinding_iff.mp binding
    refine ⟨Nat.le_succ _, ?_, ?_⟩
    · intro i f other hf
      exact (changesOnly_insert _ frame name _).others i f other hf
    · intro f hf
      let made : Value := .routine .transformer s.serials ⟨params, body, frame⟩
      have inserted : (bindMacro frame s (.bind name (.routine .transformer params body))).frames[
          frame]? = some (f.insert name made) := by
        simp [bindMacro, insert, Array.getElem?_modify, hf, made]
      refine ⟨f.insert name made, inserted, rfl, fun other => ?_⟩
      rw [Frame.find?_insert]
      by_cases same : name = other
      · simp [Program.lastDefinition?, Stmt.definition?, same, made]
      · simp [Program.lastDefinition?, Stmt.definition?, same, Ne.symm same]
  · have none : ∀ name, Program.lastDefinition? [st] name = none := by
      intro name
      simp [Program.lastDefinition?, Stmt.definition?_eq_none (by simpa using binding)]
    rw [bindMacro_eq_self (by simpa using binding)]
    refine ⟨le_rfl, fun _ _ _ hf => hf, fun f hf => ⟨f, hf, rfl, fun name => ?_⟩⟩
    rw [none name]

theorem bindMacros_definesOnly (frame : Nat) (s : Store) (program : Program) :
    s.DefinesOnly frame program (s.bindMacros frame program) := by
  induction program generalizing s with
  | nil => exact .nil frame s
  | cons st rest ih => exact (bindMacro_definesOnly frame s st).append (ih _)

theorem bindMacro_opened (frame : Nat) (s : Store) (st : Stmt) :
    (bindMacro frame s st).frames.size = s.frames.size := by
  unfold bindMacro
  split
  · simp [insert]
  · rfl

/-- Binding macros opens no frame. -/
theorem bindMacros_opened (frame : Nat) (s : Store) (program : Program) :
    (s.bindMacros frame program).frames.size = s.frames.size := by
  induction program generalizing s with
  | nil => rfl
  | cons st rest ih => exact (ih _).trans (bindMacro_opened frame s st)

end

/-! ## Numbers of new macros -/

/-- A frame binds a name to a macro with this serial number, which is not below `least`. -/
structure BindsNew (least frame : Nat) (s : Store) (name : String) (serial : Nat) : Prop where
  new : least ≤ serial
  bound : ∃ f closure, s.frames[frame]? = some f ∧
    f.find? name = some (.routine .transformer serial closure)

/-- Different names are bound to different new macros, whose numbers were given out. -/
structure MacrosApart (least frame : Nat) (s : Store) : Prop where
  given : ∀ name serial, BindsNew least frame s name serial → serial < s.serials
  apart : ∀ name name' serial, BindsNew least frame s name serial →
    BindsNew least frame s name' serial → name = name'

section
variable {least frame serial serial' : Nat} {s : Store} {name : String}

theorem BindsNew.serial_unique (h : BindsNew least frame s name serial)
    (h' : BindsNew least frame s name serial') : serial = serial' := by
  obtain ⟨f, closure, here, found⟩ := h.bound
  obtain ⟨f', closure', here', found'⟩ := h'.bound
  cases here.symm.trans here'
  cases found.symm.trans found'
  rfl

/-- What is bound to a new macro when a macro was defined: the name that it was defined by, or what
was before. -/
theorem BindsNew.of_bindMacro {bound : String} {params : List String} {body : Block}
    (h : BindsNew least frame (bindMacro frame s (.bind bound (.routine .transformer params body)))
      name serial) :
    name = bound ∧ serial = s.serials ∨ BindsNew least frame s name serial := by
  obtain ⟨g, closure, there, found⟩ := h.bound
  obtain ⟨f, here, rfl | rfl⟩ := frame_of_insert there
  · exact .inr ⟨h.new, g, closure, here, found⟩
  · rw [Frame.find?_insert] at found
    split at found
    · next same =>
      cases found
      exact .inl ⟨same, rfl⟩
    · exact .inr ⟨h.new, f, closure, here, found⟩

theorem MacrosApart.bindMacro (h : MacrosApart least frame s) (st : Stmt) :
    MacrosApart least frame (bindMacro frame s st) := by
  by_cases binding : st.isMacroBinding
  · obtain ⟨bound, params, body, rfl⟩ := Stmt.isMacroBinding_iff.mp binding
    constructor
    · intro name serial new
      rcases new.of_bindMacro with ⟨_, rfl⟩ | old
      · exact Nat.lt_succ_self _
      · exact (h.given name serial old).trans (Nat.lt_succ_self _)
    · intro name name' serial new new'
      rcases new.of_bindMacro with ⟨rfl, last⟩ | old <;>
        rcases new'.of_bindMacro with ⟨rfl, last'⟩ | old'
      · rfl
      · exact absurd (h.given name' serial old') (last ▸ lt_irrefl _)
      · exact absurd (h.given name serial old) (last' ▸ lt_irrefl _)
      · exact h.apart name name' serial old old'
  · rwa [bindMacro_eq_self (by simpa using binding)]

/-- The macros that a program defines by different names have different numbers. -/
theorem MacrosApart.bindMacros (h : MacrosApart least frame s) (program : Program) :
    MacrosApart least frame (s.bindMacros frame program) := by
  induction program generalizing s with
  | nil => exact h
  | cons st rest ih => exact ih (h.bindMacro st)

/-- A closed store binds no macro with a number that is still to be given out. -/
theorem Closed.not_bindsNew (closed : s.Closed) : ¬ BindsNew s.serials frame s name serial := by
  rintro ⟨new, f, closure, here, found⟩
  have within := closed.bindings frame f name _ here (Frame.mem_of_find? found)
  exact absurd within.1 new.not_gt

theorem Closed.macrosApart (closed : s.Closed) (frame : Nat) :
    MacrosApart s.serials frame s where
  given _ _ new := (closed.not_bindsNew new).elim
  apart _ _ _ new := (closed.not_bindsNew new).elim

end

end Store

end Quasiquote
