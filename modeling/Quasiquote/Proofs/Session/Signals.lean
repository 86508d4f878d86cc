import Quasiquote.Proofs.Session.Soundness

/-!
# Signals are passed outward and never kept

* `Session.Reachable`: the stores that runs lead to. `Session.Moment`: the stores that a run may
  come to on its way, with the values it has at hand there.
* `Store.Disciplined`: no frame binds a signal, macros capture the global frame, and the frames form
  a tree with the global frame at its root.
* `signals_confined`: at every moment the store is disciplined, what is on its way out of a call is
  no signal itself, and neither a call nor a run gives a value that is still on its way out.
-/

namespace Quasiquote

namespace Session

/-- The stores that runs lead to, from the initial one. A run may be rejected. -/
inductive Reachable : Store → Prop
  | initial : Reachable .initial
  | run {s t depth source out} (before : Reachable s)
      (run : Session.run depth source s = some (out, t)) : Reachable t

/-- What runs come to on their way: a store, and values that were given there. A run defines macros,
evaluates expressions in frames that there are, binds values that it was given, quotes arguments,
and enters routines that it was given with arguments that it was given. Every moment of a run is
among these, also where the run never ends. -/
inductive Moment : Store → List Value → Prop
  | between {s} (reached : Reachable s) : Moment s []
  | define {s hand} (st : Stmt) (before : Moment s hand) : Moment (s.bindMacro globals st) hand
  | value {s t hand depth frame e v} (before : Moment s hand) (opened : frame < s.frames.size)
      (run : Expr.eval depth frame e s = some (.ok v, t)) : Moment t (v :: hand)
  | signal {s t hand depth frame e v} (before : Moment s hand) (opened : frame < s.frames.size)
      (run : Expr.eval depth frame e s = some (.error v, t)) : Moment t hand
  | bind {s hand frame v} (name : String) (before : Moment s hand) (given : v ∈ hand) :
      Moment (s.insert frame name v) hand
  | quote {s hand} (node : Expr) (before : Moment s hand) :
      Moment { s with serials := s.serials + 1 } (.quotation s.serials node :: hand)
  | enter {s hand role serial closure args} (before : Moment s hand)
      (given : .routine role serial closure ∈ hand) (args_given : ∀ v ∈ args, v ∈ hand) :
      Moment (s.openFrame (closure.callFrame args)) hand

end Session

def Store.Inside (s : Store) (inner outer : Nat) : Prop :=
  ∃ f, s.frames[inner]? = some f ∧ f.enclosing = some outer

/-- No signal is bound, and the frames are as they should be. -/
structure Store.Disciplined (s : Store) : Prop where
  values : ∀ (i : Nat) (f : Frame) (name : String) (v : Value), s.frames[i]? = some f →
    (name, v) ∈ f.bindings → v.isSignal = false
  macros : ∀ (i : Nat) (f : Frame) (name : String) (serial : Nat) (closure : Closure),
    s.frames[i]? = some f → (name, .routine .transformer serial closure) ∈ f.bindings →
    closure.frame = Session.globals
  acyclic : ∀ i, ¬ Relation.TransGen s.Inside i i
  rooted : ∀ i, i < s.frames.size → Relation.ReflTransGen s.Inside i Session.globals
  outermost : ∀ outer, ¬ s.Inside Session.globals outer

/-- What is on its way out is no signal itself. -/
def Value.WrapsNoSignal (v : Value) : Prop :=
  ∀ inner, v = .returned inner → inner.isSignal = false

section
variable {s : Store}

theorem Store.Sound.lt_of_inside (h : s.Sound) {inner outer : Nat}
    (inside : Relation.TransGen s.Inside inner outer) : outer < inner := by
  induction inside with
  | single step =>
    obtain ⟨f, hf, around⟩ := step
    exact h.enclosing _ f _ hf around
  | tail _ step ih =>
    obtain ⟨f, hf, around⟩ := step
    exact (h.enclosing _ f _ hf around).trans ih

theorem Store.Sound.rooted (h : s.Sound) {i : Nat} (opened : i < s.frames.size) :
    Relation.ReflTransGen s.Inside i Session.globals := by
  induction i using Nat.strongRecOn with
  | ind i ih =>
    have here : s.frames[i]? = some s.frames[i] := Array.getElem?_eq_getElem opened
    cases around : s.frames[i].enclosing with
    | none =>
      obtain rfl := (h.outermost i _ here).mp around
      exact .refl
    | some outer =>
      have lower := h.enclosing i _ outer here around
      exact .head ⟨_, here, around⟩ (ih outer lower (lower.trans opened))

theorem Store.Sound.disciplined (h : s.Sound) : s.Disciplined where
  values i f name v hf bound := (h.bindings i f name v hf bound).ordinary
  macros i f name serial closure hf bound := (h.bindings i f name _ hf bound).globalMacro _ _ rfl
  acyclic _ cycle := lt_irrefl _ (h.lt_of_inside cycle)
  rooted _ opened := h.rooted opened
  outermost outer inside := by
    obtain ⟨f, hf, around⟩ := inside
    exact Option.some_ne_none outer (around.symm.trans ((h.outermost _ f hf).mpr rfl))

theorem Value.wrapsNoSignal_of_sound {v : Value} (h : v.Sound s ∨ v.SoundSignal s) :
    v.WrapsNoSignal := by
  rintro inner rfl
  rcases h with sound | signal
  · cases sound.ordinary
  · exact Value.Sound.ordinary signal

theorem Value.kind_ne_returned {v : Value} (h : v.Sound s ∨ v.isFault) : v.kind ≠ .returned := by
  cases v with
  | returned inner =>
    rcases h with sound | fault
    · cases sound.ordinary
    · cases fault
  | routine role => cases role <;> nofun
  | _ => nofun

end

namespace Session

open Eval Store

theorem Reachable.sound {s : Store} (h : Reachable s) : s.Sound := by
  induction h with
  | initial => exact sound_initial
  | run _ run ih => exact (run_sound _ _ ih _ _ run).1.sound ih

theorem Moment.sound {s : Store} {hand : List Value} (h : Moment s hand) :
    s.Sound ∧ ∀ v ∈ hand, v.Sound s := by
  induction h with
  | between reached => exact ⟨reached.sound, by simp⟩
  | define st _ ih =>
    have step := bindMacro_advances st ih.1
    exact ⟨step.sound ih.1, fun v given => (ih.2 v given).advance step⟩
  | value _ opened run ih =>
    obtain ⟨step, given⟩ := Expr.eval_sound _ _ _ _ ⟨ih.1, opened⟩ _ _ run
    exact ⟨step.sound ih.1,
      List.forall_mem_cons.mpr ⟨given, fun v given => (ih.2 v given).advance step⟩⟩
  | signal _ opened run ih =>
    obtain ⟨step, _⟩ := Expr.eval_sound _ _ _ _ ⟨ih.1, opened⟩ _ _ run
    exact ⟨step.sound ih.1, fun v given => (ih.2 v given).advance step⟩
  | @bind _ _ frame _ name _ given ih =>
    have step := advances_insert frame name (ih.2 _ given)
    exact ⟨step.sound ih.1, fun v given => (ih.2 v given).advance step⟩
  | @quote s _ node _ ih =>
    have step := s.advances_newSerial
    exact ⟨step.sound ih.1, List.forall_mem_cons.mpr
      ⟨Value.sound_quotation (Nat.lt_succ_self _) node, fun v given => (ih.2 v given).advance step⟩⟩
  | enter _ given args_given ih =>
    have step := advances_callFrame (ih.2 _ given).within.2 fun v hv => ih.2 v (args_given v hv)
    exact ⟨step.sound ih.1, fun v given => (ih.2 v given).advance step⟩

end Session

open Eval Store

/-- Signals stay on their way. The store that any runs lead to is disciplined, and so is the store
at every moment of a run; whatever is evaluated there, what it gives on its way out is no signal
itself; and neither calling a value at hand nor running a source gives a value that is still on its
way out. -/
theorem signals_confined :
    (∀ s, Session.Reachable s → s.Disciplined) ∧
    ∀ s hand, Session.Moment s hand →
      s.Disciplined ∧
      (∀ depth frame, frame < s.frames.size →
        (∀ e v t, (Expr.eval depth frame e).settled s = some (v, t) → v.WrapsNoSignal) ∧
        (∀ node v t, (Expr.quote depth frame node).settled s = some (v, t) → v.WrapsNoSignal) ∧
        (∀ st v t, (Stmt.eval depth frame st).settled? s = some (some v, t) → v.WrapsNoSignal) ∧
        (∀ block v t, (Block.eval depth frame block).settled? s = some (some v, t) →
          v.WrapsNoSignal)) ∧
      (∀ depth callee args v t, callee ∈ hand → (∀ a ∈ args, a ∈ hand) →
        (Value.call depth callee args).settled s = some (v, t) → v.kind ≠ .returned) ∧
      (∀ depth source v t, Session.run depth source s = some (.ok (some v), t) →
        v.kind ≠ .returned) := by
  refine ⟨fun s reached => reached.sound.disciplined, fun s hand moment => ?_⟩
  obtain ⟨sound, atHand⟩ := moment.sound
  refine ⟨sound.disciplined, fun depth frame opened => ?_, ?_, ?_⟩
  · have hosts : Hosts frame s := ⟨sound, opened⟩
    have eval := Expr.eval_sound depth
    refine ⟨fun e v t run => ?_, fun node v t run => ?_, fun st v t run => ?_,
      fun block v t run => ?_⟩
    · exact Value.wrapsNoSignal_of_sound ((eval frame e s hosts).settled _ _ run).2
    · exact Value.wrapsNoSignal_of_sound ((Expr.quoteWith_sound eval node hosts).settled _ _ run).2
    · have given := ((Stmt.evalWith_sound eval st hosts).settled? _ _ run).2
      exact Value.wrapsNoSignal_of_sound (given v rfl)
    · have given := ((Block.eval_sound depth block hosts).settled? _ _ run).2
      exact Value.wrapsNoSignal_of_sound (given v rfl)
  · intro depth callee args v t given args_given run
    have call := Value.call_sound depth sound (atHand _ given)
      fun a ha => atHand a (args_given a ha)
    exact Value.kind_ne_returned (call.settled _ _ run).2
  · intro depth source v t run
    exact Value.kind_ne_returned ((Session.run_sound depth source sound _ _ run).2 v rfl)

/-- A function with a `return` in a branch. -/
def returning : Closure := ⟨["x"], [.expr (.cond (.name "x") [.ret (.int 1)] none)], 0⟩

/-- What `let f = fn(x) { if (x) { return 1 } }` leaves. -/
def returningStore : Store := ⟨#[⟨[("f", .routine .function 0 returning)], none⟩], 1⟩

/-- In the call `f(true)` of that function, one is on its way out, and the call gives one. -/
theorem signals_confined_returning :
    Session.Reachable returningStore ∧ returningStore.Disciplined ∧
    ∃ s, Session.Moment s [.bool true, .routine .function 0 returning] ∧ s.Disciplined ∧
      (Block.eval 3 1 returning.body).settled? s = some (some (.returned (.int 1)), s) ∧
      (Value.returned (.int 1)).WrapsNoSignal ∧
      ∃ t, ((Value.routine .function 0 returning).call 3 [.bool true]).settled s =
        some (.int 1, t) ∧ (Value.int 1).kind ≠ .returned := by
  have reached : Session.Reachable returningStore := by
    have run : (Session.run 5 "let f = fn(x) { if (x) { return 1 } }" .initial).map
        (fun r => (r.1.toOption, r.2)) = some (some none, returningStore) := by
      decide +kernel
    obtain ⟨⟨out, t⟩, run, eq⟩ := Option.map_eq_some_iff.mp run
    obtain rfl : t = returningStore := (Prod.mk.inj eq).2
    exact .run .initial run
  have read : Expr.eval 1 0 (.name "f") returningStore =
      some (.ok (.routine .function 0 returning), returningStore) := by cbv
  have literal : Expr.eval 1 0 (.bool true) returningStore =
      some (.ok (.bool true), returningStore) := rfl
  have moment := (((Session.Moment.between reached).value (by decide) read).value (by decide)
    literal).enter (List.mem_cons_of_mem _ List.mem_cons_self)
    fun v (given : v ∈ [.bool true]) => List.mem_cons.mpr (.inl (List.mem_singleton.mp given))
  have body : (Block.eval 3 1 returning.body).settled?
      (returningStore.openFrame (returning.callFrame [.bool true])) =
      some (some (.returned (.int 1)),
        returningStore.openFrame (returning.callFrame [.bool true])) := by
    cbv
  have call : ((Value.routine .function 0 returning).call 3 [.bool true]).settled
      (returningStore.openFrame (returning.callFrame [.bool true])) =
      some (.int 1, (returningStore.openFrame (returning.callFrame [.bool true])).openFrame
        (returning.callFrame [.bool true])) := by
    cbv
  obtain ⟨disciplined, evaluated, called, _⟩ := signals_confined.2 _ _ moment
  refine ⟨reached, signals_confined.1 _ reached, _, moment, disciplined, body, ?_, _, call, ?_⟩
  · exact (evaluated 3 1 (by decide)).2.2.2 _ _ _ body
  · exact called 3 _ _ _ _ (List.mem_cons_of_mem _ List.mem_cons_self) (by simp) call

end Quasiquote
