import Quasiquote.Proofs.Evaluation.Invariant
import Quasiquote.Proofs.Likeness.Expansion
import Quasiquote.Proofs.Session.Running
import Quasiquote.Proofs.Session.Signals

/-!
# Calls can be repeated

* `Store.Called`: the stores that any number of calls lead to. They grow out of the store before
  (`Store.Called.grows`): every frame is as it was.
* `call_repeatable`: a call that gave a value once gives a value of the same kind, text and
  truthiness whenever it is made again, with other calls in between or none.
-/

namespace Quasiquote

open Eval Store

namespace Store

/-- No serial number that was given out is given out again. -/
def CountsOn (s t : Store) : Prop := s.serials ≤ t.serials

instance : IsPreorder Store CountsOn where
  refl _ := Nat.le_refl _
  trans _ _ _ st tu := Nat.le_trans st tu

theorem countsOn_effects : Effects CountsOn where
  newSerial := .modifyGet fun _ => Nat.le_succ _
  openFrame _ := .modifyGet fun _ => Nat.le_refl _
  insert _ _ _ := .modifyGet fun _ => Nat.le_refl _

instance : IsPreorder Store Grows where
  refl s := .refl s
  trans s t u st tu := ⟨IsTrans.trans s t u st.retains tu.retains, st.serials.trans tu.serials⟩

end Store

theorem Value.call_grows (depth : Nat) (callee : Value) (args : List Value) :
    (callee.call depth args).run.Keeps Grows := by
  intro s out t run
  constructor
  · exact callee.call_retains depth args s out t run
  · exact callee.call_keeps countsOn_effects depth args s out t run

namespace Store

/-- The stores that any number of calls lead to: calls of anything, with any arguments. -/
inductive Called (s : Store) : Store → Prop
  | none : Called s s
  | call {t u depth callee args out} (before : Called s t)
      (next : Value.call depth callee args t = some (out, u)) : Called s u

theorem Called.grows {s t : Store} (h : s.Called t) : s.Grows t := by
  induction h with
  | none => exact .refl s
  | call _ next ih => exact IsTrans.trans _ _ _ ih (Value.call_grows _ _ _ _ _ _ next)

end Store

/-- Values that are alike under equal names differ in their numbers at most. -/
theorem Value.Alike.eq_of_kind {p : Pairing} {v w : Value} (h : v.Alike .same p w)
    (simple : v.kind ∈ [Kind.integer, .boolean, .null, .fault]) : w = v := by
  cases h with
  | int | bool | null => rfl
  | routine role => cases role <;> simp [kind, Role.kind] at simple
  | quotation | returned => simp [kind] at simple
  | fault cause => rw [cause.eq Naming.plain_same]

/-- Calls can be repeated. In a store that runs lead to, and in which any serial numbers may be
given out besides, a call of a value with values there gives some value. Then the same call, made
right after it or after any number of other calls, gives a value of the same kind, text and
truthiness, and the very same if it is an integer, a boolean, null or a fault. -/
theorem call_repeatable {reached s t u : Store} (runs : Session.Reachable reached)
    (frames : s.frames = reached.frames) (serials : reached.serials ≤ s.serials) {depth : Nat}
    {callee given : Value} {args : List Value} (calleeWithin : callee.Within s)
    (argsWithin : ∀ v ∈ args, v.Within s)
    (first : (callee.call depth args).settled s = some (given, t)) (between : t.Called u) :
    ∃ again v, (callee.call depth args).settled u = some (again, v) ∧
      again.kind = given.kind ∧ again.text = given.text ∧ again.isTruthy = given.isTruthy ∧
      (given.kind ∈ [Kind.integer, .boolean, .null, .fault] → again = given) := by
  have closed : s.Closed := by
    constructor
    · rw [frames]
      exact runs.sound.closed.enclosing
    · intro i f name v hf bound
      rw [frames] at hf
      exact (runs.sound.closed.bindings i f name v hf bound).mono
        (congrArg Array.size frames).ge serials
  have called : s.Grows t := (Value.call_grows depth callee args).settled s given t first
  have grown : s.Grows u := IsTrans.trans s t u called between.grows
  have alike := closed.alike (.refl s) grown
  have argsAlike : List.Forall₂ (Value.Alike .same (.upTo s)) args args :=
    List.forall₂_same.mpr fun v hv => (argsWithin v hv).alike
  have mirrors := (Value.call_mirrors (Store.Alike.likeness .same) (Nat.le_refl depth)
    calleeWithin.alike argsAlike).settled
  obtain ⟨again, v, _, ran, _, _, like⟩ := mirrors s u alike given t first
  exact ⟨again, v, ran, like.kind_eq.symm, like.text_eq.symm, like.isTruthy_eq.symm,
    like.eq_of_kind⟩

/-- A function that gives its argument quoted anew, unless it is a quotation made in the call. -/
def quoting : Closure :=
  ⟨["x"], [.expr (.cond (.binary (.name "x") .eq (.call (.name "quote") [.int 1]))
    [.expr (.int 0)] (some [.expr (.call (.name "quote") [.call (.name "unquote") [.name "x"]])]))],
    0⟩

/-- What `quoting` and a quotation leave when they are bound to names, and what calls leave. -/
def quotingStore (calls : List Frame) (serials : Nat) : Store :=
  ⟨(⟨[("f", .routine .function 1 quoting), ("q", .quotation 0 (.int 1))], none⟩ :: calls).toArray,
    serials⟩

/-- The call `f(q)` gives a quotation. The call `f(2)`, which ends in a fault, is made in between,
and then `f(q)` gives another quotation of the same text. -/
theorem call_repeatable_quoting :
    Session.Reachable (quotingStore [] 2) ∧
    ∃ t u, ((Value.routine .function 1 quoting).call 5 [.quotation 0 (.int 1)]).settled
        (quotingStore [] 2) = some (.quotation 3 (.int 1), t) ∧ t.Called u ∧
      ∃ again v, ((Value.routine .function 1 quoting).call 5 [.quotation 0 (.int 1)]).settled u =
          some (again, v) ∧
        again.kind = .quotation ∧ again.text = (Value.quotation 3 (.int 1)).text := by
  have reached : Session.Reachable (quotingStore [] 2) := by
    have run : (Session.run 8 ("let q = quote(1); let f = fn(x) \x7b if (x == quote(1)) \x7b 0 \x7d"
        ++ " else \x7b quote(unquote(x)) \x7d \x7d") .initial).map (fun r => (r.1.toOption, r.2)) =
        some (some none, quotingStore [] 2) := by
      decide +kernel
    exact .run .initial (Session.run_of_toOption run)
  have first : ((Value.routine .function 1 quoting).call 5 [.quotation 0 (.int 1)]).settled
      (quotingStore [] 2) =
      some (.quotation 3 (.int 1), quotingStore [⟨[("x", .quotation 0 (.int 1))], some 0⟩] 4) := by
    cbv
  have other : (Value.routine .function 1 quoting).call 5 [.int 2]
      (quotingStore [⟨[("x", .quotation 0 (.int 1))], some 0⟩] 4) =
      some (.error (.fault (.mismatch .integer .eq .quotation)),
        quotingStore [⟨[("x", .quotation 0 (.int 1))], some 0⟩, ⟨[("x", .int 2)], some 0⟩] 5) := by
    cbv
  have between : Store.Called (quotingStore [⟨[("x", .quotation 0 (.int 1))], some 0⟩] 4) _ :=
    Store.Called.none.call other
  have calleeWithin : (Value.routine .function 1 quoting).Within (quotingStore [] 2) :=
    ⟨by decide, by decide⟩
  have argsWithin : ∀ v ∈ [Value.quotation 0 (.int 1)], v.Within (quotingStore [] 2) := by
    simp [Value.Within, quotingStore]
  obtain ⟨again, v, ran, kinds, texts, _⟩ :=
    call_repeatable reached rfl le_rfl calleeWithin argsWithin first between
  exact ⟨reached, _, _, first, between, again, v, ran, kinds, texts⟩

end Quasiquote
