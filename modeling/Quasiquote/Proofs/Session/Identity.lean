import Quasiquote.Proofs.Session.Signals

/-!
# One value under each serial number

A `Ledger` is a store with the values that were made under its serial numbers. No store holds such a
record, so the worlds in which evaluation is followed here are ledgers.

* `Value.Entered`: a routine or a quotation is what the ledger has under its serial number.
* `Ledger.upkeep`: what evaluation makes is entered, and nothing entered is ever changed.
* `Session.Moment.ledger`: at every moment of a session, all values at hand and all that are bound
  are entered in one ledger. So two with one key are one (`Value.Entered.eq_of_key`).
-/

namespace Quasiquote

/-- A store, and what was made under each serial number that was given out. -/
structure Ledger where
  store : Store
  made : Nat → Value

/-- What has a serial number was made under it, also on its way out of a call. -/
def Value.Entered (v : Value) (p : Ledger) : Prop :=
  match v with
  | .routine role serial closure =>
    serial < p.store.serials ∧ p.made serial = .routine role serial closure
  | .quotation serial node => serial < p.store.serials ∧ p.made serial = .quotation serial node
  | .returned inner => inner.Entered p
  | _ => True

/-- What a value is compared by: its kind, and what it is or was made under. -/
def Value.key? : Value → Option (Kind × Int)
  | .int n => some (.integer, n.toInt)
  | .bool b => some (.boolean, b.toNat)
  | .null => some (.null, 0)
  | .routine role serial _ => some (role.kind, serial)
  | .quotation serial _ => some (.quotation, serial)
  | .returned _ | .fault _ => none

/-- In one ledger, values with one key are one. -/
theorem Value.Entered.eq_of_key {p : Ledger} {v w : Value} (hv : v.Entered p) (hw : w.Entered p)
    (known : v.key?.isSome) (same : v.key? = w.key?) : v = w := by
  cases v with
  | int a =>
    cases w with
    | int b => rw [Int64.toInt_inj.mp (Prod.mk.inj (Option.some.inj same)).2]
    | routine role => cases role <;> cases same
    | _ => cases same
  | bool a =>
    cases w with
    | bool b => cases a <;> cases b <;> first | rfl | cases same
    | routine role => cases role <;> cases same
    | _ => cases same
  | null =>
    cases w with
    | null => rfl
    | routine role => cases role <;> cases same
    | _ => cases same
  | routine role serial closure =>
    cases w with
    | routine role' serial' closure' =>
      obtain rfl := Int.ofNat.inj (Prod.mk.inj (Option.some.inj same)).2
      exact hv.2.symm.trans hw.2
    | _ => cases role <;> cases same
  | quotation serial node =>
    cases w with
    | quotation serial' node' =>
      obtain rfl := Int.ofNat.inj (Prod.mk.inj (Option.some.inj same)).2
      exact hv.2.symm.trans hw.2
    | routine role => cases role <;> cases same
    | _ => cases same
  | returned | fault => cases known

namespace Ledger

/-- Everything that is bound is entered. -/
structure Complete (p : Ledger) : Prop where
  bindings : ∀ (i : Nat) (f : Frame) (name : String) (v : Value), p.store.frames[i]? = some f →
    (name, v) ∈ f.bindings → v.Entered p

/-- A later ledger: what was entered stays as it is, and the ledger is complete if the former
was. -/
structure Continues (p q : Ledger) : Prop where
  serials : p.store.serials ≤ q.store.serials
  made : ∀ serial < p.store.serials, q.made serial = p.made serial
  complete : p.Complete → q.Complete

end Ledger

open Ledger

theorem Value.Entered.mono {p q : Ledger} (serials : p.store.serials ≤ q.store.serials)
    (made : ∀ serial < p.store.serials, q.made serial = p.made serial) {v : Value}
    (h : v.Entered p) : v.Entered q := by
  induction v with
  | routine | quotation => exact ⟨h.1.trans_le serials, (made _ h.1).trans h.2⟩
  | returned inner ih => exact ih h
  | _ => trivial

/-- In another store that has given out as many serial numbers. -/
theorem Value.Entered.onto {p : Ledger} {v : Value} (h : v.Entered p) {s : Store}
    (same : p.store.serials = s.serials) : v.Entered ⟨s, p.made⟩ :=
  h.mono (q := ⟨s, p.made⟩) same.le fun _ _ => rfl

theorem Value.Entered.later {p q : Ledger} {v : Value} (h : v.Entered p) (pq : p.Continues q) :
    v.Entered q :=
  h.mono pq.serials pq.made

theorem Value.Entered.fits {p : Ledger} {v : Value} (h : v.Entered p) :
    v.Fits Value.Entered Value.Entered p :=
  ⟨fun _ => h, fun _ => h⟩

theorem Value.entered_of_isPlain {v : Value} (plain : v.isPlain) (p : Ledger) : v.Entered p := by
  cases v with
  | int | bool | null | fault => trivial
  | _ => cases plain

instance : IsPreorder Ledger Continues where
  refl _ := ⟨le_rfl, fun _ _ => rfl, id⟩
  trans p q r pq qr := by
    refine ⟨pq.serials.trans qr.serials, ?_, qr.complete ∘ pq.complete⟩
    intro serial given
    exact (qr.made serial (given.trans_le pq.serials)).trans (pq.made serial given)

namespace Ledger

variable {p : Ledger}

def enter (p : Ledger) (v : Value) : Ledger where
  store := p.store.numbered
  made := Function.update p.made p.store.serials v

theorem enter_made (p : Ledger) (v : Value) : (p.enter v).made p.store.serials = v :=
  Function.update_self ..

theorem continues_enter (p : Ledger) (v : Value) : p.Continues (p.enter v) := by
  have grows : p.store.serials ≤ (p.enter v).store.serials := Nat.le_succ _
  have kept (serial : Nat) (given : serial < p.store.serials) :
      (p.enter v).made serial = p.made serial := Function.update_of_ne given.ne _ _
  exact ⟨grows, kept, fun h => ⟨fun i f name w hf bound =>
    (h.bindings i f name w hf bound).mono grows kept⟩⟩

theorem entered_routine (p : Ledger) (role : Role) (closure : Closure) :
    (Value.routine role p.store.serials closure).Entered
      (p.enter (.routine role p.store.serials closure)) :=
  ⟨Nat.lt_succ_self _, p.enter_made _⟩

theorem entered_quotation (p : Ledger) (node : Expr) :
    (Value.quotation p.store.serials node).Entered
      (p.enter (.quotation p.store.serials node)) :=
  ⟨Nat.lt_succ_self _, p.enter_made _⟩

theorem continues_insert (frame : Nat) (name : String) {v : Value} (given : v.Entered p) :
    p.Continues ⟨p.store.insert frame name v, p.made⟩ := by
  have same : p.store.serials = (p.store.insert frame name v).serials := rfl
  refine ⟨le_rfl, fun _ _ => rfl, fun h => ⟨fun i g other w hg bound => ?_⟩⟩
  obtain ⟨f, hf, rfl | rfl⟩ := Store.frame_of_insert hg
  · exact (h.bindings i g other w hf bound).onto same
  · rcases Frame.mem_insert bound with rfl | old
    · exact given.onto same
    · exact (h.bindings i f other w hf old).onto same

theorem continues_callFrame (closure : Closure) {args : List Value}
    (given : ∀ v ∈ args, v.Entered p) :
    p.Continues ⟨p.store.openFrame (closure.callFrame args), p.made⟩ := by
  have same : p.store.serials = (p.store.openFrame (closure.callFrame args)).serials := rfl
  refine ⟨le_rfl, fun _ _ => rfl, fun h => ⟨fun i g name v hg bound => ?_⟩⟩
  rcases Store.frame_of_openFrame hg with old | ⟨rfl, rfl⟩
  · exact (h.bindings i g name v old bound).onto same
  · exact (given v (Closure.mem_callFrame bound)).onto same

theorem Complete.find? (h : p.Complete) {frame : Nat} {name : String} {v : Value}
    (found : p.store.find? frame name = some v) : v.Entered p := by
  obtain ⟨i, f, hf, bound⟩ := Store.find?_mem found
  exact h.bindings i f name v hf bound

/-! ## Evaluation -/

theorem upkeep :
    Eval.Upkeep Ledger.store (fun _ => Continues) Continues Complete (fun _ => Complete)
      Value.Entered Value.Entered fun _ => True where
  outside _ step := step
  ready complete := complete
  hosts complete step := step.complete complete
  later entered step := entered.later step
  plain p plain := (Value.entered_of_isPlain plain p).fits
  wrapped entered := entered
  inner entered := Value.Entered.fits entered
  found complete found := (complete.find? found).fits
  insert name _ entered := ⟨_, rfl, continues_insert _ name entered⟩
  enter {_ closure _ _} complete _ args := by
    have step := continues_callFrame closure args
    exact ⟨_, rfl, step.complete complete, fun _ => IsTrans.trans _ _ _ step⟩
  routine params body _ := ⟨_, rfl, continues_enter _ _, entered_routine _ _ _⟩
  quotation _ := ⟨_, rfl, continues_enter _ _, entered_quotation _ _⟩
  spliced _ _ := trivial
  kept _ _ := trivial

end Ledger

open Eval

section
variable {p : Ledger}

theorem Value.Entered.unwrapped {v : Value} (h : v.Entered p) : v.unwrapped.Entered p := by
  cases v with
  | returned inner => exact h
  | _ => exact h

theorem Program.eval_enters (depth : Nat) (program : Program) (frame : Nat)
    (complete : p.Complete) :
    (Program.eval depth frame program).Leads Ledger.store Continues
      (fun given q => ∀ v ∈ given, v.Entered q) p := by
  apply (Ledger.upkeep.block_eval depth program complete).settled?.bind
  intro given q _ entered
  apply Leads.pure
  intro v hv
  obtain ⟨w, rfl, rfl⟩ := Option.map_eq_some_iff.mp hv
  exact Value.Entered.unwrapped ((entered w rfl).elim id id)

/-! ## Definition and expansion -/

theorem quoteArgs_enters (args : List Expr) :
    (quoteArgs args).Leads Ledger.store Continues (fun vs q => ∀ v ∈ vs, v.Entered q) p := by
  induction args generalizing p with
  | nil => exact .pure (by simp)
  | cons x rest ih =>
    have first : Eval.newSerial.Leads Ledger.store Continues
        (fun serial q => (Value.quotation serial x).Entered q) p :=
      .modifyGet rfl (continues_enter p _) (entered_quotation p x)
    refine first.bind fun serial q _ entered => ih.bind fun vs r step others => .pure ?_
    exact List.forall_mem_cons.mpr ⟨entered.later step, others⟩

theorem MacroCall.eval_continues (depth : Nat) (call : MacroCall) (complete : p.Complete) :
    (call.eval depth).Leads Ledger.store Continues (fun _ _ => True) p := by
  refine (quoteArgs_enters call.args).bind fun values q step entered => ?_
  have opens := continues_callFrame call.closure entered
  have frame : (Eval.openFrame (call.closure.callFrame values)).Leads Ledger.store Continues
      (fun _ r => r.Complete) q :=
    .modifyGet rfl opens (opens.complete (step.complete complete))
  refine frame.bind fun frame r _ complete => ?_
  exact (Ledger.upkeep.block_eval depth call.closure.body complete).settled?.weaken
    fun _ _ _ _ => trivial

theorem expandNode_continues (frame depth : Nat) :
    RuleLeads Ledger.store Continues Complete (fun _ => True) (fun _ _ => True)
      (expandNode frame depth) := by
  apply RuleLeads.expandNode
  · exact fun _ _ complete step => step.complete complete
  · exact fun _ _ _ _ _ => trivial
  · exact fun depth _ _ call complete _ => call.eval_continues depth complete

theorem Ledger.continues_bindMacro (p : Ledger) (frame : Nat) (st : Stmt) :
    ∃ q : Ledger, q.store = p.store.bindMacro frame st ∧ p.Continues q := by
  unfold Store.bindMacro
  split
  · next name params body =>
    let closure : Closure := ⟨params, body, frame⟩
    have made := continues_enter p (.routine .transformer p.store.serials closure)
    have bound := continues_insert frame name (entered_routine p .transformer closure)
    exact ⟨_, rfl, IsTrans.trans p _ _ made bound⟩
  · exact ⟨p, rfl, refl p⟩

theorem Ledger.continues_bindMacros (p : Ledger) (frame : Nat) (program : Program) :
    ∃ q : Ledger, q.store = p.store.bindMacros frame program ∧ p.Continues q := by
  induction program generalizing p with
  | nil => exact ⟨p, rfl, refl p⟩
  | cons st rest ih =>
    obtain ⟨q, left, step⟩ := p.continues_bindMacro frame st
    obtain ⟨r, left', step'⟩ := ih q
    refine ⟨r, ?_, IsTrans.trans p q r step step'⟩
    rw [left', left]
    rfl

/-- What a run gives is entered, as is all that it leaves bound. -/
theorem Session.run_enters (depth : Nat) (source : String) (complete : p.Complete) :
    (Session.run depth source).run.Leads Ledger.store Continues
      (Ended (fun given q => ∀ v ∈ given, v.Entered q) fun _ _ => True) p := by
  refine Leads.andThen (Q := fun _ q => q.Complete) ?_ fun program q _ complete => ?_
  · cases Program.ofSource source with
    | ok program => exact .ok complete
    | error e => exact .throw trivial
  refine Leads.andThen (Q := fun _ q => q.Complete) ?_ fun expanded r _ complete =>
    Leads.lift (Program.eval_enters depth expanded _ complete)
  refine Leads.adapt (E := fun _ _ => True) ?_ fun _ _ _ => trivial
  obtain ⟨defined, left, step⟩ := q.continues_bindMacros Session.globals program
  refine Leads.andThen (Q := fun _ r => r.Complete) ?_ fun _ r _ complete => ?_
  · exact Leads.lift (.modifyGet left step (step.complete complete))
  · exact (rewriteBlockM_leads (expandNode_continues _ depth) _ r complete).weakenEnds
      (fun _ _ step _ => step.complete complete) fun _ _ _ _ => trivial

end

/-! ## Moments of a session -/

namespace Session

theorem Reachable.ledger {s : Store} (h : Reachable s) :
    ∃ p : Ledger, p.store = s ∧ p.Complete := by
  induction h with
  | initial =>
    refine ⟨⟨.initial, fun _ => .null⟩, rfl, ⟨fun i f name v hf bound => ?_⟩⟩
    obtain ⟨rfl, rfl⟩ := Store.eq_of_initial hf
    cases bound
  | run _ run ih =>
    obtain ⟨p, rfl, complete⟩ := ih
    obtain ⟨q, left, step, _⟩ := Session.run_enters _ _ complete _ _ run
    exact ⟨q, left, step.complete complete⟩

/-- At every moment one ledger has all values that are at hand or bound. -/
theorem Moment.ledger {s : Store} {hand : List Value} (h : Moment s hand) :
    ∃ p : Ledger, p.store = s ∧ p.Complete ∧ ∀ v ∈ hand, v.Entered p := by
  induction h with
  | between reached =>
    obtain ⟨p, left, complete⟩ := reached.ledger
    exact ⟨p, left, complete, by simp⟩
  | define st _ ih =>
    obtain ⟨p, rfl, complete, entered⟩ := ih
    obtain ⟨q, left, step⟩ := p.continues_bindMacro globals st
    exact ⟨q, left, step.complete complete, fun v given => (entered v given).later step⟩
  | @value _ _ _ depth frame e _ _ _ run ih =>
    obtain ⟨p, rfl, complete, entered⟩ := ih
    obtain ⟨q, left, step, given⟩ :=
      Ledger.upkeep.expr_eval depth frame e p complete _ _ run
    exact ⟨q, left, step.complete complete,
      List.forall_mem_cons.mpr ⟨given, fun v given => (entered v given).later step⟩⟩
  | @signal _ _ _ depth frame e _ _ _ run ih =>
    obtain ⟨p, rfl, complete, entered⟩ := ih
    obtain ⟨q, left, step, _⟩ := Ledger.upkeep.expr_eval depth frame e p complete _ _ run
    exact ⟨q, left, step.complete complete, fun v given => (entered v given).later step⟩
  | @bind _ _ frame _ name _ given ih =>
    obtain ⟨p, rfl, complete, entered⟩ := ih
    have step := continues_insert frame name (entered _ given)
    exact ⟨_, rfl, step.complete complete, fun v given => (entered v given).later step⟩
  | quote node _ ih =>
    obtain ⟨p, rfl, complete, entered⟩ := ih
    have step := continues_enter p (.quotation p.store.serials node)
    exact ⟨_, rfl, step.complete complete, List.forall_mem_cons.mpr
      ⟨entered_quotation p node, fun v given => (entered v given).later step⟩⟩
  | @enter _ _ _ _ closure _ _ given args_given ih =>
    obtain ⟨p, rfl, complete, entered⟩ := ih
    have step := continues_callFrame closure fun v hv => entered v (args_given v hv)
    exact ⟨_, rfl, step.complete complete, fun v given => (entered v given).later step⟩

end Session

end Quasiquote
