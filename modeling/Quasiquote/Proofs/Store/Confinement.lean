import Quasiquote.Proofs.Evaluation.Invariant
import Quasiquote.Session

/-!
# Evaluation stays in its frame

* `Store.Retains`: every frame is as it was. `Store.ChangesOnly`: every frame but one is, and that
  one still has the same frame around it.
* `Expr.eval_confined` and the statements behind it: evaluating anything in a frame changes no
  other frame. A call works in a frame of its own, so it changes none (`Value.call_retains`).
* `Program.expand_keeps`: whatever relation between stores a call keeps up, expansion does too.
* `Later`: what may come after a call has returned. It leaves the frames that the call opened as
  they are (`Later.fixes`), whoever still holds one of them.
-/

namespace Quasiquote

namespace Store

/-- Every frame is still there as it was. More may have been opened. -/
def Retains (s t : Store) : Prop :=
  ∀ (i : Nat) (f : Frame), s.frames[i]? = some f → t.frames[i]? = some f

/-- Every frame but one is as it was, and that one has the same frame around it. -/
structure ChangesOnly (frame : Nat) (s t : Store) : Prop where
  others : ∀ (i : Nat) (f : Frame), i ≠ frame → s.frames[i]? = some f → t.frames[i]? = some f
  enclosing : ∀ f : Frame, s.frames[frame]? = some f →
    ∃ g, t.frames[frame]? = some g ∧ g.enclosing = f.enclosing

instance : IsPreorder Store Retains where
  refl _ _ _ h := h
  trans _ _ _ hst htu i f h := htu i f (hst i f h)

instance (frame : Nat) : IsPreorder Store (ChangesOnly frame) where
  refl _ := ⟨fun _ _ _ h => h, fun f h => ⟨f, h, rfl⟩⟩
  trans _ _ _ hst htu := by
    refine ⟨fun i f ne h => htu.others i f ne (hst.others i f ne h), fun f h => ?_⟩
    obtain ⟨g, hg, same⟩ := hst.enclosing f h
    obtain ⟨k, hk, same'⟩ := htu.enclosing g hg
    exact ⟨k, hk, same'.trans same⟩

theorem Retains.changesOnly {s t : Store} (h : s.Retains t) (frame : Nat) :
    s.ChangesOnly frame t :=
  ⟨fun i f _ => h i f, fun f hf => ⟨f, h frame f hf, rfl⟩⟩

theorem retains_openFrame (s : Store) (f : Frame) : s.Retains (s.openFrame f) := by
  intro i g h
  have bound := (Array.getElem?_eq_some_iff.mp h).1
  simpa [openFrame, Array.getElem?_push, Nat.ne_of_lt bound] using h

theorem changesOnly_insert (s : Store) (frame : Nat) (name : String) (v : Value) :
    s.ChangesOnly frame (s.insert frame name v) := by
  refine ⟨fun i f ne h => ?_, fun f h => ⟨f.insert name v, ?_, rfl⟩⟩
  · simpa [insert, Array.getElem?_modify, Ne.symm ne] using h
  · simp [insert, Array.getElem?_modify, h]

/-- What is done in a frame that was just opened changes no frame from before. -/
theorem ChangesOnly.retains_of_open {s t : Store} {f : Frame}
    (h : (s.openFrame f).ChangesOnly s.frames.size t) : s.Retains t := by
  intro i g hg
  have bound := (Array.getElem?_eq_some_iff.mp hg).1
  exact h.others i g (Nat.ne_of_lt bound) (retains_openFrame s f i g hg)

end Store

open Store

open Eval

def Evaluator.Confined (eval : Evaluator) : Prop :=
  ∀ frame e, (eval frame e).run.Keeps (ChangesOnly frame)

theorem Store.confined_invariant :
    Eval.Invariant ChangesOnly Retains (fun _ => True) (fun _ _ => True) (fun _ _ => True)
      (fun _ _ => True) fun _ => True :=
  .ofStores (fun _ _ frame kept => kept.changesOnly frame) (fun _ _ _ here => here)
    changesOnly_insert fun _ _ _ changes => changes.retains_of_open

theorem Expr.eval_confined (depth : Nat) : Evaluator.Confined (Expr.eval depth) :=
  fun frame e => .of_gives fun s => confined_invariant.expr_eval depth frame e s trivial

theorem Value.call_retains (depth : Nat) (callee : Value) (args : List Value) :
    (callee.call depth args).run.Keeps Retains :=
  .of_gives fun _ => confined_invariant.callWith (confined_invariant.expr_eval depth) trivial
    trivial fun _ _ => trivial

section
variable (depth frame : Nat)

theorem Expr.quote_changesOnly (node : Expr) :
    (node.quote depth frame).run.Keeps (ChangesOnly frame) :=
  .of_gives fun _ => confined_invariant.quoteWith (confined_invariant.expr_eval depth) node trivial

theorem Stmt.eval_changesOnly (st : Stmt) :
    (Stmt.eval depth frame st).run.Keeps (ChangesOnly frame) :=
  .of_gives fun _ => confined_invariant.stmt_evalWith (confined_invariant.expr_eval depth) st
    trivial

theorem Block.eval_changesOnly (block : Block) :
    (Block.eval depth frame block).run.Keeps (ChangesOnly frame) :=
  .of_gives fun _ => confined_invariant.block_eval depth block trivial

theorem Program.eval_changesOnly (program : Program) :
    (Program.eval depth frame program).Keeps (ChangesOnly frame) :=
  (Block.eval_changesOnly depth frame program).settled?.bind fun _ => .pure _

end

/-! ## Expansion -/

section
variable {R : Nat → Store → Store → Prop} {C : Store → Store → Prop} [IsPreorder Store C]
variable [∀ frame, IsPreorder Store (R frame)]
variable (stores : Eval.Invariant R C (fun _ => True) (fun _ _ => True) (fun _ _ => True)
  (fun _ _ => True) fun _ => True)
include stores

omit [∀ frame, IsPreorder Store (R frame)] in
theorem quoteArgs_keeps (args : List Expr) : (quoteArgs args).Keeps C := by
  induction args with
  | nil => exact .pure _
  | cons x rest ih =>
    have serial : Eval.newSerial.Keeps C := .modifyGet stores.newSerial
    exact serial.bind fun _ => ih.bind fun _ => .pure _

/-- A macro works in a frame of its own, as a function does. -/
theorem MacroCall.eval_keeps (depth : Nat) (call : MacroCall) : (call.eval depth).Keeps C := by
  apply (quoteArgs_keeps stores call.args).bind
  intro values s given t run
  rw [Eval.bind_apply] at run
  have body : (Block.eval depth s.frames.size call.closure.body).settled?.Keeps
      (R s.frames.size) :=
    Keeps.settled? (.of_gives fun _ => stores.block_eval depth call.closure.body trivial)
  apply (stores.enter trivial trivial fun _ _ => trivial).2
  · exact body _ _ _ run
  · exact 0 -- The serial number of what is called plays no part.

theorem expandNode_keeps (frame depth : Nat) (e : Expr) :
    (expandNode frame depth e).run.Keeps C := by
  have rule : RuleGives C (fun _ => True) (fun _ => True) (fun _ _ => True)
      (expandNode frame depth) := by
    apply RuleGives.expandNode
    · exact fun _ _ _ _ => trivial
    · exact fun _ _ _ _ _ => trivial
    · intro depth e s call _ _
      exact .of_keeps (call.eval_keeps stores depth)
  exact .of_gives fun s => rule.gives e s trivial fun _ _ => trivial

theorem Program.expand_keeps (depth frame : Nat) (program : Program) :
    (program.expand depth frame).run.Keeps C :=
  rewriteBlockM_keeps (expandNode_keeps stores frame depth) program

end

theorem MacroCall.eval_retains (depth : Nat) (call : MacroCall) :
    (call.eval depth).Keeps Retains :=
  call.eval_keeps confined_invariant depth

theorem expandNode_retains (frame depth : Nat) (e : Expr) :
    (expandNode frame depth e).run.Keeps Retains :=
  expandNode_keeps confined_invariant frame depth e

/-- A macro works in a frame of its own, so expansion changes no frame at all. -/
theorem Program.expand_retains (depth frame : Nat) (program : Program) :
    (program.expand depth frame).run.Keeps Retains :=
  program.expand_keeps confined_invariant depth frame

/-! ## After a call -/

/-- What may be done in a frame: something is evaluated, quoted or expanded in it, or a name is
bound in it. -/
inductive Work (frame : Nat) (s t : Store) : Prop
  | expr {depth e out} (run : Expr.eval depth frame e s = some (out, t))
  | quote {depth node out} (run : Expr.quote depth frame node s = some (out, t))
  | stmt {depth stmt out} (run : Stmt.eval depth frame stmt s = some (out, t))
  | block {depth block out} (run : Block.eval depth frame block s = some (out, t))
  | program {depth program out} (run : Program.eval depth frame program s = some (out, t))
  | expand {depth program out} (run : Program.expand depth frame program s = some (out, t))
  | insert {name v} (bound : t = s.insert frame name v)

theorem Work.changesOnly {frame : Nat} {s t : Store} (h : Work frame s t) :
    s.ChangesOnly frame t := by
  cases h with
  | expr run => exact Expr.eval_confined _ frame _ _ _ _ run
  | quote run => exact Expr.quote_changesOnly _ frame _ _ _ _ run
  | stmt run => exact Stmt.eval_changesOnly _ frame _ _ _ _ run
  | block run => exact Block.eval_changesOnly _ frame _ _ _ _ run
  | program run => exact Program.eval_changesOnly _ frame _ _ _ _ run
  | expand run => exact (Program.expand_retains _ frame _ _ _ _ run).changesOnly frame
  | insert bound => exact bound ▸ s.changesOnly_insert frame _ _

/-- What may follow while certain frames are idle: any work in the others, and any calls. -/
inductive Later (idle : Nat → Prop) (s : Store) : Store → Prop
  | now : Later idle s s
  | work {t u frame} (before : Later idle s t) (other : ¬ idle frame) (next : Work frame t u) :
      Later idle s u
  | call {t u depth callee args out} (before : Later idle s t)
      (next : Value.call depth callee args t = some (out, u)) : Later idle s u

theorem Later.fixes {idle : Nat → Prop} {s t : Store} (h : Later idle s t) {i : Nat} {f : Frame}
    (hi : idle i) (hf : s.frames[i]? = some f) : t.frames[i]? = some f := by
  induction h with
  | now => exact hf
  | work _ other next ih => exact next.changesOnly.others i f (fun eq => other (eq ▸ hi)) ih
  | call _ next ih => exact Value.call_retains _ _ _ _ _ _ next i f ih

/-- Evaluation is confined to its frame: whatever is evaluated in one, and whatever comes of it,
every other frame is as it was, and the frame itself has the same one around it. A call changes no
frame at all. The frames that it opened are idle once it has returned: the work that follows is done
in frames that were there before it or were opened after it, and leaves them as they are. -/
theorem evaluation_confined (depth frame : Nat) (s t : Store) :
    (∀ e out, Expr.eval depth frame e s = some (out, t) → s.ChangesOnly frame t) ∧
    (∀ stmt out, Stmt.eval depth frame stmt s = some (out, t) → s.ChangesOnly frame t) ∧
    (∀ block out, Block.eval depth frame block s = some (out, t) → s.ChangesOnly frame t) ∧
    (∀ program out, Program.eval depth frame program s = some (out, t) → s.ChangesOnly frame t) ∧
    (∀ node out, Expr.quote depth frame node s = some (out, t) → s.ChangesOnly frame t) ∧
    (∀ callee args out, Value.call depth callee args s = some (out, t) →
      s.Retains t ∧
      ∀ u, Later (fun i => s.frames.size ≤ i ∧ i < t.frames.size) t u →
        ∀ i f, s.frames.size ≤ i → t.frames[i]? = some f → u.frames[i]? = some f) := by
  refine ⟨fun _ _ run => (Work.expr run).changesOnly, fun _ _ run => (Work.stmt run).changesOnly,
    fun _ _ run => (Work.block run).changesOnly, fun _ _ run => (Work.program run).changesOnly,
    fun _ _ run => (Work.quote run).changesOnly, fun callee args out run => ⟨?_, ?_⟩⟩
  · exact Value.call_retains depth callee args _ _ _ run
  · intro u later i f low hf
    exact later.fixes ⟨low, (Array.getElem?_eq_some_iff.mp hf).1⟩ hf

/-- A function that binds its argument to another name and gives a function that reads that name. -/
def keeper : Closure :=
  ⟨["x"], [.bind "y" (.name "x"), .expr (.routine .function [] [.expr (.name "y")])], 0⟩

/-- What a call of `keeper` with one leaves. -/
def kept : Store := ⟨#[⟨[], none⟩, ⟨[("y", .int 1), ("x", .int 1)], some 0⟩], 1⟩

/-- Another `y` is bound outside, and then the function that `keeper` gave is called. -/
theorem evaluation_confined_keeper :
    Store.initial.ChangesOnly 0 ⟨kept.frames, 2⟩ ∧
    kept.ChangesOnly 0 (kept.insert 0 "y" (.int 5)) ∧
    Store.initial.Retains kept ∧
    ((kept.insert 0 "y" (.int 5)).openFrame ⟨[], some 1⟩).frames[1]? =
      some ⟨[("y", .int 1), ("x", .int 1)], some 0⟩ := by
  have make : Expr.eval 4 0 (.call (.routine .function ["x"] keeper.body) [.int 1]) .initial =
      some (.ok (.routine .function 1 ⟨[], [.expr (.name "y")], 1⟩), ⟨kept.frames, 2⟩) := by cbv
  have rebind : Stmt.eval 1 0 (.bind "y" (.int 5)) kept =
      some (.ok none, kept.insert 0 "y" (.int 5)) := by cbv
  have call : Value.call 3 (.routine .function 0 keeper) [.int 1] .initial =
      some (.ok (.routine .function 0 ⟨[], [.expr (.name "y")], 1⟩), kept) := by cbv
  have read : Value.call 2 (.routine .function 0 ⟨[], [.expr (.name "y")], 1⟩) []
      (kept.insert 0 "y" (.int 5)) =
      some (.ok (.int 1), (kept.insert 0 "y" (.int 5)).openFrame ⟨[], some 1⟩) := by cbv
  have idle : ¬ (Store.initial.frames.size ≤ 0 ∧ 0 < kept.frames.size) := by decide
  have returned := (evaluation_confined 3 0 .initial kept).2.2.2.2.2 _ _ _ call
  exact ⟨(evaluation_confined 4 0 _ _).1 _ _ make, (evaluation_confined 1 0 _ _).2.1 _ _ rebind,
    returned.1, returned.2 _ ((Later.now.work idle (.stmt rebind)).call read) 1 _ (by decide) rfl⟩

end Quasiquote
