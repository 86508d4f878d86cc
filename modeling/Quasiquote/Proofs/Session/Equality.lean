import Quasiquote.Proofs.Evaluation.Tail
import Quasiquote.Proofs.Likeness.Store
import Quasiquote.Proofs.Quotation.Unquoting
import Quasiquote.Proofs.Session.Identity

/-!
# Equality

* `Value.compared`: `==` and `!=` fault on values of different kinds, and are opposites on others.
* `Value.Equals`: what `==` says. It is an equivalence on all values but signals
  (`Value.equals_equivalence`), and of the values that there are at one moment it holds only for one
  and the same (`Session.Moment.equals_iff`).
* `Session.Moment.keepsValues`: binding a value, looking it up, passing it and giving it back leave
  it the value it is.
* `Value.IsNew`: a value that equals none from before, such as what a function literal or a
  quotation gives (`Session.Moment.makesNew`).
* `equality_is_identity`: all of this at every moment of a session.
-/

namespace Quasiquote

/-- Two values are equal if `==` says so. -/
def Value.Equals (v w : Value) : Prop := BinaryOp.eq.apply v w = .bool true

/-- Values of kinds with different names are not compared; other values are, and one of `==` and
`!=` holds. -/
structure Value.Compared (v w : Value) : Prop where
  apart : v.kind.label ≠ w.kind.label →
    BinaryOp.eq.apply v w = .fault (.mismatch v.kind .eq w.kind) ∧
    BinaryOp.ne.apply v w = .fault (.mismatch v.kind .ne w.kind)
  together : v.kind.label = w.kind.label →
    ∃ b : Bool, BinaryOp.eq.apply v w = .bool b ∧ BinaryOp.ne.apply v w = .bool !b

theorem Kind.label_injective : Function.Injective Kind.label := by
  intro a b same
  cases a <;> cases b <;> first | rfl | exact absurd same (by decide)

/-! ## The operators -/

theorem BinaryOp.eq_apply_int (a b : Int64) :
    BinaryOp.eq.apply (.int a) (.int b) = .bool (decide (a = b)) := rfl

theorem BinaryOp.ne_apply_int (a b : Int64) :
    BinaryOp.ne.apply (.int a) (.int b) = .bool !(decide (a = b)) :=
  congrArg Value.bool (decide_not ..)

namespace Value

variable {v w x : Value}

theorem compared (v w : Value) : v.Compared w := by
  by_cases ints : ∃ a b, v = .int a ∧ w = .int b
  · obtain ⟨a, b, rfl, rfl⟩ := ints
    exact ⟨fun apart => absurd rfl apart, fun _ => ⟨_, BinaryOp.eq_apply_int a b,
      BinaryOp.ne_apply_int a b⟩⟩
  · have others : ∀ a b, v = .int a → w = .int b → False := fun a b e e' => ints ⟨a, b, e, e'⟩
    refine ⟨fun apart => ?_, fun together => ?_⟩
    · have kinds : v.kind ≠ w.kind := fun same => apart (congrArg Kind.label same)
      rw [BinaryOp.apply_eq _ others, BinaryOp.apply_eq _ others, if_pos kinds, if_pos kinds]
      exact ⟨rfl, rfl⟩
    · have kinds : ¬ v.kind ≠ w.kind := not_not.mpr (Kind.label_injective together)
      rw [BinaryOp.apply_eq _ others, BinaryOp.apply_eq _ others, if_neg kinds, if_neg kinds]
      exact ⟨v.identical w, rfl, rfl⟩

/-- Values are equal if they have the same key. -/
theorem equals_iff : v.Equals w ↔ v.key?.isSome ∧ v.key? = w.key? := by
  rcases v with a | a | _ | ⟨_ | _, i, c⟩ | ⟨i, x⟩ | _ | _ <;>
    rcases w with b | b | _ | ⟨_ | _, j, d⟩ | ⟨j, y⟩ | _ | _
  case bool.bool => cases a <;> cases b <;> simp [Equals, BinaryOp.apply, identical, kind, key?]
  all_goals
    simp [Equals, BinaryOp.apply, BinaryOp.applyInt, identical, kind, Role.kind, key?,
      Int64.toInt_inj]

theorem equals_int (a b : Int64) : (Value.int a).Equals (.int b) ↔ a.toInt = b.toInt := by
  simp [equals_iff, key?]

theorem Equals.refl (quiet : v.isSignal = false) : v.Equals v := by
  refine equals_iff.mpr ⟨?_, rfl⟩
  cases v with
  | returned | fault => cases quiet
  | _ => rfl

theorem Equals.symm (h : v.Equals w) : w.Equals v := by
  obtain ⟨known, same⟩ := equals_iff.mp h
  exact equals_iff.mpr ⟨same ▸ known, same.symm⟩

theorem Equals.trans (h : v.Equals w) (h' : w.Equals x) : v.Equals x := by
  obtain ⟨known, same⟩ := equals_iff.mp h
  exact equals_iff.mpr ⟨known, same.trans (equals_iff.mp h').2⟩

theorem equals_equivalence :
    Equivalence fun v w : {v : Value // v.isSignal = false} => v.1.Equals w.1 where
  refl v := .refl v.2
  symm h := h.symm
  trans h h' := h.trans h'

/-- Equal values that are entered in one ledger are one. -/
theorem Entered.equals_iff {p : Ledger} (hv : v.Entered p) (hw : w.Entered p)
    (quiet : v.isSignal = false) : v.Equals w ↔ v = w := by
  constructor
  · intro h
    obtain ⟨known, same⟩ := Value.equals_iff.mp h
    exact hv.eq_of_key hw known same
  · rintro rfl
    exact .refl quiet

/-! ## What there is at a moment -/

/-- What is at hand, and what some frame binds. -/
def IsThere (v : Value) (s : Store) (hand : List Value) : Prop :=
  v ∈ hand ∨ ∃ (i : Nat) (f : Frame) (name : String), s.frames[i]? = some f ∧
    (name, v) ∈ f.bindings

/-- Equal to nothing that was there at a moment when fewer serial numbers had been given out, and so
to nothing that was there earlier. -/
def IsNew (v : Value) (t : Store) : Prop :=
  ∀ s hand w, Session.Moment s hand → s.serials < t.serials → w.IsThere s hand → ¬ v.Equals w

end Value

def Value.serial? : Value → Option Nat
  | .routine _ serial _ | .quotation serial _ => some serial
  | _ => none

theorem Value.Equals.serial?_eq {v w : Value} (h : v.Equals w) : v.serial? = w.serial? := by
  obtain ⟨known, same⟩ := Value.equals_iff.mp h
  rcases v with a | a | _ | ⟨_ | _, i, c⟩ | ⟨i, x⟩ | _ | _ <;>
    rcases w with b | b | _ | ⟨_ | _, j, d⟩ | ⟨j, y⟩ | _ | _ <;>
    simp_all [Value.key?, Role.kind, Value.serial?]

theorem Value.Within.lt_of_serial {s : Store} {v : Value} {serial : Nat} (h : v.Within s)
    (made : v.serial? = some serial) : serial < s.serials := by
  cases v with
  | routine role serial' closure =>
    cases made
    exact h.1
  | quotation serial' node =>
    cases made
    exact h
  | _ => cases made

/-- This frame passes the lookup of a name on to that one. -/
def Store.Passes (s : Store) (name : String) (inner outer : Nat) : Prop :=
  ∃ f, s.frames[inner]? = some f ∧ f.find? name = none ∧ f.enclosing = some outer

/-- Whatever is done with a value, it stays the value it is. -/
structure Session.KeepsValues (s : Store) (hand : List Value) : Prop where
  bound : ∀ depth frame name e v t, frame < s.frames.size →
    Expr.eval depth frame e s = some (.ok v, t) →
    ∃ u, Stmt.eval depth frame (.bind name e) s = some (.ok none, u) ∧
      ∀ more, Expr.eval (more + 1) frame (.name name) u = some (.ok v, u)
  seen : ∀ name v inner outer f, Relation.ReflTransGen (s.Passes name) inner outer →
    s.frames[outer]? = some f → f.find? name = some v →
    ∀ depth, Expr.eval (depth + 1) inner (.name name) s = some (.ok v, s)
  passed : ∀ (closure : Closure) (args : List Value) (i : Nat) name v, (∀ a ∈ args, a ∈ hand) →
    closure.params[i]? = some name → args[i]? = some v →
    (∀ j > i, closure.params[j]? ≠ some name) →
    ∀ depth, Expr.eval (depth + 1) s.frames.size (.name name)
      (s.openFrame (closure.callFrame args)) =
        some (.ok v, s.openFrame (closure.callFrame args))
  givenBack : ∀ serial closure args depth v t, .routine .function serial closure ∈ hand →
    (∀ a ∈ args, a ∈ hand) → closure.params.length = args.length →
    (Block.valueWith (Expr.eval depth) s.frames.size closure.body
        (s.openFrame (closure.callFrame args)) = some (.ok v, t) ∨
      Block.valueWith (Expr.eval depth) s.frames.size closure.body
        (s.openFrame (closure.callFrame args)) = some (.error (.returned v), t)) →
    (Value.routine .function serial closure).call depth args s = some (.ok v, t)

/-- A function literal gives a new value, and so does every quotation that gives any. -/
structure Session.MakesNew (s : Store) : Prop where
  literal : ∀ depth frame params body, frame < s.frames.size →
    ∃ v t, Expr.eval (depth + 1) frame (.routine .function params body) s = some (.ok v, t) ∧
      s.serials < t.serials ∧ v.IsNew t
  quoted : ∀ depth frame (node : Expr) v t, frame < s.frames.size →
    Expr.eval depth frame node.quoted s = some (.ok v, t) → s.serials < t.serials ∧ v.IsNew t

open Eval Store

section
variable {s : Store}

theorem Store.Sound.find?_of_passes (sound : s.Sound) {name : String} {inner outer : Nat}
    (passes : Relation.ReflTransGen (s.Passes name) inner outer) :
    s.find? inner name = s.find? outer name := by
  induction passes using Relation.ReflTransGen.head_induction_on with
  | refl => rfl
  | head step _ ih =>
    obtain ⟨f, here, unbound, around⟩ := step
    have lower := sound.enclosing _ f _ here around
    rw [Store.find?_eq here, unbound, around, Option.none_or, Option.bind_some, if_pos lower, ih]

theorem lookup_reverse_of_last {β : Type} {pairs : List (String × β)} {i : Nat} {name : String}
    {b : β} (here : pairs[i]? = some (name, b)) (last : ∀ j > i, ∀ c, pairs[j]? ≠ some (name, c)) :
    pairs.reverse.lookup name = some b := by
  obtain ⟨bound, eq⟩ := List.getElem?_eq_some_iff.mp here
  have parts : pairs = pairs.take i ++ (name, b) :: pairs.drop (i + 1) := by
    rw [← eq, List.cons_getElem_drop_succ, List.take_append_drop]
  rw [List.lookup_eq_some_iff]
  refine ⟨(pairs.drop (i + 1)).reverse, (pairs.take i).reverse, ?_, ?_⟩
  · nth_rewrite 1 [parts]
    simp
  · rintro ⟨other, c⟩ inside
    obtain ⟨k, given⟩ := List.mem_iff_getElem?.mp (List.mem_reverse.mp inside)
    rw [List.getElem?_drop] at given
    refine bne_iff_ne.mpr ?_
    rintro rfl
    exact last (i + 1 + k) (by omega) c given

theorem Closure.find?_callFrame_of_last {closure : Closure} {args : List Value} {i : Nat}
    {name : String} {v : Value} (param : closure.params[i]? = some name) (arg : args[i]? = some v)
    (last : ∀ j > i, closure.params[j]? ≠ some name) :
    (closure.callFrame args).find? name = some v := by
  rw [Closure.find?_callFrame_last]
  refine lookup_reverse_of_last (i := i) ?_ ?_
  · exact List.getElem?_zip_eq_some.mpr ⟨param, arg⟩
  · intro j later w given
    exact last j later (List.getElem?_zip_eq_some.mp given).1

theorem Value.call_of_body {serial depth : Nat} {closure : Closure} {args : List Value}
    (arity : closure.params.length = args.length) :
    (Value.routine .function serial closure).call depth args s =
      (Block.valueWith (Expr.eval depth) s.frames.size closure.body).catchReturn
        (s.openFrame (closure.callFrame args)) := by
  have opened : (liftM (Eval.openFrame (closure.callFrame args)) : Signalling Nat) s =
      some (.ok s.frames.size, s.openFrame (closure.callFrame args)) := rfl
  rw [Value.call, Value.callWith, if_pos arity]
  exact andThen_of_ok opened

end

namespace Session.Moment

variable {s : Store} {hand : List Value}

theorem isSignal_of_isThere (moment : Moment s hand) {v : Value} (there : v.IsThere s hand) :
    v.isSignal = false := by
  obtain ⟨sound, atHand⟩ := moment.sound
  rcases there with given | ⟨i, f, name, hf, bound⟩
  · exact (atHand v given).ordinary
  · exact (sound.bindings i f name v hf bound).ordinary

/-- At one moment equal values are one. -/
theorem equals_iff (moment : Moment s hand) {v w : Value} (hv : v.IsThere s hand)
    (hw : w.IsThere s hand) : v.Equals w ↔ v = w := by
  obtain ⟨p, rfl, complete, entered⟩ := moment.ledger
  have enters {u : Value} (there : u.IsThere p.store hand) : u.Entered p := by
    rcases there with given | ⟨i, f, name, hf, bound⟩
    · exact entered u given
    · exact complete.bindings i f name u hf bound
  exact (enters hv).equals_iff (enters hw) (moment.isSignal_of_isThere hv)

theorem keepsValues (moment : Moment s hand) : KeepsValues s hand where
  bound depth frame name e v t opened run := by
    have after := (moment.value opened run).sound
    have step := (Expr.eval_sound depth frame e s ⟨moment.sound.1, opened⟩ _ _ run).1
    refine ⟨t.insert frame name v, (andThen_of_ok run).trans rfl, fun more => ?_⟩
    have seen := find?_insert_self (opened.trans_le step.frames) name v
    exact Expr.eval_name seen (after.2 v List.mem_cons_self).ordinary more
  seen name v inner outer f passes here found depth := by
    have seen : s.find? inner name = some v := by
      rw [moment.sound.1.find?_of_passes passes, find?_eq here, found, Option.some_or]
    exact Expr.eval_name seen (moment.sound.1.find? seen).ordinary depth
  passed closure args i name v given param arg last depth := by
    have here : (s.openFrame (closure.callFrame args)).frames[s.frames.size]? =
        some (closure.callFrame args) := by simp [Store.openFrame]
    have seen : (s.openFrame (closure.callFrame args)).find? s.frames.size name = some v := by
      rw [find?_eq here, Closure.find?_callFrame_of_last param arg last, Option.some_or]
    have inside := given v (List.mem_of_getElem? arg)
    exact Expr.eval_name seen (moment.sound.2 v inside).ordinary depth
  givenBack serial closure args depth v t given args_given arity ended := by
    rw [Value.call_of_body arity, Signalling.catchReturn_apply]
    rcases ended with last | returned
    · rw [last]
    · rw [returned]
      have inside := moment.enter given args_given
      have hosts : Hosts s.frames.size (s.openFrame (closure.callFrame args)) :=
        ⟨inside.sound.1, by simp [Store.openFrame]⟩
      have ends := sound_invariant.upkeep.block_valueWith
        (sound_invariant.upkeep.expr_eval depth) closure.body hosts
      obtain ⟨_, _, _, sound⟩ := ends _ _ returned
      have quiet : v.isSignal = false := Value.Sound.ordinary sound
      dsimp only
      rw [Value.raise, quiet]
      rfl

/-- What is made under the last serial number that was given out is new. -/
theorem isNew_of_last {v : Value} {t : Store} {serial : Nat} (made : v.serial? = some serial)
    (last : t.serials = serial + 1) : v.IsNew t := by
  intro s hand w moment earlier there equals
  have within : w.Within s := by
    obtain ⟨sound, atHand⟩ := moment.sound
    rcases there with given | ⟨i, f, name, hf, bound⟩
    · exact (atHand w given).within
    · exact (sound.bindings i f name w hf bound).within
  have lower := within.lt_of_serial (equals.serial?_eq ▸ made)
  omega

theorem makesNew (moment : Moment s hand) : MakesNew s where
  literal depth frame params body _ :=
    ⟨_, _, rfl, Nat.lt_succ_self _, isNew_of_last rfl rfl⟩
  quoted depth frame node v t opened run := by
    cases depth with
    | zero => cases run
    | succ depth =>
      have hosts : Hosts frame s := ⟨moment.sound.1, opened⟩
      have rule := sound_invariant.upkeep.splice (sound_invariant.upkeep.expr_eval depth) frame
      rcases andThen_inv run with ⟨node', u, spliced, made⟩ | ⟨e, _, absurd⟩
      · obtain ⟨_, rfl, step, _⟩ := Expr.rewriteM_leads rule node s hosts _ _ spliced
        cases made
        exact ⟨Nat.lt_succ_of_le step.serials, isNew_of_last rfl rfl⟩
      · cases absurd

end Session.Moment

/-- Equality is identity. The operators `==` and `!=` fault on values of kinds with different names
and are opposites on all others; `==` is an equivalence on all values but signals, and equality of
numbers on integers. At every moment of a session nothing that is there is a signal, and two values
that are there are equal only if they are one; each stays the value it is when it is bound, looked
up through any frames, passed and given back; and every function literal and every quotation gives
one that equals none from before. -/
theorem equality_is_identity :
    (∀ v w : Value, v.Compared w) ∧
    (Equivalence fun v w : {v : Value // v.isSignal = false} => v.1.Equals w.1) ∧
    (∀ a b : Int64, (Value.int a).Equals (.int b) ↔ a.toInt = b.toInt) ∧
    ∀ s hand, Session.Moment s hand →
      (∀ v : Value, v.IsThere s hand → v.isSignal = false) ∧
      (∀ v w : Value, v.IsThere s hand → w.IsThere s hand → (v.Equals w ↔ v = w)) ∧
      Session.KeepsValues s hand ∧ Session.MakesNew s := by
  refine ⟨Value.compared, Value.equals_equivalence, Value.equals_int, ?_⟩
  intro s hand moment
  exact ⟨fun v => moment.isSignal_of_isThere, fun v w => moment.equals_iff, moment.keepsValues,
    moment.makesNew⟩

/-- The function `fn(x) { x }` of the global frame. -/
def giveBack : Closure := ⟨["x"], [.expr (.name "x")], Session.globals⟩

/-- Called with itself, that function gives itself, and its literal gives another one. -/
theorem equality_is_identity_giveBack :
    ∃ s f, Session.Moment s [f] ∧ f.Equals f ∧
      (∃ t, f.call 2 [f] s = some (.ok f, t)) ∧
      ∃ g t, Expr.eval 1 Session.globals (.routine .function giveBack.params giveBack.body) s =
        some (.ok g, t) ∧ ¬ g.Equals f := by
  let f : Value := .routine .function 0 giveBack
  let s : Store := ⟨Store.initial.frames, 1⟩
  let called : Store := s.openFrame (giveBack.callFrame [f])
  have opened : Session.globals < Store.initial.frames.size := by decide
  have run : Expr.eval 1 Session.globals (.routine .function giveBack.params giveBack.body)
      .initial = some (.ok f, s) := rfl
  have moment := (Session.Moment.between .initial).value opened run
  have body : Block.valueWith (Expr.eval 2) 1 giveBack.body called = some (.ok f, called) := by
    cbv
  have there : f.IsThere s [f] := .inl List.mem_cons_self
  obtain ⟨_, _, _, always⟩ := equality_is_identity
  obtain ⟨_, identity, keeps, news⟩ := always s [f] moment
  refine ⟨s, f, moment, (identity f f there there).mpr rfl, ⟨called, ?_⟩, ?_⟩
  · exact keeps.givenBack 0 giveBack [f] 2 f called List.mem_cons_self (fun a given => given) rfl
      (.inl body)
  · obtain ⟨g, t, run, later, isNew⟩ := news.literal 0 0 giveBack.params giveBack.body opened
    exact ⟨g, t, run, isNew s [f] f moment later there⟩

end Quasiquote
