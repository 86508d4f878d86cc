import Quasiquote.Evaluation
import Quasiquote.Proofs.Store.Giving

/-!
# What evaluation keeps up

Evaluation does few things with a store and with the values in it: it gives out a serial number,
opens a frame for a call, binds a name, looks one up, makes a routine or a quotation, and wraps and
unwraps what a `return` sends out. `Eval.Upkeep`: each of these keeps up what is asked of results,
of signals and of the worlds that it leads to. Then so do all evaluation (`Eval.Upkeep.expr_eval`
and those before it), quotation and every call (`Eval.Upkeep.callWith`). `Eval.Invariant` is the
same where worlds are nothing but stores.

Three of these are effects on a store: a serial number is given out, a frame opened, a name bound.
`Eval.Effects R`: each of them leaves a store that is in the relation `R` to the one before. Then so
does every call (`Value.call_keeps`).
-/

namespace Quasiquote

/-- Values without syntax, frames or other values in them. -/
def Value.isPlain : Value → Bool
  | .int _ | .bool _ | .null | .fault _ => true
  | _ => false

theorem exactOr_isPlain (overflow : Fault) (n : Int) : (exactOr overflow n).isPlain := by
  unfold exactOr
  split <;> rfl

theorem UnaryOp.apply_isPlain (op : UnaryOp) (v : Value) : (op.apply v).isPlain := by
  unfold UnaryOp.apply
  split
  · rfl
  · exact exactOr_isPlain _ _
  · rfl

theorem BinaryOp.applyInt_isPlain (op : BinaryOp) (a b : Int64) : (op.applyInt a b).isPlain := by
  cases op with
  | add | sub | mul => exact exactOr_isPlain _ _
  | div =>
    unfold BinaryOp.applyInt
    dsimp only
    split
    · rfl
    · exact exactOr_isPlain _ _
  | lt | le | gt | ge | eq | ne => rfl

theorem BinaryOp.apply_isPlain (op : BinaryOp) (a b : Value) : (op.apply a b).isPlain := by
  unfold BinaryOp.apply
  split
  · exact op.applyInt_isPlain _ _
  · split
    · rfl
    · split <;> rfl

/-- What is asked of a value: one thing if it goes on as a result, another if it is a signal. -/
structure Value.Fits {World : Type} (Q E : Value → World → Prop) (v : Value) (p : World) :
    Prop where
  result : v.isSignal = false → Q v p
  signal : v.isSignal → E v p

/-- What is asked of what statements give, and of what cuts them short. -/
abbrev Ended? {World : Type} (Q E : Value → World → Prop) :
    Except Value (Option Value) → World → Prop :=
  Ended (fun given p => ∀ v ∈ given, Q v p) E

/-- What is asked of what a call gives. What it passes outward in a `return` was in another one. -/
abbrev CallEnded {World : Type} (Q E : Value → World → Prop) : Except Value Value → World → Prop :=
  Ended Q fun v p => E v p ∧ ∀ inner, v = .returned inner → E (.returned v) p

def Store.numbered (s : Store) : Store := { s with serials := s.serials + 1 }

/-- Where a frame hosts evaluation, each thing done there gives results that are as `Q` says and
signals that are as `E` says, and leads to a world in the relation `R` of that frame. What changes
no frame from before, a serial number or a whole call, leads to one in the relation `C`. -/
structure Eval.Upkeep {World : Type} (store : World → Store) (R : Nat → World → World → Prop)
    (C : World → World → Prop) (Ready : World → Prop) (Hosts : Nat → World → Prop)
    (Q E : Value → World → Prop) (pass : Expr → Prop) : Prop where
  outside : ∀ {p q} frame, C p q → R frame p q
  ready : ∀ {frame p}, Hosts frame p → Ready p
  hosts : ∀ {frame p q}, Hosts frame p → R frame p q → Hosts frame q
  later : ∀ {frame v p q}, Q v p → R frame p q → Q v q
  plain : ∀ {v : Value} (p : World), v.isPlain → v.Fits Q E p
  wrapped : ∀ {v p}, Q v p → E (.returned v) p
  inner : ∀ {v : Value} {p : World}, E (.returned v) p → v.Fits Q E p
  found : ∀ {frame name v p}, Hosts frame p → (store p).find? frame name = some v → v.Fits Q E p
  insert : ∀ {frame v p} name, Hosts frame p → Q v p →
    ∃ q, store q = (store p).insert frame name v ∧ R frame p q
  /-- A call works in a frame of its own, and its effects there do not show outside. -/
  enter : ∀ {serial closure args p}, Ready p → Q (.routine .function serial closure) p →
    (∀ v ∈ args, Q v p) → ∃ inside, store inside = (store p).openFrame (closure.callFrame args) ∧
      Hosts (store p).frames.size inside ∧ ∀ q, R (store p).frames.size inside q → C p q
  routine : ∀ {frame p} params body, Hosts frame p → ∃ q, store q = (store p).numbered ∧ C p q ∧
    Q (.routine .function (store p).serials ⟨params, body, frame⟩) q
  quotation : ∀ {node p}, pass node → ∃ q, store q = (store p).numbered ∧ C p q ∧
    Q (.quotation (store p).serials node) q
  /-- What an unquoted expression comes to is put into syntax that is quoted. -/
  spliced : ∀ {v : Value} {node p}, Q v p ∨ E v p → v.syntax? = some node → pass node
  /-- What no call of `unquote` is stays as it is in syntax that is quoted. -/
  kept : ∀ {e : Expr}, (∀ callee arg, e = .call callee [arg] → callee.name? ≠ some "unquote") →
    (∀ part ∈ e.parts, pass part) → pass e

def Evaluator.Upholds {World : Type} (store : World → Store) (R : Nat → World → World → Prop)
    (Hosts : Nat → World → Prop) (Q E : Value → World → Prop) (eval : Evaluator) : Prop :=
  ∀ frame e p, Hosts frame p → (eval frame e).run.Leads store (R frame) (Ended Q E) p

namespace Eval.Upkeep

variable {World : Type} {store : World → Store} {R : Nat → World → World → Prop}
  {C : World → World → Prop} {Ready : World → Prop} {Hosts : Nat → World → Prop}
  {Q E : Value → World → Prop} {pass : Expr → Prop} {frame : Nat} {p : World}

theorem fault (upkeep : Upkeep store R C Ready Hosts Q E pass) (cause : Fault) (p : World) :
    E (.fault cause) p :=
  (upkeep.plain p rfl).signal rfl

theorem null (upkeep : Upkeep store R C Ready Hosts Q E pass) (p : World) : Q .null p :=
  (upkeep.plain p rfl).result rfl

theorem newSerial (upkeep : Upkeep store R C Ready Hosts Q E pass) {P : Nat → World → Prop}
    (given : ∃ q, store q = (store p).numbered ∧ C p q ∧ P (store p).serials q) :
    Eval.newSerial.Leads store (R frame) P p := by
  obtain ⟨q, left, step, given⟩ := given
  exact .modifyGet left (upkeep.outside frame step) given

/-- What is done in a frame that was just opened. -/
theorem inNewFrame {ε α : Type} {f : Frame} {work : Nat → ExceptT ε Eval α}
    {P : Except ε α → World → Prop} {inside : World} (opens : store inside = (store p).openFrame f)
    (leave : ∀ q, R (store p).frames.size inside q → C p q)
    (h : (work (store p).frames.size).run.Leads store (R (store p).frames.size) P inside) :
    (liftM (Eval.openFrame f) >>= work : ExceptT ε Eval α).run.Leads store C P p := by
  intro outcome q run
  have opened : (liftM (Eval.openFrame f) : ExceptT ε Eval Nat) (store p) =
      some (.ok (store p).frames.size, store inside) := by
    rw [opens]
    rfl
  obtain ⟨q, left, step, given⟩ := h outcome q ((andThen_of_ok opened).symm.trans run)
  exact ⟨q, left, leave q step, given⟩

variable [∀ frame, IsPreorder World (R frame)]

theorem raise {v : Value} (fits : v.Fits Q E p) :
    v.raise.run.Leads store (R frame) (Ended Q E) p :=
  .raise fits.result fits.signal

variable (upkeep : Upkeep store R C Ready Hosts Q E pass)
include upkeep

theorem catchReturn {x : Signalling Value} (h : x.run.Leads store (R frame) (Ended Q E) p) :
    x.catchReturn.run.Leads store (R frame) (CallEnded Q E) p := by
  refine Leads.catching h fun signal q _ given => ?_
  cases signal with
  | returned inner =>
    have fits := upkeep.inner given
    exact .raise fits.result fun raised => ⟨fits.signal raised, fun _ _ => given⟩
  | _ => exact .throw ⟨given, nofun⟩

section
variable {eval : Evaluator} (upholds : eval.Upholds store R Hosts Q E)
include upholds

theorem stmt_evalWith (st : Stmt) (hosts : Hosts frame p) :
    (st.evalWith eval frame).run.Leads store (R frame) (Ended? Q E) p := by
  cases st with
  | expr value =>
    apply (upholds frame value p hosts).andThen
    intro v q _ given
    exact .ok (by simpa using given)
  | bind name value =>
    apply (upholds frame value p hosts).andThen
    intro v q step given
    obtain ⟨r, left, step'⟩ := upkeep.insert name (upkeep.hosts hosts step) given
    have bound : (Eval.insert frame name v).Leads store (R frame) (fun _ _ => True) q :=
      .modifyGet left step' trivial
    apply (Leads.lift bound).andThen
    intro _ r _ _
    exact .ok (by simp)
  | ret value =>
    apply (upholds frame value p hosts).andThen
    intro v q _ given
    exact .throw (upkeep.wrapped given)

theorem block_evalFrom (block : Block) {given : Option Value} (hosts : Hosts frame p)
    (start : ∀ v ∈ given, Q v p) :
    (Block.evalFrom eval frame given block).run.Leads store (R frame) (Ended? Q E) p := by
  induction block generalizing given p with
  | nil => exact .ok start
  | cons st rest ih =>
    apply (upkeep.stmt_evalWith upholds st hosts).andThen
    intro given q step start
    exact ih (upkeep.hosts hosts step) start

theorem block_evalWith (block : Block) (hosts : Hosts frame p) :
    (Block.evalWith eval frame block).run.Leads store (R frame) (Ended? Q E) p :=
  upkeep.block_evalFrom upholds block hosts (by simp)

theorem block_valueWith (block : Block) (hosts : Hosts frame p) :
    (Block.valueWith eval frame block).run.Leads store (R frame) (Ended Q E) p := by
  apply (upkeep.block_evalWith upholds block hosts).andThen
  intro last q _ given
  cases last with
  | none => exact .ok (upkeep.null q)
  | some v => exact .ok (given v rfl)

theorem evalEach (args : List Expr) (hosts : Hosts frame p) :
    (Quasiquote.evalEach eval frame args).run.Leads store (R frame)
      (Ended (fun vs q => ∀ v ∈ vs, Q v q) E) p := by
  induction args generalizing p with
  | nil => exact .ok (by simp)
  | cons x rest ih =>
    apply (upholds frame x p hosts).andThen
    intro v q step first
    apply (ih (upkeep.hosts hosts step)).andThen
    intro vs r step' others
    exact .ok (List.forall_mem_cons.mpr ⟨upkeep.later first step', others⟩)

theorem splice (frame : Nat) :
    RuleLeads store (R frame) (Hosts frame) pass E (Quasiquote.splice eval frame) where
  ready _ _ := upkeep.hosts
  leads e p hosts parts := by
    unfold Quasiquote.splice
    split
    · next callee arg =>
      split
      · apply (Leads.lift (upholds frame arg p hosts).settled).andThen
        intro v q _ given
        unfold Value.spliced
        split
        · next node stands => exact .ok (upkeep.spliced given stands)
        · split
          · next fault =>
            cases v with
            | fault cause => exact .throw (upkeep.fault cause q)
            | _ => cases fault
          · exact .throw (upkeep.fault _ q)
      · next other =>
        refine .ok (upkeep.kept ?_ parts)
        intro callee' arg' same
        cases same
        exact other
    · next other =>
      refine .ok (upkeep.kept ?_ parts)
      intro callee arg same
      exact absurd same (other callee arg)

theorem quoteWith (node : Expr) (hosts : Hosts frame p) :
    (node.quoteWith eval frame).run.Leads store (R frame) (Ended Q E) p := by
  apply (Expr.rewriteM_leads (upkeep.splice upholds frame) node p hosts).andThen
  intro node q _ passes
  have numbered :
      Eval.newSerial.Leads store (R frame) (fun serial => Q (.quotation serial node)) q :=
    upkeep.newSerial (upkeep.quotation passes)
  apply (Leads.lift numbered).andThen
  intro serial r _ given
  exact .ok given

theorem quoteCall (args : List Expr) (hosts : Hosts frame p) :
    (Quasiquote.quoteCall eval frame args).run.Leads store (R frame) (Ended Q E) p := by
  unfold Quasiquote.quoteCall
  split
  · exact upkeep.quoteWith upholds _ hosts
  · exact .throw (upkeep.fault _ p)

variable [IsPreorder World C]

theorem callWith (ready : Ready p) {callee : Value} (given : Q callee p) {args : List Value}
    (others : ∀ v ∈ args, Q v p) :
    (callee.callWith eval args).run.Leads store C (CallEnded Q E) p := by
  unfold Value.callWith
  split
  · next closure =>
    split
    · obtain ⟨inside, opens, hosts, leave⟩ := upkeep.enter ready given others
      apply inNewFrame opens leave
      exact upkeep.catchReturn (upkeep.block_valueWith upholds _ hosts)
    · exact .throw ⟨upkeep.fault _ p, nofun⟩
  · exact .throw ⟨upkeep.fault _ p, nofun⟩

theorem expr_evalWith (e : Expr) (hosts : Hosts frame p) :
    (e.evalWith eval frame).run.Leads store (R frame) (Ended Q E) p := by
  cases e with
  | int n => exact .ok ((upkeep.plain p rfl).result rfl)
  | bool b => exact .ok ((upkeep.plain p rfl).result rfl)
  | name id =>
    have looked : (Eval.find? frame id).Leads store (R frame)
        (fun found q => ∀ v ∈ found, v.Fits Q E q) p := by
      apply Leads.bind .get
      rintro _ q _ ⟨rfl, rfl⟩
      exact .pure fun v found => upkeep.found hosts found
    apply (Leads.lift looked).andThen
    intro found q _ fits
    cases found with
    | none => exact raise (upkeep.plain q rfl)
    | some v => exact raise (fits v rfl)
  | unary op operand =>
    apply (upholds frame operand p hosts).andThen
    intro v q _ _
    exact raise (upkeep.plain q (op.apply_isPlain v))
  | binary left op right =>
    apply (upholds frame left p hosts).andThen
    intro a q step _
    apply (upholds frame right q (upkeep.hosts hosts step)).andThen
    intro b r _ _
    exact raise (upkeep.plain r (op.apply_isPlain a b))
  | cond test consequence alternative =>
    apply (upholds frame test p hosts).andThen
    intro v q step _
    have hosts := upkeep.hosts hosts step
    split
    · exact upkeep.block_valueWith upholds consequence hosts
    · cases alternative with
      | some block => exact upkeep.block_valueWith upholds block hosts
      | none => exact .ok (upkeep.null q)
  | routine role params body =>
    cases role with
    | function =>
      have numbered : Eval.newSerial.Leads store (R frame)
          (fun serial => Q (.routine .function serial ⟨params, body, frame⟩)) p :=
        upkeep.newSerial (upkeep.routine params body hosts)
      apply (Leads.lift numbered).andThen
      intro serial q _ given
      exact .ok given
    | transformer => exact .throw (upkeep.fault _ p)
  | call callee args =>
    rw [Expr.evalWith]
    split
    · exact upkeep.quoteCall upholds args hosts
    · apply (upholds frame callee p hosts).andThen
      intro f q step given
      have hosts := upkeep.hosts hosts step
      apply (upkeep.evalEach upholds args hosts).andThen
      intro vs r step' others
      have ready := upkeep.ready (upkeep.hosts hosts step')
      have called := upkeep.callWith upholds ready (upkeep.later given step') others
      exact (called.beyond fun _ => upkeep.outside frame).weakenEnds (fun _ _ _ given => given)
        fun _ _ _ given => given.1

end

/-! ## Up to a depth -/

variable [IsPreorder World C]

theorem expr_eval (depth : Nat) : Evaluator.Upholds store R Hosts Q E (Expr.eval depth) := by
  induction depth with
  | zero => exact fun _ _ _ _ => .exhausted
  | succ depth ih => exact fun _ e _ hosts => upkeep.expr_evalWith ih e hosts

theorem block_eval (depth : Nat) (block : Block) (hosts : Hosts frame p) :
    (Block.eval depth frame block).run.Leads store (R frame) (Ended? Q E) p :=
  upkeep.block_evalWith (upkeep.expr_eval depth) block hosts

end Eval.Upkeep

/-! ## Where worlds are stores -/

/-- The upkeep where worlds are stores. It is then clear what each thing that is done leads to. -/
structure Eval.Invariant (R : Nat → Store → Store → Prop) (C : Store → Store → Prop)
    (Ready : Store → Prop) (Hosts : Nat → Store → Prop) (Q E : Value → Store → Prop)
    (pass : Expr → Prop) : Prop where
  outside : ∀ {s t} frame, C s t → R frame s t
  ready : ∀ {frame s}, Hosts frame s → Ready s
  hosts : ∀ {frame s t}, Hosts frame s → R frame s t → Hosts frame t
  later : ∀ {frame v s t}, Q v s → R frame s t → Q v t
  plain : ∀ {v : Value} (s : Store), v.isPlain → v.Fits Q E s
  wrapped : ∀ {v s}, Q v s → E (.returned v) s
  inner : ∀ {v : Value} {s : Store}, E (.returned v) s → v.Fits Q E s
  found : ∀ {frame name v} {s : Store}, Hosts frame s → s.find? frame name = some v →
    v.Fits Q E s
  newSerial : ∀ s : Store, C s { s with serials := s.serials + 1 }
  insert : ∀ {frame v} {s : Store} name, Hosts frame s → Q v s → R frame s (s.insert frame name v)
  /-- A call works in a frame of its own, and its effects there do not show outside. -/
  enter : ∀ {serial closure args} {s : Store}, Ready s → Q (.routine .function serial closure) s →
    (∀ v ∈ args, Q v s) → Hosts s.frames.size (s.openFrame (closure.callFrame args)) ∧
      ∀ t, R s.frames.size (s.openFrame (closure.callFrame args)) t → C s t
  routine : ∀ {frame} {s : Store} params body, Hosts frame s →
    Q (.routine .function s.serials ⟨params, body, frame⟩) { s with serials := s.serials + 1 }
  quotation : ∀ {node} {s : Store}, pass node →
    Q (.quotation s.serials node) { s with serials := s.serials + 1 }
  /-- What an unquoted expression comes to is put into syntax that is quoted. -/
  spliced : ∀ {v : Value} {node s}, Q v s ∨ E v s → v.syntax? = some node → pass node
  /-- What no call of `unquote` is stays as it is in syntax that is quoted. -/
  kept : ∀ {e : Expr}, (∀ callee arg, e = .call callee [arg] → callee.name? ≠ some "unquote") →
    (∀ part ∈ e.parts, pass part) → pass e

def Evaluator.Maintains (R : Nat → Store → Store → Prop) (Hosts : Nat → Store → Prop)
    (Q E : Value → Store → Prop) (eval : Evaluator) : Prop :=
  ∀ frame e s, Hosts frame s → (eval frame e).run.Gives (R frame) (Ended Q E) s

theorem Evaluator.Maintains.upholds {R : Nat → Store → Store → Prop} {Hosts : Nat → Store → Prop}
    {Q E : Value → Store → Prop} {eval : Evaluator} (h : eval.Maintains R Hosts Q E) :
    eval.Upholds id R Hosts Q E :=
  fun frame e s hosts => (h frame e s hosts).leads

namespace Eval.Invariant

variable {R : Nat → Store → Store → Prop} {C : Store → Store → Prop} {Ready : Store → Prop}
  {Hosts : Nat → Store → Prop} {Q E : Value → Store → Prop} {pass : Expr → Prop}
  {frame : Nat} {s : Store}

/-- Relations between stores alone, no matter what the values and the syntax in them are. -/
theorem ofStores (outside : ∀ s t frame, C s t → R frame s t)
    (newSerial : ∀ s : Store, C s { s with serials := s.serials + 1 })
    (insert : ∀ (s : Store) frame name v, R frame s (s.insert frame name v))
    (leave : ∀ (s : Store) f t, R s.frames.size (s.openFrame f) t → C s t) :
    Invariant R C (fun _ => True) (fun _ _ => True) (fun _ _ => True) (fun _ _ => True)
      fun _ => True where
  outside := outside _ _
  ready _ := trivial
  hosts _ _ := trivial
  later _ _ := trivial
  plain _ _ := ⟨fun _ => trivial, fun _ => trivial⟩
  wrapped _ := trivial
  inner _ := ⟨fun _ => trivial, fun _ => trivial⟩
  found _ _ := ⟨fun _ => trivial, fun _ => trivial⟩
  newSerial := newSerial
  insert name _ _ := insert _ _ name _
  enter _ _ _ := ⟨trivial, leave _ _⟩
  routine _ _ _ := trivial
  quotation _ := trivial
  spliced _ _ := trivial
  kept _ _ := trivial

theorem upkeep (inv : Invariant R C Ready Hosts Q E pass) :
    Upkeep id R C Ready Hosts Q E pass where
  outside := inv.outside
  ready := inv.ready
  hosts := inv.hosts
  later := inv.later
  plain := inv.plain
  wrapped := inv.wrapped
  inner := inv.inner
  found := inv.found
  insert name hosts given := ⟨_, rfl, inv.insert name hosts given⟩
  enter ready callee args := ⟨_, rfl, inv.enter ready callee args⟩
  routine params body hosts := ⟨_, rfl, inv.newSerial _, inv.routine params body hosts⟩
  quotation pass := ⟨_, rfl, inv.newSerial _, inv.quotation pass⟩
  spliced := inv.spliced
  kept := inv.kept

variable [∀ frame, IsPreorder Store (R frame)] [IsPreorder Store C]
variable (inv : Invariant R C Ready Hosts Q E pass)
include inv

theorem expr_eval (depth : Nat) : Evaluator.Maintains R Hosts Q E (Expr.eval depth) :=
  fun frame e s hosts => (inv.upkeep.expr_eval depth frame e s hosts).gives

theorem block_eval (depth : Nat) (block : Block) (hosts : Hosts frame s) :
    (Block.eval depth frame block).run.Gives (R frame) (Ended? Q E) s :=
  (inv.upkeep.block_eval depth block hosts).gives

variable {eval : Evaluator} (maintains : eval.Maintains R Hosts Q E)
include maintains

omit [IsPreorder Store C] in
theorem stmt_evalWith (st : Stmt) (hosts : Hosts frame s) :
    (st.evalWith eval frame).run.Gives (R frame) (Ended? Q E) s :=
  (inv.upkeep.stmt_evalWith maintains.upholds st hosts).gives

omit [IsPreorder Store C] in
theorem quoteWith (node : Expr) (hosts : Hosts frame s) :
    (node.quoteWith eval frame).run.Gives (R frame) (Ended Q E) s :=
  (inv.upkeep.quoteWith maintains.upholds node hosts).gives

theorem callWith (ready : Ready s) {callee : Value} (given : Q callee s) {args : List Value}
    (others : ∀ v ∈ args, Q v s) :
    (callee.callWith eval args).run.Gives C (CallEnded Q E) s :=
  (inv.upkeep.callWith maintains.upholds ready given others).gives

end Eval.Invariant

/-! ## What evaluation keeps if its effects do -/

open Eval

/-- Each effect of evaluation leaves a store that is in this relation to the one before. -/
structure Eval.Effects (R : Store → Store → Prop) : Prop where
  newSerial : Eval.newSerial.Keeps R
  openFrame : ∀ f, (Eval.openFrame f).Keeps R
  insert : ∀ frame name v, (Eval.insert frame name v).Keeps R

section
variable {R : Store → Store → Prop} [IsPreorder Store R] (effects : Effects R)
include effects

theorem Eval.Effects.invariant :
    Eval.Invariant (fun _ => R) R (fun _ => True) (fun _ _ => True) (fun _ _ => True)
      (fun _ _ => True) fun _ => True :=
  .ofStores (fun _ _ _ step => step) (fun s => effects.newSerial s _ _ rfl)
    (fun s frame name v => effects.insert frame name v s _ _ rfl)
    fun s f _ => IsTrans.trans s _ _ (effects.openFrame f s _ _ rfl)

theorem Value.call_keeps (depth : Nat) (callee : Value) (args : List Value) :
    (callee.call depth args).run.Keeps R :=
  .of_gives fun _ => effects.invariant.callWith (effects.invariant.expr_eval depth) trivial
    trivial fun _ _ => trivial

end

end Quasiquote
