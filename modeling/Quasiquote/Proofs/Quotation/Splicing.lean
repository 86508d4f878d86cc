import Quasiquote.Proofs.Quotation.Stopping

/-!
# A quotation is spliced from left to right

* `Expr.unquotes`: the arguments of the calls of `unquote` with one argument, in the order in which
  they stand in the source. `Expr.refill`: an expression with those calls replaced, one after the
  other, and everything else as it stands.
* `Test.unnested`: no such call is inside of another one, and none is the callee of a call.
* `Expr.rewriteM_splice`: a quotation then splices each of the arguments, and refills the expression
  with what came of that.
* `SplicesEach`: expressions that are evaluated one after the other, each to a value with a syntax.
* `quote_splices`: a quotation gives its node refilled with the syntax of what was unquoted, or else
  stops at the first value that has none.
-/

namespace Quasiquote

/-- A call of `unquote` with one argument. -/
def Expr.isUnquote : Expr → Bool
  | .call callee [_] => callee.name? == some "unquote"
  | _ => false

mutual

/-- What is unquoted in an expression, in the order of the source. -/
def Expr.unquotes : Expr → List Expr
  | .name _ | .int _ | .bool _ => []
  | .unary _ operand => operand.unquotes
  | .binary left _ right => left.unquotes ++ right.unquotes
  | .cond test consequence alternative =>
    test.unquotes ++ (unquotesBlock consequence ++ unquotesAlternative alternative)
  | .routine _ _ body => unquotesBlock body
  | .call callee args =>
    if (Expr.call callee args).isUnquote then args else callee.unquotes ++ unquotesArgs args

def Stmt.unquotes : Stmt → List Expr
  | .bind _ value => value.unquotes
  | .ret value => value.unquotes
  | .expr value => value.unquotes

def unquotesBlock : List Stmt → List Expr
  | [] => []
  | s :: rest => s.unquotes ++ unquotesBlock rest

def unquotesAlternative : Option (List Stmt) → List Expr
  | none => []
  | some block => unquotesBlock block

def unquotesArgs : List Expr → List Expr
  | [] => []
  | x :: rest => x.unquotes ++ unquotesArgs rest

end

mutual

/-- An expression with its calls of `unquote` replaced by these nodes, one for each, in order. -/
def Expr.refill : Expr → List Expr → Expr
  | .name id, _ => .name id
  | .int n, _ => .int n
  | .bool b, _ => .bool b
  | .unary op operand, nodes => .unary op (operand.refill nodes)
  | .binary left op right, nodes =>
    .binary (left.refill (nodes.take left.unquotes.length)) op
      (right.refill (nodes.drop left.unquotes.length))
  | .cond test consequence alternative, nodes =>
    let rest := nodes.drop test.unquotes.length
    .cond (test.refill (nodes.take test.unquotes.length))
      (refillBlock consequence (rest.take (unquotesBlock consequence).length))
      (refillAlternative alternative (rest.drop (unquotesBlock consequence).length))
  | .routine role params body, nodes => .routine role params (refillBlock body nodes)
  | .call callee args, nodes =>
    if (Expr.call callee args).isUnquote then nodes.headD (.call callee args)
    else
      .call (callee.refill (nodes.take callee.unquotes.length))
        (refillArgs args (nodes.drop callee.unquotes.length))
termination_by structural e => e

def Stmt.refill : Stmt → List Expr → Stmt
  | .bind name value, nodes => .bind name (value.refill nodes)
  | .ret value, nodes => .ret (value.refill nodes)
  | .expr value, nodes => .expr (value.refill nodes)
termination_by structural st => st

def refillBlock : List Stmt → List Expr → List Stmt
  | [], _ => []
  | s :: rest, nodes =>
    s.refill (nodes.take s.unquotes.length) :: refillBlock rest (nodes.drop s.unquotes.length)
termination_by structural block => block

def refillAlternative : Option (List Stmt) → List Expr → Option (List Stmt)
  | none, _ => none
  | some block, nodes => some (refillBlock block nodes)
termination_by structural alternative => alternative

def refillArgs : List Expr → List Expr → List Expr
  | [], _ => []
  | x :: rest, nodes =>
    x.refill (nodes.take x.unquotes.length) :: refillArgs rest (nodes.drop x.unquotes.length)
termination_by structural args => args

end

/-- Nothing is unquoted inside of what is unquoted, and no call of `unquote` is called. -/
def Test.unnested : Test :=
  .ofExprs fun
    | .call callee args =>
      !callee.isUnquote && (!(Expr.call callee args).isUnquote || argsEverywhere .noUnquote args)
    | _ => true

/-- Evaluates expressions from the left, each to a value with a syntax. -/
def spliceEach (eval : Evaluator) (frame : Nat) : List Expr → Signalling (List Expr)
  | [] => pure []
  | x :: rest => do
    let v ← (eval frame x).settled
    let node ← v.spliced
    let nodes ← spliceEach eval frame rest
    pure (node :: nodes)

open Eval

/-! ## Splicing one after the other -/

section
variable {eval : Evaluator} {frame : Nat}

theorem spliceEach_append (first rest : List Expr) :
    spliceEach eval frame (first ++ rest) =
      (do
        let nodes ← spliceEach eval frame first
        let others ← spliceEach eval frame rest
        pure (nodes ++ others)) := by
  induction first with
  | nil => simp [spliceEach]
  | cons x first ih => simp [spliceEach, ih]

/-- What comes after splicing may count on one node for each expression. -/
theorem spliceEach_bind_congr {β : Type} {xs : List Expr} {next next' : List Expr → Signalling β}
    (same : ∀ nodes, nodes.length = xs.length → next nodes = next' nodes) :
    (spliceEach eval frame xs >>= next) = (spliceEach eval frame xs >>= next') := by
  induction xs generalizing next next' with
  | nil =>
    have here := same [] rfl
    simp only [spliceEach, pure_bind, here]
  | cons x rest ih =>
    simp only [spliceEach, bind_assoc, pure_bind]
    congr 1
    funext v
    congr 1
    funext node
    apply ih
    intro nodes length
    exact same (node :: nodes) (by rw [List.length_cons, length, List.length_cons])

/-- Two parts in a row: what is unquoted in the first is spliced before what is in the second. -/
theorem spliceEach_both {α β γ : Type} {x : Signalling α} {y : Signalling β} {xs ys : List Expr}
    {f : List Expr → α} {g : List Expr → β} (next : α → β → Signalling γ)
    (first : x = spliceEach eval frame xs >>= fun nodes => pure (f nodes))
    (second : y = spliceEach eval frame ys >>= fun nodes => pure (g nodes)) :
    (x >>= fun a => y >>= fun b => next a b) =
      spliceEach eval frame (xs ++ ys) >>= fun nodes =>
        next (f (nodes.take xs.length)) (g (nodes.drop xs.length)) := by
  rw [first, second, spliceEach_append]
  simp only [bind_assoc, pure_bind]
  apply spliceEach_bind_congr
  intro nodes length
  rw [← length]
  simp only [List.take_left, List.drop_left]

/-! ## The whole of a node -/

theorem Test.noUnquote_onExpr (e : Expr) : Test.noUnquote.onExpr e = !e.isUnquote := by
  unfold Expr.isUnquote
  split
  · rfl
  · next other =>
    simp only [Test.noUnquote, Test.ofExprs, Bool.not_false]

theorem splice_of_kept {e : Expr} (pass : Test.noUnquote.onExpr e) :
    splice eval frame e = pure e :=
  funext fun _ => splice_eq_self pass

theorem Expr.refill_name? {e : Expr} (kept : e.isUnquote = false) (nodes : List Expr) :
    (e.refill nodes).name? = e.name? := by
  cases e with
  | call callee args =>
    rw [Expr.refill, kept]
    rfl
  | _ => rfl

theorem refillArgs_length (args nodes : List Expr) :
    (refillArgs args nodes).length = args.length := by
  induction args generalizing nodes with
  | nil => rfl
  | cons x rest ih => rw [refillArgs, List.length_cons, ih, List.length_cons]

theorem Expr.isUnquote_call {callee : Expr} {args : List Expr} :
    (Expr.call callee args).isUnquote ↔ callee.name? = some "unquote" ∧ args.length = 1 := by
  match args with
  | [] | [_] | _ :: _ :: _ => simp [Expr.isUnquote]

/-- What is kept is kept with its parts refilled: no call of `unquote` comes of it. -/
theorem Expr.isUnquote_refill {e : Expr} (kept : e.isUnquote = false)
    (pass : Test.unnested.onExpr e) (nodes : List Expr) : (e.refill nodes).isUnquote = false := by
  cases e with
  | call callee args =>
    simp only [Test.unnested, Test.ofExprs, Bool.and_eq_true, Bool.not_eq_true'] at pass
    rw [Expr.refill, kept, if_neg Bool.false_ne_true]
    rw [Bool.eq_false_iff, ne_eq, Expr.isUnquote_call] at kept ⊢
    rwa [Expr.refill_name? pass.1, refillArgs_length]
  | _ => rfl

/-- A call of `unquote` without others inside is spliced by itself. -/
theorem Expr.rewriteM_unquote {e : Expr} (call : e.isUnquote) (pass : Test.unnested.onExpr e) :
    e.rewriteM (splice eval frame) =
      spliceEach eval frame e.unquotes >>= fun nodes => pure (e.refill nodes) := by
  cases e with
  | call callee args =>
    obtain ⟨named, single⟩ := Expr.isUnquote_call.mp call
    obtain ⟨arg, rfl⟩ := List.length_eq_one_iff.mp single
    simp only [Test.unnested, Test.ofExprs, call, Bool.not_true, Bool.false_or,
      Bool.and_eq_true] at pass
    have callee_kept : callee.rewriteM (splice eval frame) = pure callee := by
      cases callee with
      | name id => exact splice_of_kept rfl
      | _ => cases named
    have bare := (argsEverywhere_iff [arg]).mp pass.2 arg List.mem_cons_self
    have arg_kept : arg.rewriteM (splice eval frame) = pure arg :=
      arg.rewriteM_eq_pure (fun _ => splice_of_kept) bare
    rw [Expr.rewriteM, callee_kept, rewriteArgsM_eq, mapM_eq_pure (by simpa using arg_kept),
      pure_bind, pure_bind]
    simp only [Expr.unquotes, Expr.refill, call, if_true, splice, if_pos named, spliceEach,
      bind_assoc, pure_bind, List.headD_cons, bind_pure]
  | _ => cases call

/-! ## Part by part -/

theorem unquotesArgs_append (xs ys : List Expr) :
    unquotesArgs (xs ++ ys) = unquotesArgs xs ++ unquotesArgs ys := by
  induction xs with
  | nil => rfl
  | cons x xs ih => simp [unquotesArgs, ih]

theorem unquotesBlock_eq (block : Block) :
    unquotesBlock block = unquotesArgs (block.map Stmt.value) := by
  induction block with
  | nil => rfl
  | cons st rest ih =>
    have first : st.unquotes = st.value.unquotes := by cases st <;> rfl
    simp [unquotesBlock, unquotesArgs, ih, first]

theorem Expr.unquotes_eq_parts {e : Expr} (kept : e.isUnquote = false) :
    e.unquotes = unquotesArgs e.parts := by
  cases e with
  | cond test consequence alternative =>
    cases alternative <;>
      simp [Expr.unquotes, Expr.parts, unquotesAlternative, unquotesArgs, unquotesArgs_append,
        unquotesBlock_eq]
  | call callee args => simp [Expr.unquotes, Expr.parts, unquotesArgs, kept]
  | _ => simp [Expr.unquotes, Expr.parts, unquotesArgs, unquotesBlock_eq]

theorem refillBlock_eq (block : Block) (nodes : List Expr) :
    refillBlock block nodes = withValues block (refillArgs (block.map Stmt.value) nodes) := by
  induction block generalizing nodes with
  | nil => rfl
  | cons st rest ih =>
    have same : st.unquotes = st.value.unquotes := by cases st <;> rfl
    have first (nodes : List Expr) : st.refill nodes = st.withValue (st.value.refill nodes) := by
      cases st <;> rfl
    rw [refillBlock, ih, first, same]
    rfl

theorem refillArgs_append (xs ys nodes : List Expr) :
    refillArgs (xs ++ ys) nodes =
      refillArgs xs (nodes.take (unquotesArgs xs).length) ++
        refillArgs ys (nodes.drop (unquotesArgs xs).length) := by
  induction xs generalizing nodes with
  | nil => rfl
  | cons x xs ih =>
    simp [refillArgs, unquotesArgs, ih, List.take_take, List.drop_take, List.drop_drop]

theorem refillArgs_singleton {x : Expr} {nodes : List Expr}
    (length : nodes.length = x.unquotes.length) : refillArgs [x] nodes = [x.refill nodes] := by
  rw [refillArgs, List.take_of_length_le length.le]
  rfl

theorem mapM_splice {xs : List Expr} (each : ∀ x ∈ xs, x.rewriteM (splice eval frame) =
      spliceEach eval frame x.unquotes >>= fun nodes => pure (x.refill nodes)) :
    xs.mapM (Expr.rewriteM (splice eval frame)) =
      spliceEach eval frame (unquotesArgs xs) >>= fun nodes => pure (refillArgs xs nodes) := by
  induction xs with
  | nil => rfl
  | cons x xs ih =>
    rw [List.mapM_cons]
    exact spliceEach_both _ (each x List.mem_cons_self)
      (ih fun y inside => each y (List.mem_cons_of_mem x inside))

/-- What is kept is refilled part by part. -/
theorem Expr.refill_eq_withParts {e : Expr} (kept : e.isUnquote = false) {nodes : List Expr}
    (length : nodes.length = e.unquotes.length) :
    e.refill nodes = e.withParts (refillArgs e.parts nodes) := by
  cases e with
  | name | int | bool => rfl
  | unary op operand =>
    rw [Expr.parts, refillArgs_singleton (x := operand) length]
    rfl
  | binary left op right =>
    have second : (nodes.drop left.unquotes.length).length = right.unquotes.length := by
      simp [length, Expr.unquotes]
    rw [Expr.parts, refillArgs, refillArgs_singleton second]
    rfl
  | cond test consequence alternative =>
    rw [Expr.parts, refillArgs, refillArgs_append, ← unquotesBlock_eq]
    cases alternative with
    | none => simp [Expr.refill, refillAlternative, Expr.withParts, refillBlock_eq, refillArgs]
    | some block =>
      simp [Expr.refill, refillAlternative, Expr.withParts, refillBlock_eq, withValues_append,
        refillArgs_length]
  | routine role params body =>
    rw [Expr.refill, refillBlock_eq]
    rfl
  | call callee args =>
    rw [Expr.refill, kept]
    rfl

/-- A rewrite by splicing evaluates what is unquoted, from the left, and refills the tree with what
came of it. -/
theorem Expr.rewriteM_splice (e : Expr) (pass : e.everywhere .unnested) :
    e.rewriteM (splice eval frame) =
      spliceEach eval frame e.unquotes >>= fun nodes => pure (e.refill nodes) := by
  induction e, pass using Expr.partwise_of_everywhere with
  | step e pass parts =>
    have root := Expr.onExpr_of_everywhere pass
    cases call : e.isUnquote with
    | true => exact Expr.rewriteM_unquote call root
    | false =>
      rw [Expr.rewriteM_eq_parts, mapM_splice parts, bind_assoc, ← Expr.unquotes_eq_parts call]
      apply spliceEach_bind_congr
      intro nodes length
      rw [pure_bind, ← Expr.refill_eq_withParts call length]
      apply splice_of_kept
      rw [Test.noUnquote_onExpr, Expr.isUnquote_refill call root]
      rfl

theorem Expr.quote_eq {node : Expr} (tidy : node.everywhere .unnested) (depth frame : Nat) :
    Expr.quote depth frame node =
      (do
        let nodes ← spliceEach (Expr.eval depth) frame node.unquotes
        let serial ← Eval.newSerial
        pure (.quotation serial (node.refill nodes))) := by
  rw [Expr.quote, Expr.quoteWith, node.rewriteM_splice tidy, bind_assoc]
  simp only [pure_bind]

end

/-! ## What is unquoted, and what a quotation comes to -/

/-- Expressions are evaluated in a frame one after the other, each in the store that the one before
left and each to a value with a syntax. -/
inductive SplicesEach (frame : Nat) : List Expr → Store → List Expr → Store → Prop
  | nil {s} : SplicesEach frame [] s [] s
  | cons {x rest s t u v node nodes} (first : Expr.Evaluates frame x s v t)
      (stands : v.syntax? = some node) (others : SplicesEach frame rest t nodes u) :
      SplicesEach frame (x :: rest) s (node :: nodes) u

/-- One of the expressions comes to a value without a syntax, once all before it are spliced. -/
def SpliceStops (frame : Nat) (xs : List Expr) (s : Store) (v : Value) (u : Store) : Prop :=
  ∃ before x after nodes t, xs = before ++ x :: after ∧ SplicesEach frame before s nodes t ∧
    Expr.Evaluates frame x t v u ∧ v.syntax? = none

/-- What a quotation of a node comes to in a frame, at some depth. -/
def Expr.Quotes (frame : Nat) (node : Expr) (s : Store) (v : Value) (t : Store) : Prop :=
  ∃ depth, (Expr.quote depth frame node).settled s = some (v, t)

section
variable {eval : Evaluator} {frame : Nat} {x node : Expr} {rest : List Expr} {s t u : Store}
variable {v : Value}

theorem spliceEach_of_some (first : (eval frame x).settled s = some (v, t))
    (stands : v.syntax? = some node) :
    spliceEach eval frame (x :: rest) s =
      (spliceEach eval frame rest >>= fun nodes => pure (node :: nodes)) t := by
  have kept : v.spliced = pure node := by rw [Value.spliced, stands]
  refine (andThen_of_ok (lift_of_some first)).trans ?_
  rw [kept, pure_bind]

theorem spliceEach_of_none (first : (eval frame x).settled s = some (v, t))
    (bare : v.syntax? = none) :
    spliceEach eval frame (x :: rest) s = some (.error v.unspliced, t) := by
  have stopped : v.spliced = throw v.unspliced := by
    rw [Value.spliced, bare]
    rfl
  refine (andThen_of_ok (lift_of_some first)).trans (andThen_of_error ?_)
  rw [stopped]
  rfl

end

open Filter (atTop)
open scoped Filter

section
variable {frame : Nat} {xs nodes : List Expr} {node : Expr} {s t u : Store} {v : Value}

theorem SplicesEach.eventually (h : SplicesEach frame xs s nodes t) :
    ∀ᶠ depth in atTop, spliceEach (Expr.eval depth) frame xs s = some (.ok nodes, t) := by
  induction h with
  | nil => exact .of_forall fun _ => rfl
  | cons first stands _ ih =>
    filter_upwards [first.eventually, ih] with depth run rest
    rw [spliceEach_of_some (Signalling.settled_of_outcome run) stands]
    exact (andThen_of_ok rest).trans rfl

/-- Nothing behind the expression that stops it is evaluated. -/
theorem SpliceStops.eventually (h : SpliceStops frame xs s v u) :
    ∀ᶠ depth in atTop, spliceEach (Expr.eval depth) frame xs s = some (.error v.unspliced, u) := by
  obtain ⟨before, x, after, nodes, t, rfl, passed, last, bare⟩ := h
  filter_upwards [passed.eventually, last.eventually] with depth first run
  rw [spliceEach_append]
  refine (andThen_of_ok first).trans (andThen_of_error ?_)
  exact spliceEach_of_none (Signalling.settled_of_outcome run) bare

/-- Splicing at some depth gives nodes for all expressions, or stops at one of them. -/
theorem spliceEach_inv {depth : Nat} {outcome : Except Value (List Expr)}
    (run : spliceEach (Expr.eval depth) frame xs s = some (outcome, u)) :
    (∃ nodes, outcome = .ok nodes ∧ SplicesEach frame xs s nodes u) ∨
      ∃ v, outcome = .error v.unspliced ∧ SpliceStops frame xs s v u := by
  induction xs generalizing s outcome with
  | nil =>
    cases run
    exact .inl ⟨[], rfl, .nil⟩
  | cons x rest ih =>
    cases came : (Expr.eval depth frame x).settled s with
    | none =>
      rw [spliceEach, andThen_of_none (by rw [lift_apply, came]; rfl)] at run
      cases run
    | some result =>
      obtain ⟨v, t⟩ := result
      have first : Expr.Evaluates frame x s v t := ⟨depth, came⟩
      cases stands : v.syntax? with
      | none =>
        rw [spliceEach_of_none came stands] at run
        cases run
        exact .inr ⟨v, rfl, [], x, rest, [], s, rfl, .nil, first, stands⟩
      | some node =>
        rw [spliceEach_of_some came stands] at run
        rcases andThen_inv run with ⟨nodes, w, others, ended⟩ | ⟨error, others, rfl⟩
        · cases ended
          rcases ih others with ⟨_, same, passed⟩ | ⟨_, same, _⟩
          · cases same
            exact .inl ⟨node :: nodes, rfl, .cons first stands passed⟩
          · cases same
        · rcases ih others with ⟨_, same, _⟩ | ⟨w, same, stops⟩
          · cases same
          · cases same
            obtain ⟨before, y, after, nodes, t', rfl, passed, last⟩ := stops
            exact .inr ⟨w, rfl, x :: before, y, after, node :: nodes, t', rfl,
              .cons first stands passed, last⟩

theorem Expr.Quotes.unique {w : Value} (h : node.Quotes frame s v t)
    (h' : node.Quotes frame s w u) : v = w ∧ t = u := by
  obtain ⟨depth, run⟩ := h
  obtain ⟨depth', run'⟩ := h'
  have same := Eval.Deepens.unique
    (fun le => (Expr.quoteWith_deepens (Expr.eval_deepens le) frame node).settled) run run'
  exact ⟨congrArg Prod.fst same, congrArg Prod.snd same⟩

theorem Expr.quotes_of_splices (tidy : node.everywhere .unnested)
    (h : SplicesEach frame node.unquotes s nodes t) :
    node.Quotes frame s (.quotation t.serials (node.refill nodes))
      ⟨t.frames, t.serials + 1⟩ := by
  obtain ⟨depth, run⟩ := h.eventually.exists
  refine ⟨depth, Signalling.settled_of_outcome ?_⟩
  rw [Expr.quote_eq tidy]
  exact (andThen_of_ok run).trans rfl

theorem Expr.quotes_of_stops (tidy : node.everywhere .unnested)
    (h : SpliceStops frame node.unquotes s v u) : node.Quotes frame s v.unspliced u := by
  obtain ⟨depth, run⟩ := h.eventually.exists
  have loud : v.unspliced.isSignal := by
    unfold Value.unspliced
    cases v <;> rfl
  refine ⟨depth, Signalling.settled_of_outcome ?_⟩
  rw [Expr.quote_eq tidy, Value.outcome_of_signal loud]
  exact andThen_of_error run

theorem Expr.quote_inv (tidy : node.everywhere .unnested) {depth : Nat}
    {outcome : Except Value Value} (run : Expr.quote depth frame node s = some (outcome, u)) :
    (∃ nodes t, SplicesEach frame node.unquotes s nodes t) ∨
      ∃ w t, SpliceStops frame node.unquotes s w t := by
  rw [Expr.quote_eq tidy] at run
  rcases andThen_inv run with ⟨nodes, t, each, _⟩ | ⟨error, each, _⟩
  · rcases spliceEach_inv each with ⟨_, _, passed⟩ | ⟨_, same, _⟩
    · exact .inl ⟨_, t, passed⟩
    · cases same
  · rcases spliceEach_inv each with ⟨_, same, _⟩ | ⟨w, _, stops⟩
    · cases same
    · exact .inr ⟨w, u, stops⟩

/-- Whatever a quotation comes to is one of these two. -/
theorem Expr.Quotes.splices_or_stops (tidy : node.everywhere .unnested)
    (h : node.Quotes frame s v u) :
    (∃ nodes t, SplicesEach frame node.unquotes s nodes t ∧
      v = .quotation t.serials (node.refill nodes) ∧ u = ⟨t.frames, t.serials + 1⟩) ∨
    ∃ w, SpliceStops frame node.unquotes s w u ∧ v = w.unspliced := by
  have ⟨depth, run⟩ := h
  have ended : (∃ nodes t, SplicesEach frame node.unquotes s nodes t) ∨
      ∃ w t, SpliceStops frame node.unquotes s w t := by
    rcases Signalling.settled_inv run with came | came
    · exact Expr.quote_inv tidy came
    · exact Expr.quote_inv tidy came
  rcases ended with ⟨nodes, t, passed⟩ | ⟨w, t, stops⟩
  · obtain ⟨rfl, rfl⟩ := h.unique (Expr.quotes_of_splices tidy passed)
    exact .inl ⟨nodes, t, passed, rfl, rfl⟩
  · obtain ⟨rfl, rfl⟩ := h.unique (Expr.quotes_of_stops tidy stops)
    exact .inr ⟨w, stops, rfl⟩

end

/-- Nothing is evaluated where nothing is unquoted: no depth is needed. -/
theorem Expr.quote_of_noUnquote {node : Expr} (free : node.everywhere .noUnquote)
    (depth frame : Nat) (s : Store) :
    Expr.quote depth frame node s =
      some (.ok (.quotation s.serials node), ⟨s.frames, s.serials + 1⟩) :=
  (andThen_of_ok (Expr.rewriteM_eq_self (fun _ => splice_eq_self) node free)).trans rfl

/-- Of a node in which no call of `unquote` is inside of another or is called: what is unquoted is
evaluated from the left, each in the store that the one before left. If each comes to a value with a
syntax, then the node is quoted with these in place of the calls. It stops at the first that does
not: a fault is what the quotation comes to, and any other value without a syntax makes a fault that
names its kind. Nothing else comes of a quotation, and without such calls nothing is evaluated. -/
theorem quote_splices (frame : Nat) (node : Expr) (tidy : node.everywhere .unnested) (s : Store) :
    (∀ nodes t, SplicesEach frame node.unquotes s nodes t →
      node.Quotes frame s (.quotation t.serials (node.refill nodes))
        ⟨t.frames, t.serials + 1⟩) ∧
    (∀ cause u, SpliceStops frame node.unquotes s (.fault cause) u →
      node.Quotes frame s (.fault cause) u) ∧
    (∀ v u, v.isSignal = false → SpliceStops frame node.unquotes s v u →
      ∃ cause : Fault, cause.message = "cannot unquote " ++ v.kind.label ++ " into syntax" ∧
        node.Quotes frame s (.fault cause) u) ∧
    (∀ v u, node.Quotes frame s v u →
      ((∃ nodes t, SplicesEach frame node.unquotes s nodes t ∧
        v = .quotation t.serials (node.refill nodes) ∧ u = ⟨t.frames, t.serials + 1⟩) ∨
      ∃ w, SpliceStops frame node.unquotes s w u ∧ v = w.unspliced) ∧
      ∀ v' u', node.Quotes frame s v' u' → v' = v ∧ u' = u) ∧
    (node.everywhere .noUnquote → ∀ depth, Expr.quote depth frame node s =
      some (.ok (.quotation s.serials node), ⟨s.frames, s.serials + 1⟩)) := by
  refine ⟨?_, ?_, ?_, ?_, ?_⟩
  · intro nodes t passed
    exact Expr.quotes_of_splices tidy passed
  · intro cause u stops
    exact Expr.quotes_of_stops tidy stops
  · intro v u quiet stops
    refine ⟨.noSyntax v.kind, rfl, ?_⟩
    have plain : v.isFault = false := by
      cases v with
      | fault => cases quiet
      | _ => rfl
    have came := Expr.quotes_of_stops tidy stops
    rwa [Value.unspliced, plain] at came
  · intro v u came
    refine ⟨came.splices_or_stops tidy, ?_⟩
    intro v' u' came'
    exact came'.unique came
  · intro free depth
    exact Expr.quote_of_noUnquote free depth frame s

/-- The node `fn(x) { let y = unquote(quote(a)); return if (unquote(1 < 2)) { z } }`, where `z` is
`unquote(quote(b)) + unquote(2 + 3)`. -/
def unquotingBody : Expr :=
  .routine .function ["x"] [.bind "y" (Expr.quoted (.name "a")).unquoted,
    .ret (.cond (Expr.binary (.int 1) .lt (.int 2)).unquoted
      [.expr (.binary (Expr.quoted (.name "b")).unquoted .add
        (Expr.binary (.int 2) .add (.int 3)).unquoted)] none)]

/-- The second quotation in the body is made after the first, and the one around it after both. The
call `g(unquote(1), unquote(fn() {}), unquote(y))` stops at the function, before `y`. -/
theorem quote_splices_body :
    unquotingBody.Quotes 0 .initial (.quotation 2 (.routine .function ["x"]
      [.bind "y" (.name "a"), .ret (.cond (.bool true)
        [.expr (.binary (.name "b") .add (.int 5))] none)]))
      ⟨Store.initial.frames, 3⟩ ∧
    ∃ cause : Fault, cause.message = "cannot unquote FUNCTION into syntax" ∧
      (Expr.call (.name "g") [(Expr.int 1).unquoted, (Expr.routine .function [] []).unquoted,
        (Expr.name "y").unquoted]).Quotes 0 .initial (.fault cause) ⟨Store.initial.frames, 1⟩ := by
  have first : Expr.Evaluates 0 (Expr.quoted (.name "a")) .initial (.quotation 0 (.name "a"))
      ⟨Store.initial.frames, 1⟩ := ⟨1, by cbv⟩
  have compared : Expr.Evaluates 0 (.binary (.int 1) .lt (.int 2)) ⟨Store.initial.frames, 1⟩
      (.bool true) ⟨Store.initial.frames, 1⟩ := ⟨2, by cbv⟩
  have second : Expr.Evaluates 0 (Expr.quoted (.name "b")) ⟨Store.initial.frames, 1⟩
      (.quotation 1 (.name "b")) ⟨Store.initial.frames, 2⟩ := ⟨1, by cbv⟩
  have added : Expr.Evaluates 0 (.binary (.int 2) .add (.int 3)) ⟨Store.initial.frames, 2⟩
      (.int 5) ⟨Store.initial.frames, 2⟩ := ⟨2, by cbv⟩
  have one : Expr.Evaluates 0 (.int 1) .initial (.int 1) .initial := ⟨1, by cbv⟩
  have made : Expr.Evaluates 0 (.routine .function [] []) .initial
      (.routine .function 0 ⟨[], [], 0⟩) ⟨Store.initial.frames, 1⟩ := ⟨1, by cbv⟩
  constructor
  · have passed : SplicesEach 0 unquotingBody.unquotes .initial
        [.name "a", .bool true, .name "b", .int 5] ⟨Store.initial.frames, 2⟩ :=
      .cons first rfl (.cons compared rfl (.cons second rfl (.cons added rfl .nil)))
    exact (quote_splices 0 unquotingBody rfl .initial).1 _ _ passed
  · refine (quote_splices 0 _ rfl .initial).2.2.1 (.routine .function 0 ⟨[], [], 0⟩) _ rfl ?_
    exact ⟨[.int 1], _, [.name "y"], [.int 1], .initial, rfl, .cons one rfl .nil, made, rfl⟩

end Quasiquote
