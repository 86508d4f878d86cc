import Quasiquote.Proofs.Expansion.Completeness
import Quasiquote.Proofs.Expansion.Template
import Quasiquote.Proofs.Session.Running

/-!
# Expansion ends where templates do not come back to their macros

* `Closure.Quotes`: a macro that quotes a template and unquotes only its parameters in it.
* `Store.Ranks`: the macros that a frame sees are such, and what is called in the template of one is
  no macro of the same rank or a higher one.
* `Store.Comes`, `Store.Settles`: what a computation comes to with enough depth, whatever else was
  expanded before.
* `Expr.expands_of_parts`: an expression expands if its parts do and what they come to does.
* `expansion_terminates`: so every program expands, or breaks off with an arity error.
-/

namespace Quasiquote

/-! ## Ranks -/

/-- What is called is no call of `unquote` with one argument. -/
def Test.plainCallees : Test :=
  .ofExprs fun
    | .call callee _ => Test.noUnquote.onExpr callee
    | _ => true

/-- A macro that only quotes a template, and unquotes nothing in it but its parameters, and none of
them to be called. -/
structure Closure.Quotes (closure : Closure) (template : Expr) : Prop where
  body : closure.body = [.expr template.quoted]
  holes : template.everywhere (.holes closure.params)
  callees : template.everywhere .plainCallees

/-- Every macro that a frame sees quotes a template. Where something is called in the template, and
calls a macro by this relation, that macro is of a lower rank. -/
def Store.Ranks (s : Store) (frame : Nat) (rank : String → Nat) (calls : Expr → String → Prop) :
    Prop :=
  ∀ name serial closure, s.find? frame name = some (.routine .transformer serial closure) →
    ∃ template, closure.Quotes template ∧ ∀ callee args other, template.Has (.call callee args) →
      calls callee other → (s.find? frame other).any Value.isMacro → rank other < rank name

def Expr.Names (callee : Expr) (name : String) : Prop := callee = .name name

/-- A callee comes to name what it expands to, whatever its holes are filled with. -/
def Expr.ComesToName (s : Store) (frame : Nat) (callee : Expr) (name : String) : Prop :=
  ∃ content, (callee.fill content).ExpandsTo s frame (.ok (.name name))

def MacroError.IsArity (e : MacroError) : Prop := ∃ name want got, e = .arity name want got

/-! ## Computations that come to something -/

open Eval Store

section
variable {α β : Type} {s : Store}

/-- With enough depth the computation comes to this, from every store that still has the frames of
this one as they are, and it leaves them so. -/
def Store.Comes (s : Store) (x : Nat → ExceptT MacroError Eval α) (out : Except MacroError α) :
    Prop :=
  ∃ least, ∀ depth, least ≤ depth → ∀ t, s.Retains t →
    ∃ u, x depth t = some (out, u) ∧ s.Retains u

/-- The computation comes to something of which this holds, or to an arity error. -/
def Store.Settles (s : Store) (x : Nat → ExceptT MacroError Eval α) (Q : α → Prop) : Prop :=
  (∃ a, s.Comes x (.ok a) ∧ Q a) ∨ ∃ e, s.Comes x (.error e) ∧ e.IsArity

theorem Store.Settles.pure {Q : α → Prop} {a : α} (h : Q a) : s.Settles (fun _ => pure a) Q :=
  .inl ⟨a, ⟨0, fun _ _ t kept => ⟨t, rfl, kept⟩⟩, h⟩

theorem Store.Settles.weaken {x : Nat → ExceptT MacroError Eval α} {Q P : α → Prop}
    (h : s.Settles x Q) (weaker : ∀ a, s.Comes x (.ok a) → Q a → P a) : s.Settles x P := by
  rcases h with ⟨a, comes, given⟩ | error
  · exact .inl ⟨a, comes, weaker a comes given⟩
  · exact .inr error

theorem Store.Comes.andThen {x : Nat → ExceptT MacroError Eval α}
    {f : Nat → α → ExceptT MacroError Eval β} {a : α} {out : Except MacroError β}
    (first : s.Comes x (.ok a)) (second : s.Comes (f · a) out) :
    s.Comes (fun depth => x depth >>= f depth) out := by
  obtain ⟨least, always⟩ := first
  obtain ⟨least', always'⟩ := second
  refine ⟨max least least', ?_⟩
  intro depth le t kept
  obtain ⟨u, run, kept⟩ := always depth ((le_max_left _ _).trans le) t kept
  obtain ⟨v, run', kept⟩ := always' depth ((le_max_right _ _).trans le) u kept
  exact ⟨v, (andThen_of_ok run).trans run', kept⟩

theorem Store.Settles.andThen {x : Nat → ExceptT MacroError Eval α}
    {f : Nat → α → ExceptT MacroError Eval β} {Q : α → Prop} {P : β → Prop}
    (first : s.Settles x Q) (second : ∀ a, Q a → s.Settles (f · a) P) :
    s.Settles (fun depth => x depth >>= f depth) P := by
  rcases first with ⟨a, comes, given⟩ | ⟨e, comes, arity⟩
  · rcases second a given with ⟨b, comes', given'⟩ | ⟨e, comes', arity⟩
    · exact .inl ⟨b, comes.andThen comes', given'⟩
    · exact .inr ⟨e, comes.andThen comes', arity⟩
  · obtain ⟨least, always⟩ := comes
    refine .inr ⟨e, ⟨least, ?_⟩, arity⟩
    intro depth le t kept
    obtain ⟨u, run, kept⟩ := always depth le t kept
    exact ⟨u, andThen_of_error run, kept⟩

end

/-! ## One expression after its parts -/

section
variable {s : Store} {frame : Nat}

/-- Nothing in this expression calls a macro. -/
abbrev Store.Free (s : Store) (frame : Nat) (e : Expr) : Prop :=
  e.everywhere (s.noMacroCall frame)

/-- The expression expands to one without macro calls, or breaks off with an arity error. -/
def Store.Expands (s : Store) (frame : Nat) (e : Expr) : Prop :=
  s.Settles (fun depth => e.rewriteM (expandNode frame depth)) (s.Free frame)

theorem Store.Expands.stmt {st : Stmt} (value : s.Expands frame st.value) :
    s.Settles (fun depth => st.rewriteM (expandNode frame depth))
      fun st' => s.Free frame st'.value := by
  cases st with
  | bind name value' | ret value' | expr value' =>
    refine Settles.andThen value ?_
    intro e free
    exact .pure free

theorem Store.settles_block {block : Block} (values : ∀ st ∈ block, s.Expands frame st.value) :
    s.Settles (fun depth => rewriteBlockM (expandNode frame depth) block)
      fun block' => ∀ st ∈ block', s.Free frame (Stmt.value st) := by
  induction block with
  | nil => exact .pure (by simp)
  | cons st rest ih =>
    obtain ⟨first, others⟩ := List.forall_mem_cons.mp values
    refine first.stmt.andThen ?_
    intro st' free
    refine (ih others).andThen ?_
    intro rest' frees
    exact .pure (List.forall_mem_cons.mpr ⟨free, frees⟩)

theorem Store.settles_alternative {alternative : Option Block}
    (values : ∀ block ∈ alternative, ∀ st ∈ block, s.Expands frame (Stmt.value st)) :
    s.Settles (fun depth => rewriteAlternativeM (expandNode frame depth) alternative)
      fun alternative' => ∀ block ∈ alternative', ∀ st ∈ block, s.Free frame (Stmt.value st) := by
  cases alternative with
  | none => exact .pure (by simp)
  | some block =>
    refine (settles_block (values block rfl)).andThen ?_
    intro block' frees
    refine .pure ?_
    rintro _ ⟨⟩
    exact frees

theorem Store.settles_args {args : List Expr} (each : ∀ x ∈ args, s.Expands frame x) :
    s.Settles (fun depth => rewriteArgsM (expandNode frame depth) args)
      fun args' => ∀ x ∈ args', s.Free frame x := by
  induction args with
  | nil => exact .pure (by simp)
  | cons x rest ih =>
    obtain ⟨first, others⟩ := List.forall_mem_cons.mp each
    refine Settles.andThen first ?_
    intro x' free
    refine (ih others).andThen ?_
    intro rest' frees
    exact .pure (List.forall_mem_cons.mpr ⟨free, frees⟩)

theorem Store.Comes.expandsTo {e : Expr} {node : Expr}
    (comes : s.Comes (fun depth => e.rewriteM (expandNode frame depth)) (.ok node)) :
    e.ExpandsTo s frame (.ok node) := by
  obtain ⟨least, always⟩ := comes
  obtain ⟨t, run, _⟩ := always least le_rfl s (refl s)
  exact ⟨least, .ok node, t, run, rfl⟩

/-- An expression expands if its parts do, and if what they come to does. What calls it is then what
the callee expands to. -/
theorem Expr.expands_of_parts {e : Expr} (parts : ∀ part ∈ e.parts, s.Expands frame part)
    (node : ∀ e' : Expr, (∀ part ∈ e'.parts, s.Free frame part) →
      (∀ callee' args', e' = .call callee' args' → ∃ callee args, e = .call callee args ∧
        callee.ExpandsTo s frame (.ok callee')) →
      s.Settles (fun depth => expandNode frame depth e') (s.Free frame)) :
    s.Expands frame e := by
  cases e with
  | name | int | bool => exact node _ (by simp [Expr.parts]) (by simp)
  | unary op operand =>
    have operand := parts operand (by simp [Expr.parts])
    refine Settles.andThen operand ?_
    intro operand' free
    exact node _ (by simpa [Expr.parts] using free) (by simp)
  | binary left op right =>
    have left := parts left (by simp [Expr.parts])
    have right := parts right (by simp [Expr.parts])
    refine Settles.andThen left ?_
    intro left' free
    refine Settles.andThen right ?_
    intro right' free'
    exact node _ (by simpa [Expr.parts] using ⟨free, free'⟩) (by simp)
  | cond test consequence alternative =>
    obtain ⟨test, consequence, alternative⟩ := Expr.forall_parts_cond.mp parts
    refine Settles.andThen test ?_
    intro test' free
    refine (settles_block consequence).andThen ?_
    intro consequence' free'
    refine (settles_alternative alternative).andThen ?_
    intro alternative' free''
    exact node _ (Expr.forall_parts_cond.mpr ⟨free, free', free''⟩) (by simp)
  | routine role params body =>
    refine (settles_block (Expr.forall_parts_routine.mp parts)).andThen ?_
    intro body' frees
    exact node _ (Expr.forall_parts_routine.mpr frees) (by simp)
  | call callee args =>
    obtain ⟨first, others⟩ := List.forall_mem_cons.mp parts
    have named := Settles.weaken first fun callee' comes free => And.intro free comes.expandsTo
    refine named.andThen ?_
    rintro callee' ⟨free, comes⟩
    refine (settles_args others).andThen ?_
    intro args' frees
    refine node _ (List.forall_mem_cons.mpr ⟨free, frees⟩) ?_
    rintro _ _ ⟨⟩
    exact ⟨callee, args, rfl, comes⟩

end

/-! ## Filled templates -/

/-- What a macro's arguments are to its parameters, the last one for equal parameters. -/
def Closure.lastArg? (closure : Closure) (args : List Expr) (name : String) : Option Expr :=
  (closure.params.zip args).reverse.lookup name

section
variable {closure : Closure} {template : Expr} {args : List Expr}

theorem Closure.lastArg?_mem {name : String} {node : Expr}
    (h : closure.lastArg? args name = some node) : node ∈ args := by
  obtain ⟨before, after, eq, _⟩ := List.lookup_eq_some_iff.mp h
  have inside : (name, node) ∈ (closure.params.zip args).reverse := eq ▸ by simp
  exact (List.of_mem_zip (List.mem_reverse.mp inside)).2

theorem Closure.lastArg?_isSome (arity : closure.params.length = args.length) {name : String}
    (param : name ∈ closure.params) : ∃ node, closure.lastArg? args name = some node := by
  rw [← List.map_fst_zip arity.le, ← List.mem_reverse, ← List.map_reverse] at param
  exact lookup_of_mem_keys param

theorem Closure.filling_lastArg (arity : closure.params.length = args.length) (depth first : Nat)
    {s : Store} {frame : Nat}
    (here : s.frames[frame]? = some (closure.callFrame (quotedFrom first args))) :
    Filling (Expr.eval (depth + 1)) frame s ((Test.holes closure.params).and .plainCallees)
      (closure.lastArg? args) where
  filled callee arg pass called := by
    obtain ⟨name, param, named⟩ := Test.holes_onExpr (Bool.and_eq_true_iff.mp pass).1 called
    obtain ⟨node, given⟩ := Closure.lastArg?_isSome arity param
    exact ⟨name, node, named, given⟩
  quoted name node given := by
    have values := List.rel_reverse (quotesEach_zip closure.params args first)
    obtain ⟨serial, bound⟩ := QuotesEach.lookup values given
    refine ⟨serial, Expr.eval_name ?_ rfl depth⟩
    rw [find?_eq here, Closure.find?_callFrame_last, bound]
    rfl
  callees callee args' pass named := by
    have plain := (Bool.and_eq_true_iff.mp pass).2
    refine (Expr.fill_name? named).resolve_right ?_
    rintro ⟨name, rfl, _⟩
    cases plain

/-- Such a macro gives its template filled with its arguments. -/
theorem Closure.Quotes.eval (quotes : closure.Quotes template)
    (arity : closure.params.length = args.length) (name : String) (depth : Nat) (s : Store) :
    MacroCall.eval (depth + 2) ⟨name, closure, args⟩ s =
      some (some (.quotation (s.serials + args.length) (template.fill (closure.lastArg? args))),
        ⟨s.frames.push (closure.callFrame (quotedFrom s.serials args)),
          s.serials + args.length + 1⟩) := by
  refine Closure.eval_filled quotes.body ?_ name depth s
    (Closure.filling_lastArg arity depth s.serials (by simp))
  refine Expr.everywhere_imp ⟨?_, fun _ _ _ => rfl⟩ template quotes.holes quotes.callees
  intro e holes callees
  exact Bool.and_eq_true_iff.mpr ⟨e.onExpr_of_everywhere holes, e.onExpr_of_everywhere callees⟩

end

/-! ## Calls of macros -/

section
variable {s : Store} {frame : Nat}

/-- What has no macro calls in it is what it expands to. -/
theorem Store.Free.expands (opened : frame < s.frames.size) {e : Expr} (free : s.Free frame e) :
    s.Expands frame e := by
  refine .inl ⟨e, ⟨1, ?_⟩, free⟩
  intro depth le t kept
  obtain ⟨depth, rfl⟩ : ∃ rest, depth = rest + 1 := ⟨depth - 1, by omega⟩
  refine ⟨t, ?_, kept⟩
  exact Expr.rewriteM_eq_self (fun e pass => expandNode_eq_self opened pass depth kept) e free

/-- What calls no macro stays as it is once its parts are expanded. -/
theorem Store.Settles.ofNode (opened : frame < s.frames.size) {e : Expr}
    (seen : s.macroCall? frame e = none) (free : ∀ part ∈ e.parts, s.Free frame part) :
    s.Settles (fun depth => expandNode frame depth e) (s.Free frame) := by
  rw [macroCall?_eq_none_iff] at seen
  refine .inl ⟨e, ⟨1, ?_⟩, (Expr.everywhere_iff e).mpr ⟨seen, free⟩⟩
  intro depth le t kept
  obtain ⟨depth, rfl⟩ : ∃ rest, depth = rest + 1 := ⟨depth - 1, by omega⟩
  exact ⟨t, expandNode_eq_self opened seen depth kept, kept⟩

/-- A call goes on as the template of its macro does, once that is filled with the arguments. -/
theorem Store.Comes.call (opened : frame < s.frames.size) {e template : Expr} {call : MacroCall}
    (seen : s.macroCall? frame e = some call) (quotes : call.closure.Quotes template)
    (arity : call.closure.params.length = call.args.length) {out : Except MacroError Expr}
    (comes : s.Comes (fun depth => (template.fill (call.closure.lastArg? call.args)).rewriteM
      (expandNode frame depth)) out) :
    s.Comes (fun depth => expandNode frame depth e) out := by
  obtain ⟨least, always⟩ := comes
  refine ⟨least + 3, ?_⟩
  intro depth le t kept
  obtain ⟨depth, rfl⟩ : ∃ rest, depth = rest + 3 := ⟨depth - 3, by omega⟩
  have seen' : t.macroCall? frame e = some call := by rwa [macroCall?_of_retains kept opened]
  have evaluated := quotes.eval arity call.name depth t
  let called : Store := ⟨t.frames.push (call.closure.callFrame (quotedFrom t.serials call.args)),
    t.serials + call.args.length + 1⟩
  have opens : t.Retains called := retains_openFrame t _
  obtain ⟨u, run, kept⟩ := always (depth + 2) (by omega) called (IsTrans.trans _ _ _ kept opens)
  exact ⟨u, (expandNode_call seen' arity evaluated rfl).trans run, kept⟩

theorem Store.Settles.arity (opened : frame < s.frames.size) {e : Expr} {call : MacroCall}
    (seen : s.macroCall? frame e = some call)
    (arity : call.closure.params.length ≠ call.args.length) {Q : Expr → Prop} :
    s.Settles (fun depth => expandNode frame depth e) Q := by
  refine .inr ⟨_, ⟨1, ?_⟩, call.name, call.closure.params.length, call.args.length, rfl⟩
  intro depth le t kept
  obtain ⟨depth, rfl⟩ : ∃ rest, depth = rest + 1 := ⟨depth - 1, by omega⟩
  have seen' : t.macroCall? frame e = some call := by rwa [macroCall?_of_retains kept opened]
  have read : (get : Eval Store) t = some (t, t) := rfl
  refine ⟨t, (andThen_of_ok (lift_of_some read)).trans ?_, kept⟩
  rw [seen']
  dsimp only
  rw [if_neg arity]
  rfl

section
variable {rank : String → Nat}

/-- Calls of macros below a rank expand, if their arguments are without macro calls. -/
def Store.ExpandsBelow (s : Store) (frame : Nat) (rank : String → Nat) (bound : Nat) : Prop :=
  ∀ e : Expr, (∀ part ∈ e.parts, s.Free frame part) →
    (∀ call, s.macroCall? frame e = some call → rank call.name < bound) →
    s.Settles (fun depth => expandNode frame depth e) (s.Free frame)

/-- A template expands if what is called in it is below a rank, and calls below that rank expand.
The content of its holes is without macro calls, and does not come into it. -/
theorem Expr.expands_fill (opened : frame < s.frames.size) {bound : Nat}
    (below : s.ExpandsBelow frame rank bound) {content : String → Option Expr}
    (frees : ∀ name node, content name = some node → s.Free frame node) {template : Expr}
    (calls : ∀ callee args other, template.Has (.call callee args) →
      callee.ComesToName s frame other → (s.find? frame other).any Value.isMacro →
      rank other < bound)
    (e : Expr) (has : template.Has e) : s.Expands frame (e.fill content) := by
  induction e using Expr.partwise with
  | step e ih =>
    cases hole : e.hole?.bind content with
    | some node =>
      obtain ⟨name, _, given⟩ := Option.bind_eq_some_iff.mp hole
      rw [Expr.fill_of_hole hole]
      exact (frees name node given).expands opened
    | none =>
      refine Expr.expands_of_parts ?_ ?_
      · rw [Expr.parts_fill hole]
        intro part inside
        obtain ⟨inner, direct, rfl⟩ := List.mem_map.mp inside
        exact ih inner direct (has.part direct)
      · intro e' free called
        refine below e' free ?_
        intro call seen
        obtain ⟨rfl, serial, found⟩ := macroCall?_eq_some seen
        obtain ⟨_, _, filled, expandsTo⟩ := called _ _ rfl
        obtain ⟨callee, args, rfl, rfl⟩ := Expr.callee_fill hole filled
        exact calls callee args call.name has ⟨content, expandsTo⟩ (by rw [found]; rfl)

/-- Calls of macros expand: the template of a macro calls macros of lower ranks only. -/
theorem Store.Ranks.expandsBelow (ranks : s.Ranks frame rank (Expr.ComesToName s frame))
    (opened : frame < s.frames.size) (bound : Nat) : s.ExpandsBelow frame rank bound := by
  induction bound with
  | zero =>
    intro e free lower
    cases seen : s.macroCall? frame e with
    | none => exact .ofNode opened seen free
    | some call => exact absurd (lower call seen) (Nat.not_lt_zero _)
  | succ bound ih =>
    intro e free lower
    cases seen : s.macroCall? frame e with
    | none => exact .ofNode opened seen free
    | some call =>
      by_cases arity : call.closure.params.length = call.args.length
      · obtain ⟨rfl, serial, found⟩ := macroCall?_eq_some seen
        obtain ⟨template, quotes, calls⟩ := ranks call.name serial call.closure found
        have frees (name : String) (node : Expr)
            (given : call.closure.lastArg? call.args name = some node) : s.Free frame node :=
          free node (List.mem_cons_of_mem _ (Closure.lastArg?_mem given))
        have lower' := Nat.le_of_lt_succ (lower call seen)
        have expands := Expr.expands_fill opened ih frees
          (fun callee args other has named isMacro =>
            (calls callee args other has named isMacro).trans_le lower') template .here
        rcases expands with ⟨node, comes, free⟩ | ⟨e, comes, isArity⟩
        · exact .inl ⟨node, comes.call opened seen quotes arity, free⟩
        · exact .inr ⟨e, comes.call opened seen quotes arity, isArity⟩
      · exact .arity opened seen arity

/-- Every expression expands, whatever macros it calls. -/
theorem Store.Ranks.expands (ranks : s.Ranks frame rank (Expr.ComesToName s frame))
    (opened : frame < s.frames.size) (e : Expr) : s.Expands frame e := by
  induction e using Expr.partwise with
  | step e ih =>
    refine Expr.expands_of_parts ih ?_
    intro e' free _
    cases seen : s.macroCall? frame e' with
    | none => exact .ofNode opened seen free
    | some call =>
      refine ranks.expandsBelow opened (rank call.name + 1) e' free ?_
      intro call' seen'
      cases seen.symm.trans seen'
      exact Nat.lt_succ_self _

/-- Template macros that do not come back to themselves always expand. Let every macro that a frame
sees quote a template in which only its parameters are unquoted, none of them as a callee, and let
there be ranks such that a macro that a callee in a template comes to name, whatever the parameters
are filled with, is of a lower rank than the macro of the template. Then every program, however its
macro calls are nested, expands, or breaks off with an arity error, and every depth from some on
gives the same. -/
theorem expansion_terminates (opened : frame < s.frames.size)
    (ranks : s.Ranks frame rank (Expr.ComesToName s frame)) (program : Program) :
    ∃ result, (∀ e, result = .error e → e.IsArity) ∧
      ∃ least, ∀ depth, least ≤ depth →
        ∃ t, program.expand depth frame s = some (result, t) := by
  have each (st : Stmt) (_ : st ∈ program) : s.Expands frame st.value := ranks.expands opened _
  have settles := settles_block each
  rcases settles with ⟨result, ⟨least, always⟩, _⟩ | ⟨e, ⟨least, always⟩, arity⟩
  · refine ⟨.ok result, nofun, least, ?_⟩
    intro depth le
    obtain ⟨t, run, _⟩ := always depth le s (refl s)
    exact ⟨t, run⟩
  · refine ⟨.error e, ?_, least, ?_⟩
    · rintro _ ⟨⟩
      exact arity
    · intro depth le
      obtain ⟨t, run, _⟩ := always depth le s (refl s)
      exact ⟨t, run⟩

end

end

/-! ## Where callees are bare names -/

/-- What is called is a bare name of a lower rank. -/
def Test.callsBelow (rank : String → Nat) (bound : Nat) : Test :=
  .ofExprs fun
    | .call callee _ => callee.name?.any fun name => rank name < bound
    | _ => true

/-- A bare name names itself. -/
theorem Expr.ComesToName.eq {s : Store} {frame : Nat} {id name : String}
    (h : (Expr.name id).ComesToName s frame name) : id = name := by
  obtain ⟨content, depth, result, t, run, ended⟩ := h
  cases depth with
  | zero => cases run
  | succ depth =>
    have kept : (Expr.name id).rewriteM (expandNode frame (depth + 1)) s =
        some (.ok (.name id), s) := rfl
    cases kept.symm.trans run
    cases ended
    rfl

/-- In a template where everything that is called is a bare name, a callee comes to name that name
only. -/
theorem Expr.lower_of_callsBelow {s : Store} {frame bound : Nat} {rank : String → Nat}
    {template : Expr} (pass : template.everywhere (.callsBelow rank bound)) {callee : Expr}
    {args : List Expr} {other : String} (has : template.Has (.call callee args))
    (named : callee.ComesToName s frame other) : rank other < bound := by
  have lower := has.onExpr pass
  cases callee with
  | name id =>
    cases named.eq
    exact of_decide_eq_true lower
  | _ => cases lower

/-- The template `unquote(x) + unquote(x)`. -/
def twiceTemplate : Expr :=
  .binary (Expr.unquoted (.name "x")) .add (Expr.unquoted (.name "x"))

/-- The template `twice(twice(unquote(x)))`. -/
def fourTemplate : Expr :=
  .call (.name "twice") [.call (.name "twice") [Expr.unquoted (.name "x")]]

/-- Two macros: `twice` and `four`, which quote these templates. -/
def fourStore : Store :=
  ⟨#[⟨[("four", .routine .transformer 1 ⟨["x"], [.expr fourTemplate.quoted], 0⟩),
      ("twice", .routine .transformer 0 ⟨["x"], [.expr twiceTemplate.quoted], 0⟩)], none⟩], 2⟩

/-- The macro `four` calls `twice`, which calls no macro. -/
def fourRank : String → Nat
  | "four" => 2
  | "twice" => 1
  | _ => 0

/-- The program `four(four(1))`. -/
def fourFour : Program := [.expr (.call (.name "four") [.call (.name "four") [.int 1]])]

theorem expansion_terminates_four :
    0 < fourStore.frames.size ∧ fourStore.Ranks 0 fourRank (Expr.ComesToName fourStore 0) ∧
    ∃ result, (∀ e, result = .error e → e.IsArity) ∧
      ∃ least, ∀ depth, least ≤ depth →
        ∃ t, fourFour.expand depth 0 fourStore = some (result, t) := by
  have ranks : fourStore.Ranks 0 fourRank (Expr.ComesToName fourStore 0) := by
    intro name serial closure found
    obtain ⟨i, f, here, inside⟩ := find?_mem found
    match i with
    | 0 =>
      cases here
      rcases inside with _ | ⟨_, _ | ⟨_, ⟨⟩⟩⟩
      · refine ⟨fourTemplate, ⟨rfl, by decide, by decide⟩, ?_⟩
        intro callee args other has named _
        have pass : fourTemplate.everywhere (.callsBelow fourRank 2) := by decide
        exact Expr.lower_of_callsBelow pass has named
      · refine ⟨twiceTemplate, ⟨rfl, by decide, by decide⟩, ?_⟩
        intro callee args other has named _
        have pass : twiceTemplate.everywhere (.callsBelow fourRank 1) := by decide
        exact Expr.lower_of_callsBelow pass has named
    | i + 1 => cases here
  exact ⟨by decide, ranks, expansion_terminates (by decide) ranks fourFour⟩

/-! ## Where they are not -/

/-- A call of a template macro gives nothing, or goes on as the filled template. -/
theorem Closure.Quotes.none_or_fill {s t : Store} {frame : Nat} {e template : Expr}
    {call : MacroCall} (quotes : call.closure.Quotes template)
    (arity : call.closure.params.length = call.args.length) (opened : frame < s.frames.size)
    (seen : s.macroCall? frame e = some call) (kept : s.Retains t) (depth : Nat) :
    expandNode frame (depth + 1) e t = none ∨ ∃ u, s.Retains u ∧
      expandNode frame (depth + 1) e t =
        (template.fill (call.closure.lastArg? call.args)).rewriteM (expandNode frame depth) u := by
  have seen' : t.macroCall? frame e = some call := by rwa [macroCall?_of_retains kept opened]
  have evaluated := quotes.eval arity call.name depth t
  cases early : call.eval depth t with
  | none =>
    have read : (get : Eval Store) t = some (t, t) := rfl
    refine .inl ((andThen_of_ok (lift_of_some read)).trans ?_)
    rw [seen']
    dsimp only
    rw [if_pos arity]
    refine andThen_of_none ?_
    rw [lift_apply, early]
    rfl
  | some result =>
    have deeper := call.eval_deepens (Nat.le_add_right depth 2) t result early
    cases evaluated.symm.trans deeper
    refine .inr ⟨_, ?_, expandNode_call seen' arity early rfl⟩
    exact IsTrans.trans s t _ kept (retains_openFrame t _)

/-- What is called by its bare name is of a lower rank. -/
def Test.namesBelow (rank : String → Nat) (bound : Nat) : Test :=
  .ofExprs fun
    | .call callee _ => callee.name?.all fun name => rank name < bound
    | _ => true

/-- The template `pick()()`. -/
def loopTemplate : Expr := .call (.call (.name "pick") []) []

/-- Two macros: `pick` gives the name `loop`, and `loop` gives `pick()()`. -/
def loopingStore : Store :=
  ⟨#[⟨[("loop", .routine .transformer 1 ⟨[], [.expr loopTemplate.quoted], 0⟩),
      ("pick", .routine .transformer 0 ⟨[], [.expr (Expr.name "loop").quoted], 0⟩)], none⟩], 2⟩

/-- The callee of `pick()()` comes to name the macro `loop`, whose template it stands in. -/
theorem loopingStore_never (depth : Nat) {t : Store} (kept : loopingStore.Retains t) :
    expandNode 0 depth (.call (.name "loop") []) t = none := by
  induction depth generalizing t with
  | zero => rfl
  | succ depth ih =>
    have loop : loopingStore.macroCall? 0 (.call (.name "loop") []) =
        some ⟨"loop", ⟨[], [.expr loopTemplate.quoted], 0⟩, []⟩ := by cbv
    have pick : loopingStore.macroCall? 0 (.call (.name "pick") []) =
        some ⟨"pick", ⟨[], [.expr (Expr.name "loop").quoted], 0⟩, []⟩ := by cbv
    have quotesLoop : Closure.Quotes ⟨[], [.expr loopTemplate.quoted], 0⟩ loopTemplate :=
      ⟨rfl, by decide, by decide⟩
    have quotesPick : Closure.Quotes ⟨[], [.expr (Expr.name "loop").quoted], 0⟩ (.name "loop") :=
      ⟨rfl, by decide, by decide⟩
    rcases quotesLoop.none_or_fill rfl (by decide) loop kept depth with none | ⟨u, kept, goes⟩
    · exact none
    rw [goes]
    -- The callee `pick()` gives nothing or the name `loop`; then `loop()` is next, one level in.
    have callee : (Expr.call (.name "pick") []).rewriteM (expandNode 0 depth) u = none ∨
        ∃ v, loopingStore.Retains v ∧
          (Expr.call (.name "pick") []).rewriteM (expandNode 0 depth) u =
            some (.ok (.name "loop"), v) := by
      cases depth with
      | zero => exact .inl rfl
      | succ depth =>
        rcases quotesPick.none_or_fill rfl (by decide) pick kept depth with none | ⟨v, kept, goes⟩
        · exact .inl none
        · cases depth with
          | zero => exact .inl goes
          | succ depth => exact .inr ⟨v, kept, goes⟩
    rcases callee with none | ⟨v, kept, given⟩
    · exact andThen_of_none none
    · exact (andThen_of_ok given).trans (ih kept)

/-- In a template where everything that is called ranks below, it does not name what ranks
higher. -/
theorem Expr.lower_of_namesBelow {bound : Nat} {rank : String → Nat} {template : Expr}
    (pass : template.everywhere (.namesBelow rank bound)) {callee : Expr} {args : List Expr}
    {other : String} (has : template.Has (.call callee args)) (named : callee.Names other) :
    rank other < bound := by
  have lower := has.onExpr pass
  cases named
  exact of_decide_eq_true lower

/-- The macro `loop` ranks above `pick`, which is the only name that is called in its template. -/
def loopRank : String → Nat
  | "loop" => 1
  | _ => 0

/-- It is not enough that what a callee in a template is the name of ranks lower. -/
theorem expansion_terminates_looping :
    ¬ ∀ (s : Store) (frame : Nat) (rank : String → Nat), frame < s.frames.size →
      s.Ranks frame rank Expr.Names → ∀ program : Program,
        ∃ depth result t, program.expand depth frame s = some (result, t) := by
  intro claim
  have ranks : loopingStore.Ranks 0 loopRank Expr.Names := by
    intro name serial closure found
    obtain ⟨i, f, here, inside⟩ := find?_mem found
    match i with
    | 0 =>
      cases here
      rcases inside with _ | ⟨_, _ | ⟨_, ⟨⟩⟩⟩
      · refine ⟨loopTemplate, ⟨rfl, by decide, by decide⟩, ?_⟩
        intro callee args other has named _
        have pass : loopTemplate.everywhere (.namesBelow loopRank 1) := by decide
        exact Expr.lower_of_namesBelow pass has named
      · refine ⟨.name "loop", ⟨rfl, by decide, by decide⟩, ?_⟩
        intro callee args other has named _
        have pass : (Expr.name "loop").everywhere (.namesBelow loopRank 0) := by decide
        exact Expr.lower_of_namesBelow pass has named
    | i + 1 => cases here
  obtain ⟨depth, result, t, run⟩ :=
    claim loopingStore 0 loopRank (by decide) ranks [.expr (.call (.name "loop") [])]
  have never : (Expr.call (.name "loop") []).rewriteM (expandNode 0 depth) loopingStore = none := by
    cases depth with
    | zero => rfl
    | succ depth => exact loopingStore_never (depth + 1) (refl loopingStore)
  have nothing : Program.expand depth 0 [.expr (.call (.name "loop") [])] loopingStore = none :=
    andThen_of_none (andThen_of_none never)
  cases nothing.symm.trans run

end Quasiquote
