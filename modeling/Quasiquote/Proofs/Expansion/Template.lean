import Quasiquote.Proofs.Likeness.Expansion
import Quasiquote.Proofs.Quotation.Filling

/-!
# Template macros

* `Closure.IsTemplate`: a macro quotes a template in which only its parameters are unquoted.
* `Closure.IsTemplate.eval`: such a macro gives the template filled with its arguments, which it
  does not evaluate.
* `template_substitutes`: a call of such a macro expands to what the template expands to once it is
  filled with the expanded arguments, wherever the call is.
-/

namespace Quasiquote

/-- What a macro's arguments are to its parameters. -/
def Closure.arg? (closure : Closure) (args : List Expr) (name : String) : Option Expr :=
  (closure.params.zip args).lookup name

/-- A macro with distinct parameters that only quotes a template, and unquotes nothing in it but its
parameters. -/
structure Closure.IsTemplate (closure : Closure) (template : Expr) : Prop where
  distinct : closure.params.Nodup
  body : closure.body = [.expr template.quoted]
  holes : template.everywhere (.holes closure.params)

def quotedFrom : Nat → List Expr → List Value
  | _, [] => []
  | serial, x :: rest => .quotation serial x :: quotedFrom (serial + 1) rest

open Eval Store

theorem quoteArgs_apply (args : List Expr) (s : Store) :
    quoteArgs args s = some (quotedFrom s.serials args, ⟨s.frames, s.serials + args.length⟩) := by
  induction args generalizing s with
  | nil => rfl
  | cons x rest ih =>
    change (quoteArgs rest >>= fun values => pure (.quotation s.serials x :: values))
      ⟨s.frames, s.serials + 1⟩ = _
    rw [Eval.bind_apply, ih]
    simp only [List.length_cons, quotedFrom, Nat.add_assoc, Nat.add_comm 1]
    rfl

/-- Names are bound to quotations as they are to the expressions quoted. -/
abbrev QuotesEach : List (String × Value) → List (String × Expr) → Prop :=
  List.Forall₂ fun b a => b.1 = a.1 ∧ ∃ serial, b.2 = .quotation serial a.2

theorem quotesEach_zip (names : List String) (args : List Expr) (first : Nat) :
    QuotesEach (names.zip (quotedFrom first args)) (names.zip args) := by
  induction names generalizing args first with
  | nil => exact .nil
  | cons name names ih =>
    cases args with
    | nil => exact .nil
    | cons x args => exact .cons ⟨rfl, first, rfl⟩ (ih args (first + 1))

theorem QuotesEach.lookup {values : List (String × Value)} {nodes : List (String × Expr)}
    (h : QuotesEach values nodes) {name : String} {node : Expr}
    (found : nodes.lookup name = some node) :
    ∃ serial, values.lookup name = some (.quotation serial node) := by
  induction h with
  | nil => cases found
  | @cons b a _ _ same _ ih =>
    obtain ⟨key, v⟩ := b
    obtain ⟨other, x⟩ := a
    obtain ⟨names, serial, quoted⟩ := same
    cases names
    cases quoted
    rw [List.lookup_cons] at found ⊢
    cases here : name == key with
    | true =>
      rw [here] at found
      cases found
      exact ⟨serial, rfl⟩
    | false =>
      rw [here] at found
      exact ih found

theorem lookup_of_mem_keys {α : Type} {bindings : List (String × α)} {name : String}
    (h : name ∈ bindings.map Prod.fst) : ∃ a, bindings.lookup name = some a := by
  obtain ⟨⟨_, a⟩, inside, rfl⟩ := List.mem_map.mp h
  refine Option.ne_none_iff_exists'.mp fun absent => ?_
  have differs := List.lookup_eq_none_iff.mp absent _ inside
  exact bne_iff_ne.mp differs rfl

theorem Closure.arg?_isSome {closure : Closure} {args : List Expr}
    (arity : closure.params.length = args.length) {name : String} (param : name ∈ closure.params) :
    ∃ node, closure.arg? args name = some node := by
  rw [← List.map_fst_zip arity.le] at param
  exact lookup_of_mem_keys param

theorem Closure.arg?_mem {closure : Closure} {args : List Expr} {name : String} {node : Expr}
    (h : closure.arg? args name = some node) : node ∈ args := by
  obtain ⟨before, after, eq, _⟩ := List.lookup_eq_some_iff.mp h
  have inside : (name, node) ∈ closure.params.zip args := eq ▸ by simp
  exact (List.of_mem_zip inside).2

/-- A macro that only quotes a template gives the template with its holes filled. All that it does
to the store is to quote the arguments and the template, and to open the frame of the call. -/
theorem Closure.eval_filled {closure : Closure} {template : Expr} {test : Test} {args : List Expr}
    {content : String → Option Expr} (body : closure.body = [.expr template.quoted])
    (pass : template.everywhere test) (name : String) (depth : Nat) (s : Store)
    (filling : Filling (Expr.eval (depth + 1)) s.frames.size
      ⟨s.frames.push (closure.callFrame (quotedFrom s.serials args)), s.serials + args.length⟩ test
      content) :
    MacroCall.eval (depth + 2) ⟨name, closure, args⟩ s =
      some (some (.quotation (s.serials + args.length) (template.fill content)),
        ⟨s.frames.push (closure.callFrame (quotedFrom s.serials args)),
          s.serials + args.length + 1⟩) := by
  let t : Store := ⟨s.frames.push (closure.callFrame (quotedFrom s.serials args)),
    s.serials + args.length⟩
  let frame := s.frames.size
  let filled := template.fill content
  have spliced : template.rewriteM (splice (Expr.eval (depth + 1)) frame) t =
      some (.ok filled, t) := template.splice_eq_fill filling pass
  have quoted : Expr.eval (depth + 2) frame template.quoted t =
      some (.ok (.quotation t.serials filled), ⟨t.frames, t.serials + 1⟩) :=
    (andThen_of_ok spliced).trans rfl
  have stmt : (Stmt.expr template.quoted).eval (depth + 2) frame t =
      some (.ok (some (.quotation t.serials filled)), ⟨t.frames, t.serials + 1⟩) :=
    (andThen_of_ok quoted).trans rfl
  have body : (Block.eval (depth + 2) frame closure.body).run t =
      some (.ok (some (.quotation t.serials filled)), ⟨t.frames, t.serials + 1⟩) := by
    rw [body]
    exact (andThen_of_ok stmt).trans rfl
  rw [MacroCall.eval, Eval.bind_apply, quoteArgs_apply]
  change (Block.eval (depth + 2) frame closure.body).settled? t = _
  rw [Signalling.settled?, Eval.bind_apply, body]
  rfl

section
variable {closure : Closure} {template : Expr} (isTemplate : closure.IsTemplate template)
variable {args : List Expr} (arity : closure.params.length = args.length)
variable (bare : .name "unquote" ∉ args)
include isTemplate arity bare

theorem Closure.IsTemplate.filling (depth first : Nat) {s : Store} {frame : Nat}
    (here : s.frames[frame]? = some (closure.callFrame (quotedFrom first args))) :
    Filling (Expr.eval (depth + 1)) frame s (.holes closure.params) (closure.arg? args) where
  filled _ _ pass called := by
    obtain ⟨name, param, named⟩ := Test.holes_onExpr pass called
    obtain ⟨node, given⟩ := closure.arg?_isSome arity param
    exact ⟨name, node, named, given⟩
  quoted name node given := by
    obtain ⟨serial, bound⟩ := (quotesEach_zip _ _ first).lookup given
    refine ⟨serial, Expr.eval_name ?_ rfl depth⟩
    rw [find?_eq here, Closure.find?_callFrame isTemplate.distinct, bound]
    rfl
  callees _ _ _ named := by
    refine (Expr.fill_name? named).resolve_right ?_
    rintro ⟨name, _, given⟩
    exact bare (Closure.arg?_mem given)

/-- A template macro gives its template filled with its arguments. All that it does to the store is
to quote the arguments and the template, and to open the frame of the call; it evaluates none of
them. -/
theorem Closure.IsTemplate.eval (name : String) (depth : Nat) (s : Store) :
    MacroCall.eval (depth + 2) ⟨name, closure, args⟩ s =
      some (some (.quotation (s.serials + args.length) (template.fill (closure.arg? args))),
        ⟨s.frames.push (closure.callFrame (quotedFrom s.serials args)),
          s.serials + args.length + 1⟩) := by
  refine Closure.eval_filled isTemplate.body isTemplate.holes name depth s ?_
  exact isTemplate.filling arity bare depth s.serials (by simp)

end

/-! ## A call of a template macro -/

/-- A macro call whose body gives syntax goes on as that syntax does, one level further in. -/
theorem expandNode_call {s t : Store} {frame depth : Nat} {e node : Expr} {call : MacroCall}
    {given : Option Value} (seen : s.macroCall? frame e = some call)
    (arity : call.closure.params.length = call.args.length)
    (run : call.eval depth s = some (given, t)) (syntaxOf : call.syntaxOf given = .ok node) :
    expandNode frame (depth + 1) e s = node.rewriteM (expandNode frame depth) t := by
  have read : (get : Eval Store) s = some (s, s) := rfl
  rw [expandNode]
  refine (andThen_of_ok (lift_of_some read)).trans ?_
  rw [seen]
  dsimp only
  rw [if_pos arity]
  refine (andThen_of_ok (lift_of_some run)).trans ?_
  rw [syntaxOf]
  rfl

section
variable {s : Store} {frame : Nat} (closed : s.Closed) (opened : frame < s.frames.size)
include closed opened

/-- Arguments that expand one by one expand in a row, from every store that the same store grows to.
-/
theorem rewriteArgsM_expands {args results : List Expr}
    (expands : List.Forall₂ (fun a b : Expr => a.ExpandsTo s frame (.ok b)) args results) :
    ∃ least, ∀ depth, least ≤ depth → ∀ t, s.Grows t →
      ∃ u, rewriteArgsM (expandNode frame depth) args t = some (.ok results, u) ∧ s.Grows u := by
  induction expands with
  | nil => exact ⟨0, fun _ _ t st => ⟨t, rfl, st⟩⟩
  | @cons a b args results first _ ih =>
    obtain ⟨least, always⟩ := first.grown closed opened
    obtain ⟨least', always'⟩ := ih
    refine ⟨max least least', fun depth le t st => ?_⟩
    obtain ⟨result, u, run, su, ended⟩ := always depth ((le_max_left _ _).trans le) t st
    obtain ⟨v, run', sv⟩ := always' depth ((le_max_right _ _).trans le) u su
    cases result with
    | error e => cases ended
    | ok node =>
      cases ended
      exact ⟨v, (andThen_of_ok run).trans ((andThen_of_ok run').trans rfl), sv⟩

end

section
variable {s : Store} (closed : s.Closed) {frame : Nat} {name : String} {serial : Nat}
variable {closure : Closure}
variable (bound : s.find? frame name = some (.routine .transformer serial closure))
variable {template : Expr} (isTemplate : closure.IsTemplate template)
variable {args results : List Expr} (arity : closure.params.length = args.length)
variable (expands : List.Forall₂ (fun a b : Expr => a.ExpandsTo s frame (.ok b)) args results)
variable (bare : .name "unquote" ∉ results)
include closed bound isTemplate arity expands bare

/-- With enough depth, a call of a template macro goes on as the template filled with the expanded
arguments does. -/
theorem call_expands : ∃ least, ∀ depth, least ≤ depth → ∀ t, s.Grows t → ∃ u, s.Grows u ∧
    (Expr.call (.name name) args).rewriteM (expandNode frame (depth + 1)) t =
      (template.fill (closure.arg? results)).rewriteM (expandNode frame depth) u := by
  have opened := opened_of_find? bound
  have arity' : closure.params.length = results.length := arity.trans expands.length_eq
  obtain ⟨least, always⟩ := rewriteArgsM_expands closed opened expands
  refine ⟨max least 2, fun depth le t st => ?_⟩
  obtain ⟨u, expanded, su⟩ := always (depth + 1) (by omega) t st
  obtain ⟨depth, rfl⟩ : ∃ rest, depth = rest + 2 := ⟨depth - 2, by omega⟩
  have seen : u.macroCall? frame (.call (.name name) results) = some ⟨name, closure, results⟩ := by
    simp only [macroCall?, find?_of_retains su.retains opened, bound]
  have callee : (Expr.name name).rewriteM (expandNode frame (depth + 3)) t =
      some (.ok (.name name), t) := rfl
  have node := expandNode_call seen arity' (isTemplate.eval arity' bare name depth u) rfl
  refine ⟨_, ⟨?_, ?_⟩, (andThen_of_ok callee).trans ((andThen_of_ok expanded).trans node)⟩
  · exact IsTrans.trans _ _ _ su.retains (retains_openFrame u _)
  · exact su.serials.trans (by simp only [Nat.add_assoc, Nat.le_add_right])

/-- A call of a template macro and the filled template mirror each other, each with some more depth
than the other had. -/
theorem template_mirrors : ∃ more, ∀ depth,
    Mirrors s.BothGrow () SameEnds
      ((Expr.call (.name name) args).rewriteM (expandNode frame depth)).run
      ((template.fill (closure.arg? results)).rewriteM (expandNode frame (depth + more))).run ∧
    Mirrors s.BothGrow () SameEnds
      ((template.fill (closure.arg? results)).rewriteM (expandNode frame depth)).run
      ((Expr.call (.name name) args).rewriteM (expandNode frame (depth + (more + 1)))).run := by
  have opened := opened_of_find? bound
  obtain ⟨least, always⟩ := call_expands closed bound isTemplate arity expands bare
  refine ⟨least, fun depth => ⟨?_, ?_⟩⟩
  · rintro t u ⟨st, su⟩ a t' run
    obtain ⟨v, sv, same⟩ := always (depth + least) (Nat.le_add_left _ _) t st
    obtain ⟨b, t'', _, run', _, ⟨st', _⟩, ended⟩ := Expr.expands_mirrors closed opened
      (show depth ≤ depth + least + 1 by omega) _ t t ⟨st, st⟩ a t' run
    obtain ⟨c, u', _, run'', _, ⟨_, su'⟩, ended'⟩ := Expr.expands_mirrors closed opened
      (le_refl (depth + least)) _ v u ⟨sv, su⟩ b t'' (same.symm.trans run')
    exact ⟨c, u', (), run'', le_rfl, ⟨st', su'⟩, SameEnds.trans ended ended'⟩
  · rintro t u ⟨st, su⟩ a t' run
    obtain ⟨v, sv, same⟩ := always (depth + least) (Nat.le_add_left _ _) u su
    obtain ⟨b, u', _, run', _, grown, ended⟩ := Expr.expands_mirrors closed opened
      (Nat.le_add_right depth least) _ t v ⟨st, sv⟩ a t' run
    exact ⟨b, u', (), same.trans run', le_rfl, grown, ended⟩

/-- Template macros substitute. The macro's body gives the template filled with the expanded
arguments, whatever the store and the depth, and evaluates none of them. A call of the macro,
wherever it is and however often, expands to what the filled template expands to in its place: to
the same syntax, to an error of the same wording, or to nothing. -/
theorem template_substitutes :
    (∀ depth t, MacroCall.eval (depth + 2) ⟨name, closure, results⟩ t =
      some (some (.quotation (t.serials + results.length) (template.fill (closure.arg? results))),
        ⟨t.frames.push (closure.callFrame (quotedFrom t.serials results)),
          t.serials + results.length + 1⟩)) ∧
    ∀ e e', Expr.Replaced (.call (.name name) args) (template.fill (closure.arg? results)) e e' →
      ∀ out, e.ExpandsTo s frame out ↔ e'.ExpandsTo s frame out := by
  have opened := opened_of_find? bound
  have arity' : closure.params.length = results.length := arity.trans expands.length_eq
  obtain ⟨more, mirrors⟩ := template_mirrors closed bound isTemplate arity expands bare
  refine ⟨fun depth t => isTemplate.eval arity' bare name depth t, fun e e' replaced out => ?_⟩
  constructor
  · refine replaced.expandsTo closed opened more ?_
    rintro _ _ ⟨rfl, rfl⟩ depth
    exact (mirrors depth).1
  · refine replaced.flip.expandsTo closed opened (more + 1) ?_
    rintro _ _ ⟨rfl, rfl⟩ depth
    exact (mirrors depth).2

end

/-- The template `unquote(f)(unquote(x)) + unquote(x)`. -/
def bothTemplate : Expr :=
  .binary (.call (Expr.unquoted (.name "f")) [Expr.unquoted (.name "x")]) .add
    (Expr.unquoted (.name "x"))

/-- The macro `both`, which quotes `bothTemplate`. -/
def bothClosure : Closure := ⟨["f", "x"], [.expr bothTemplate.quoted], 0⟩

/-- Two macros: `both`, and `one`, which quotes the literal one. -/
def bothStore : Store :=
  ⟨#[⟨[("both", .routine .transformer 1 bothClosure),
      ("one", .routine .transformer 0 ⟨[], [.expr (Expr.int 1).quoted], 0⟩)], none⟩], 2⟩

theorem bothStore_closed : bothStore.Closed where
  enclosing i f outer here around := by
    match i with
    | 0 => cases here; cases around
    | i + 1 => cases here
  bindings i f name v here inside := by
    match i with
    | 0 =>
      cases here
      rcases inside with _ | ⟨_, _ | ⟨_, ⟨⟩⟩⟩ <;> exact ⟨by decide, by decide⟩
    | i + 1 => cases here

/-- The call `both(g, one())`, in the body of a function, expands as `g(1) + 1` does there. -/
theorem template_substitutes_both :
    Expr.ExpandsTo bothStore 0
      (.routine .function [] [.expr (.call (.name "both") [.name "g", .call (.name "one") []])])
      (.ok (.routine .function []
        [.expr (.binary (.call (.name "g") [.int 1]) .add (.int 1))])) := by
  have isTemplate : bothClosure.IsTemplate bothTemplate := ⟨by decide, rfl, by decide⟩
  have bound : bothStore.find? 0 "both" = some (.routine .transformer 1 bothClosure) := by cbv
  have expands : List.Forall₂ (fun a b : Expr => a.ExpandsTo bothStore 0 (.ok b))
      [.name "g", .call (.name "one") []] [.name "g", .int 1] :=
    .cons ⟨1, .ok (.name "g"), bothStore, by cbv, rfl⟩
      (.cons ⟨4, .ok (.int 1), ⟨bothStore.frames.push ⟨[], some 0⟩, 3⟩, by cbv, rfl⟩ .nil)
  obtain ⟨_, substitutes⟩ :=
    template_substitutes bothStore_closed bound isTemplate rfl expands (by simp)
  refine (substitutes _ _ (.routine .function .nil
    (.cons (.expr (.spot ⟨rfl, rfl⟩)) .nil)) _).mpr ?_
  exact ⟨1, .ok _, bothStore, by cbv, rfl⟩

end Quasiquote
