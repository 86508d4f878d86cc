import Quasiquote.Proofs.Quotation.Unquoting

/-!
# Filling a template

* `Expr.hole?`: a call `unquote(p)` is a hole for the name `p`. `Test.holes`: the test that only
  certain names are unquoted.
* `Expr.fill`: an expression with its holes filled, and everything else as it stands
  (`Expr.fill_of_hole`, `Expr.parts_fill`).
* `Expr.splice_eq_fill`: splicing fills the holes of a template with what their names quote.
-/

namespace Quasiquote

/-- The name that an expression is a hole for, if it unquotes a bare name. -/
def Expr.hole? : Expr → Option String
  | .call callee [arg] => if callee.name? = some "unquote" then arg.name? else none
  | _ => none

/-- Every call of `unquote` with one argument is a hole for one of these names. -/
def Test.holes (names : List String) : Test :=
  .ofExprs fun
    | .call callee [arg] =>
      callee.name? != some "unquote" || arg.name?.any fun name => names.contains name
    | _ => true

/-- What is unquoted in a template is one of its names. -/
theorem Test.holes_onExpr {names : List String} {callee arg : Expr}
    (pass : (Test.holes names).onExpr (.call callee [arg]))
    (called : callee.name? = some "unquote") :
    ∃ name ∈ names, arg = .name name := by
  simp only [Test.holes, Test.ofExprs, called, bne_self_eq_false, Bool.false_or,
    Option.any_eq_true, List.contains_iff_mem] at pass
  obtain ⟨name, named, inside⟩ := pass
  cases arg with
  | name id =>
    obtain rfl := Option.some.inj named
    exact ⟨_, inside, rfl⟩
  | _ => cases named

section
variable (content : String → Option Expr)

mutual

/-- An expression with its holes filled. What fills a hole is not looked into. -/
def Expr.fill : Expr → Expr
  | .name id => .name id
  | .int n => .int n
  | .bool b => .bool b
  | .unary op operand => .unary op operand.fill
  | .binary left op right => .binary left.fill op right.fill
  | .cond test consequence alternative =>
    .cond test.fill (fillBlock consequence) (fillAlternative alternative)
  | .routine role params body => .routine role params (fillBlock body)
  | .call callee args =>
    ((Expr.call callee args).hole?.bind content).getD (.call callee.fill (fillArgs args))

def Stmt.fill : Stmt → Stmt
  | .bind name value => .bind name value.fill
  | .ret value => .ret value.fill
  | .expr value => .expr value.fill

def fillBlock : List Stmt → List Stmt
  | [] => []
  | s :: rest => s.fill :: fillBlock rest

def fillAlternative : Option (List Stmt) → Option (List Stmt)
  | none => none
  | some block => some (fillBlock block)

def fillArgs : List Expr → List Expr
  | [] => []
  | x :: rest => x.fill :: fillArgs rest

end

end

section
variable {content : String → Option Expr}

theorem fillArgs_eq (args : List Expr) : fillArgs content args = args.map (Expr.fill content) := by
  induction args with
  | nil => rfl
  | cons x rest ih => rw [fillArgs, ih, List.map_cons]

theorem fillBlock_eq (block : Block) :
    fillBlock content block =
      withValues block ((block.map Stmt.value).map (Expr.fill content)) := by
  induction block with
  | nil => rfl
  | cons st rest ih =>
    have first : st.fill content = st.withValue (st.value.fill content) := by cases st <;> rfl
    rw [fillBlock, ih, first]
    rfl

/-- What is no hole is filled part by part. -/
theorem Expr.fill_eq_withParts {e : Expr} (solid : e.hole?.bind content = none) :
    e.fill content = e.withParts (e.parts.map (Expr.fill content)) := by
  cases e with
  | name | int | bool | unary | binary => rfl
  | cond test consequence alternative =>
    cases alternative <;>
      simp [Expr.fill, fillAlternative, Expr.parts, Expr.withParts, fillBlock_eq, withValues_append]
  | routine role params body =>
    rw [Expr.fill, fillBlock_eq]
    rfl
  | call callee args =>
    rw [Expr.fill, solid, Option.getD_none, fillArgs_eq]
    rfl

theorem Expr.parts_fill {e : Expr} (solid : e.hole?.bind content = none) :
    (e.fill content).parts = e.parts.map (Expr.fill content) := by
  rw [Expr.fill_eq_withParts solid, Expr.parts_withParts (List.length_map _)]

theorem Expr.fill_of_hole {e node : Expr} (hole : e.hole?.bind content = some node) :
    e.fill content = node := by
  cases e with
  | call callee args => rw [Expr.fill, hole, Option.getD_some]
  | _ => cases hole

/-- What becomes a call when it is filled was one. -/
theorem Expr.callee_fill {e callee' : Expr} {args' : List Expr}
    (solid : e.hole?.bind content = none) (filled : e.fill content = .call callee' args') :
    ∃ callee args, e = .call callee args ∧ callee' = callee.fill content := by
  cases e with
  | call callee args =>
    rw [Expr.fill, solid, Option.getD_none] at filled
    cases filled
    exact ⟨callee, args, rfl, rfl⟩
  | _ => cases filled

end

/-- What the holes of a template are filled with, if a test passes everywhere in it: what is
unquoted is the name of some content, and gives it as a quotation. No content makes a call of
`unquote` of another call. -/
structure Filling (eval : Evaluator) (frame : Nat) (s : Store) (test : Test)
    (content : String → Option Expr) : Prop where
  filled : ∀ callee arg, test.onExpr (.call callee [arg]) → callee.name? = some "unquote" →
    ∃ name node, arg = .name name ∧ content name = some node
  quoted : ∀ name node, content name = some node → ∃ serial,
    eval frame (.name name) s = some (.ok (.quotation serial node), s)
  callees : ∀ callee args, test.onExpr (.call callee args) →
    (callee.fill content).name? = some "unquote" → callee.name? = some "unquote"

open Eval

theorem Expr.hole?_eq_some {e : Expr} {name : String} (h : e.hole? = some name) :
    e = (Expr.name name).unquoted := by
  unfold hole? at h
  split at h
  · next callee arg =>
    split at h
    · next called =>
      cases callee <;> cases called
      cases arg <;> cases h
      rfl
    · cases h
  · cases h

section
variable {eval : Evaluator} {frame : Nat} {s : Store} {test : Test}
variable {content : String → Option Expr}

/-- A filled expression is a name if it was that name before, or if the name fills it. -/
theorem Expr.fill_name? {e : Expr} {id : String} (h : (e.fill content).name? = some id) :
    e.name? = some id ∨ ∃ name, e = (Expr.name name).unquoted ∧ content name = some (.name id) := by
  cases e with
  | name other => exact .inl h
  | call callee args =>
    rw [Expr.fill] at h
    cases inside : (Expr.call callee args).hole?.bind content with
    | none => rw [inside] at h; cases h
    | some node =>
      rw [inside, Option.getD_some] at h
      obtain ⟨name, hole, given⟩ := Option.bind_eq_some_iff.mp inside
      cases node with
      | name other =>
        obtain rfl := Option.some.inj h
        exact .inr ⟨name, Expr.hole?_eq_some hole, given⟩
      | _ => cases h
  | _ => cases h

/-- Outside of the holes nothing is spliced, even once the parts are filled. -/
theorem splice_filled (filling : Filling eval frame s test content) {e : Expr}
    (pass : test.onExpr e) (noHole : e.hole? = none) :
    splice eval frame (e.fill content) s = some (.ok (e.fill content), s) := by
  refine splice_eq_self ?_
  cases e with
  | call callee args =>
    rw [Expr.fill, noHole, Option.bind_none, Option.getD_none]
    match args with
    | [] | _ :: _ :: _ => rfl
    | [arg] =>
      simp only [Test.noUnquote, Test.ofExprs, fillArgs, bne_iff_ne, ne_eq]
      intro called
      have called := filling.callees callee [arg] pass called
      obtain ⟨name, _, rfl, _⟩ := filling.filled callee arg pass called
      simp only [Expr.hole?, called, ↓reduceIte] at noHole
      cases noHole
  | _ => rfl

/-- A hole is spliced by what its name quotes. -/
theorem splice_hole (filling : Filling eval frame s test content) {e : Expr} {name : String}
    (pass : test.onExpr e) (hole : e.hole? = some name) :
    e.rewriteM (splice eval frame) s = some (.ok (e.fill content), s) := by
  cases Expr.hole?_eq_some hole
  obtain ⟨_, node, named, given⟩ := filling.filled _ _ pass rfl
  cases named
  obtain ⟨serial, run⟩ := filling.quoted name node given
  have settled : (eval frame (.name name)).settled s = some (.quotation serial node, s) := by
    have outcome : (eval frame (.name name)).run s = some (.ok (.quotation serial node), s) := run
    rw [Signalling.settled, Eval.bind_apply, outcome]
    rfl
  rw [Expr.fill_of_hole (by rw [hole, Option.bind_some, given])]
  exact rewriteM_unquoted rfl settled rfl

theorem Expr.splice_eq_fill (filling : Filling eval frame s test content) (e : Expr)
    (pass : e.everywhere test) :
    e.rewriteM (splice eval frame) s = some (.ok (e.fill content), s) := by
  induction e, pass using Expr.partwise_of_everywhere with
  | step e pass parts =>
    have root := Expr.onExpr_of_everywhere pass
    cases hole : e.hole? with
    | some name => exact splice_hole filling root hole
    | none =>
      rw [Expr.rewriteM_eq_parts, andThen_of_ok (mapM_of_ok parts),
        ← Expr.fill_eq_withParts (by rw [hole, Option.bind_none])]
      exact splice_filled filling root hole

end

end Quasiquote
