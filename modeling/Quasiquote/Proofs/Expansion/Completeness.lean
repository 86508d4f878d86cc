import Quasiquote.Proofs.Store.Giving
import Quasiquote.Proofs.Store.Lookup

/-!
# Expansion leaves no macro call

* `Store.noMacroCall`: the test that an expression is no call of a name that a frame sees as a
  macro.
* `expandNode_gives`: what comes of a node passes that test everywhere if its parts do, since what a
  macro gives is expanded in turn, and no macro body changes what the frame sees.
* `expansion_complete`: an expanded program has no macro call in it, so that expansion keeps it as
  it is.
-/

namespace Quasiquote

def Value.isMacro : Value → Bool
  | .routine .transformer _ _ => true
  | _ => false

/-- No call of a name that a frame sees as a macro. -/
def Store.noMacroCall (store : Store) (frame : Nat) : Test :=
  .ofExprs fun e =>
    match e.calledName? with
    | some name => !(store.find? frame name).any Value.isMacro
    | none => true

namespace Store

theorem macroCall?_eq_none_iff (store : Store) (frame : Nat) (e : Expr) :
    store.macroCall? frame e = none ↔ (store.noMacroCall frame).onExpr e := by
  unfold macroCall? noMacroCall Test.ofExprs
  split
  · next name args =>
    simp only [Expr.calledName?, Expr.name?]
    split
    · next found => simp [found, Value.isMacro]
    · next other =>
      cases found : store.find? frame name with
      | none => simp
      | some v =>
        simp only [Option.any_some, true_iff, Bool.not_eq_true']
        unfold Value.isMacro
        split
        · exact absurd found (other _ _)
        · rfl
  · next other =>
    cases e with
    | call callee args =>
      cases callee with
      | name name => exact absurd rfl (other name args)
      | _ => simp [Expr.calledName?, Expr.name?]
    | _ => simp [Expr.calledName?]

theorem macroCall?_of_retains {s t : Store} (kept : s.Retains t) {frame : Nat}
    (opened : frame < s.frames.size) (e : Expr) : t.macroCall? frame e = s.macroCall? frame e := by
  unfold macroCall?
  split
  · rw [find?_of_retains kept opened]
  · rfl

end Store

open Eval Store

section
variable {s : Store} {frame : Nat} (opened : frame < s.frames.size)
include opened

theorem expandNode_gives (depth : Nat) :
    RuleGives Retains s.Retains (fun e => e.everywhere (s.noMacroCall frame)) (fun _ _ => True)
      (expandNode frame depth) := by
  apply RuleGives.expandNode
  · exact fun t u kept next => IsTrans.trans s t u kept next
  · intro e t kept seen parts
    rw [macroCall?_of_retains kept opened, macroCall?_eq_none_iff] at seen
    exact (Expr.everywhere_iff e).mpr ⟨seen, parts⟩
  · intro depth e t call _ _
    exact .of_keeps (call.eval_retains depth)

theorem expandNode_eq_self {e : Expr} (pass : (s.noMacroCall frame).onExpr e) (depth : Nat)
    {t : Store} (kept : s.Retains t) : expandNode frame (depth + 1) e t = some (.ok e, t) := by
  have seen : t.macroCall? frame e = none := by
    rwa [macroCall?_of_retains kept opened, macroCall?_eq_none_iff]
  have read : (liftM (get : Eval Store) : ExceptT MacroError Eval Store) t = some (.ok t, t) := rfl
  refine (andThen_of_ok read).trans ?_
  rw [seen]
  rfl

theorem Program.expand_eq_self {program : Program}
    (free : program.everywhere (s.noMacroCall frame)) (depth : Nat) {t : Store}
    (kept : s.Retains t) : program.expand (depth + 1) frame t = some (.ok program, t) := by
  simp only [Program.everywhere, Bool.and_eq_true] at free
  exact rewriteBlockM_eq_self (fun e pass => expandNode_eq_self opened pass depth kept) program
    free.2

theorem Program.expand_everywhere {depth : Nat} {program result : Program} {t : Store}
    (run : program.expand depth frame s = some (.ok result, t)) :
    result.everywhere (s.noMacroCall frame) := by
  have given := rewriteBlockM_gives (expandNode_gives opened depth) program s (refl s) _ _ run
  exact (Program.everywhere_iff result).mpr given.2

/-- Expansion is complete: no call in an expanded program, however deep, calls a name that the frame
sees as a macro, and the frame sees what it saw before. So expanding again, in that store or a later
one, keeps the program as it is, as it does any program without macro calls. -/
theorem expansion_complete :
    (∀ depth program result t, Program.expand depth frame program s = some (.ok result, t) →
      result.everywhere (s.noMacroCall frame) ∧ s.Retains t ∧
        ∀ more u, s.Retains u → result.expand (more + 1) frame u = some (.ok result, u)) ∧
    (∀ program : Program, program.everywhere (s.noMacroCall frame) →
      ∀ depth, program.expand (depth + 1) frame s = some (.ok program, s)) := by
  refine ⟨fun depth program result t run => ?_, fun program free depth => ?_⟩
  · have free := Program.expand_everywhere opened run
    exact ⟨free, Program.expand_retains depth frame program _ _ _ run, fun more _ kept =>
      Program.expand_eq_self opened free more kept⟩
  · exact Program.expand_eq_self opened free depth (refl s)

end

/-- Two macros: `twice` gives the sum of its argument with itself, and `pick` gives the name
`twice`. -/
def pickingStore : Store :=
  ⟨#[⟨[("pick", .routine .transformer 1 ⟨[], [.expr (.call (.name "quote") [.name "twice"])], 0⟩),
      ("twice", .routine .transformer 0 ⟨["x"], [.expr (.call (.name "quote")
        [.binary (.call (.name "unquote") [.name "x"]) .add
          (.call (.name "unquote") [.name "x"])])], 0⟩)], none⟩], 2⟩

/-- The call `pick()(2)`, in the body of a function, calls a macro once its callee is expanded. -/
theorem expansion_complete_pick :
    0 < pickingStore.frames.size ∧
    ∃ t, Program.expand 5 0
        [.expr (.routine .function [] [.expr (.call (.call (.name "pick") []) [.int 2])])]
        pickingStore =
      some (.ok [.expr (.routine .function [] [.expr (.binary (.int 2) .add (.int 2))])], t) ∧
      pickingStore.Retains t ∧
      Program.expand 1 0
        [.expr (.routine .function [] [.expr (.binary (.int 2) .add (.int 2))])] t =
        some (.ok [.expr (.routine .function [] [.expr (.binary (.int 2) .add (.int 2))])], t) := by
  have given : (Program.expand 5 0
      [.expr (.routine .function [] [.expr (.call (.call (.name "pick") []) [.int 2])])]
      pickingStore).map Prod.fst =
      some (.ok [.expr (.routine .function [] [.expr (.binary (.int 2) .add (.int 2))])]) := by
    cbv
  obtain ⟨⟨_, t⟩, run, rfl⟩ := Option.map_eq_some_iff.mp given
  have opened : 0 < pickingStore.frames.size := by decide
  obtain ⟨_, kept, again⟩ := (expansion_complete opened).1 _ _ _ t run
  exact ⟨opened, t, run, kept, again 0 t kept⟩

end Quasiquote
