import Quasiquote.Proofs.Expansion.Definition
import Quasiquote.Proofs.Likeness.Store
import Quasiquote.Proofs.Session.Running
import Quasiquote.Proofs.Session.Signals

/-!
# Rejected sources

* `Session.Rejects`: what a rejected run was about. Either the source has no program, or the
  expansion of its program failed, which is then the last thing that was done.
* `rejected_defines_only`: a rejected run has defined the macros of its program, if it has one, and
  nothing else, whatever the macros did that it called.
-/

namespace Quasiquote

open Eval Store

/-- A run ends with a rejection and leaves this store. If the source has no program, nothing was
done at all. Otherwise its macros were defined and the rest of it was being expanded. -/
inductive Session.Rejects (depth : Nat) (source : String) (s : Store) : Rejection → Store → Prop
  | unreadable {rejection} (read : Program.ofSource source = .error rejection) :
      Rejects depth source s rejection s
  | unexpanded {program error t} (read : Program.ofSource source = .ok program)
      (expansion : program.withoutMacros.expand depth globals (s.bindMacros globals program) =
        some (.error error, t)) : Rejects depth source s (.expansion error) t

theorem Session.rejects_of_run {depth : Nat} {source : String} {s t : Store} {rejection : Rejection}
    (run : Session.run depth source s = some (.error rejection, t)) :
    Rejects depth source s rejection t := by
  cases read : Program.ofSource source with
  | error e =>
    rw [run_of_unreadable read] at run
    cases run
    exact .unreadable read
  | ok program =>
    rw [run_of_program read] at run
    split at run
    · cases run
    · next expansion =>
      cases run
      exact .unexpanded read expansion
    · next expanded u _ =>
      cases evaluated : expanded.eval depth globals u with
      | none => rw [evaluated] at run; cases run
      | some result => rw [evaluated] at run; cases run

/-- What is wrong with a source that has no program is its tokens or its grammar. -/
theorem Program.ofSource_ne_expansion (source : String) (e : MacroError) :
    Program.ofSource source ≠ .error (.expansion e) := by
  unfold Program.ofSource
  split
  · simp
  · next tokens _ =>
    cases Program.ofTokens tokens <;> simp [Except.mapError]

/-- Expansion changes no frame that there was when the macros were defined. -/
theorem Session.grows_of_expansion {depth : Nat} {program : Program} {s t : Store}
    {out : Except MacroError Program} (sound : s.Sound)
    (expansion : program.withoutMacros.expand depth globals (s.bindMacros globals program) =
      some (out, t)) : (s.bindMacros globals program).Grows t := by
  have ready : (s.bindMacros globals program).Sound :=
    (bindMacros_advances program sound).sound sound
  have advances := (rewriteBlockM_gives (expandNode_advances globals depth) _ _ ready _ _
    expansion).1
  exact ⟨Program.expand_retains _ _ _ _ _ _ expansion, advances.serials⟩

/-- Expansion changes no frame, so that only the macros were defined. -/
theorem Session.definesOnly_of_expansion {depth : Nat} {program : Program} {s t : Store}
    {out : Except MacroError Program} (sound : s.Sound)
    (expansion : program.withoutMacros.expand depth globals (s.bindMacros globals program) =
      some (out, t)) : s.DefinesOnly globals program t := by
  have step := bindMacros_advances program sound
  have grown := grows_of_expansion sound expansion
  exact (bindMacros_definesOnly globals s program).retains grown.retains
    (step.serials.trans grown.serials)

/-- A rejected run has no other effect than its macro definitions. For its tokens or its grammar it
is rejected before anything is done. If its expansion fails, nothing was done but that, after its
macros were defined: no statement was evaluated, and however far the expansion had got and whatever
was evaluated in the macros' bodies, the global frame differs only in the names that the program
defines macros by, and no other frame differs at all. -/
theorem rejected_defines_only {depth : Nat} {source : String} {s t : Store} {rejection : Rejection}
    (reached : Session.Reachable s)
    (run : Session.run depth source s = some (.error rejection, t)) :
    match rejection with
    | .lexical _ => t = s
    | .grammatical _ => t = s
    | .expansion error => ∃ program, Program.ofSource source = .ok program ∧
        program.withoutMacros.expand depth Session.globals
          (s.bindMacros Session.globals program) = some (.error error, t) ∧
        s.DefinesOnly Session.globals program t := by
  cases Session.rejects_of_run run with
  | unreadable read =>
    cases rejection with
    | lexical e => rfl
    | grammatical e => rfl
    | expansion e => exact absurd read (Program.ofSource_ne_expansion source e)
  | unexpanded read expansion =>
    exact ⟨_, read, expansion, Session.definesOnly_of_expansion reached.sound expansion⟩

/-- A macro whose body binds a name and gives what the name is bound to. -/
def bindingMacro : Closure := ⟨["x"], [.bind "y" (.int 1), .expr (.name "y")], 0⟩

/-- A source that defines two macros by one name and calls it. -/
def twice : String :=
  "let m = macro() { 2 }; let m = macro(x) { let y = 1; y }; let z = 3; m(z)"

/-- The second macro gives no syntax, after it bound a name in a frame of its own. -/
def twiceStore : Store :=
  ⟨#[⟨[("m", .routine .transformer 1 bindingMacro)], none⟩,
    ⟨[("y", .int 1), ("x", .quotation 2 (.name "z"))], some 0⟩], 3⟩

theorem rejected_defines_only_twice :
    Session.run 5 twice .initial =
      some (.error (.expansion (.noQuotation "m" (.int 1))), twiceStore) ∧
    ∃ program, Program.ofSource twice = .ok program ∧
      program.lastDefinition? "m" = some (bindingMacro.params, bindingMacro.body) ∧
      Store.initial.DefinesOnly 0 program twiceStore := by
  have ran : (Session.run 5 twice .initial).map
      (fun r => (match r.1 with | .error e => some e | .ok _ => none, r.2)) =
      some (some (.expansion (.noQuotation "m" (.int 1))), twiceStore) := by
    decide +kernel
  have run : Session.run 5 twice .initial =
      some (.error (.expansion (.noQuotation "m" (.int 1))), twiceStore) := by
    obtain ⟨⟨out, t⟩, run, eq⟩ := Option.map_eq_some_iff.mp ran
    cases out with
    | ok given => cases (Prod.mk.inj eq).1
    | error e =>
      cases eq
      exact run
  obtain ⟨program, read, _, only⟩ := rejected_defines_only .initial run
  have last : (Program.ofSource twice).toOption.map (fun p => Program.lastDefinition? p "m") =
      some (some (bindingMacro.params, bindingMacro.body)) := by
    decide +kernel
  rw [read] at last
  exact ⟨run, program, read, Option.some.inj last, only⟩

end Quasiquote
