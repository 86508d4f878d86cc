import Quasiquote.Proofs.Likeness.Expansion
import Quasiquote.Proofs.Session.Running

/-!
# Execution in stores that are alike

* `Program.execute`: a program's macros are defined, its macro calls expanded, and what is left is
  evaluated. `Session.run_of_execute`: that is what a run does with the program of its source.
* `Program.execute_mirrors`: execution in stores that are alike comes to the same.
* `Store.InStep`: stores that are alike and in step, so that what stands for each other has the very
  same number in both.
-/

namespace Quasiquote

open Eval Session

/-- Defines the macros of a program in the global frame, expands what is left of it and evaluates
that; what it gives, if anything. -/
def Program.execute (depth : Nat) (program : Program) : ExceptT MacroError Eval (Option Value) := do
  let expanded ← prepare depth globals program
  expanded.eval depth globals

namespace Session

variable {depth : Nat} {source : String} {program : Program}

/-- Once the macros of a program are bound, the rest is expanded, and what comes of it evaluated. -/
theorem execute_eq (depth : Nat) (program : Program) (s : Store) :
    program.execute depth s =
      (program.withoutMacros.expand depth globals >>= fun expanded =>
        (expanded.eval depth globals : ExceptT MacroError Eval (Option Value)))
          (s.bindMacros globals program) := rfl

/-- A run executes the program of its source. -/
theorem run_of_execute (read : Program.ofSource source = .ok program) (s : Store) :
    run depth source s = (program.execute depth s).map fun (out, t) =>
      (out.mapError .expansion, t) := by
  rw [run_of_program read]
  cases came : program.withoutMacros.expand depth globals (s.bindMacros globals program) with
  | none =>
    rw [execute_eq, andThen_of_none came]
    rfl
  | some result =>
    obtain ⟨out, t⟩ := result
    cases out with
    | error e =>
      rw [execute_eq, andThen_of_error came]
      rfl
    | ok expanded =>
      rw [execute_eq, andThen_of_ok came, lift_apply, Option.map_map]
      rfl

end Session

section
variable {naming : Naming} {p : Pairing}

theorem Stmt.Match.isMacroBinding_eq {s t : Stmt} (h : s.Match naming noSpot t) :
    s.isMacroBinding = t.isMacroBinding := by
  cases h with
  | bind _ value =>
    cases value with
    | spot h => exact h.elim
    | routine role => cases role <;> rfl
    | _ => rfl
  | _ => rfl

theorem BlockMatch.withoutMacros {b c : Program} (h : BlockAlike naming b c) :
    BlockAlike naming b.withoutMacros c.withoutMacros := by
  induction b generalizing c with
  | nil => cases h; exact .nil
  | cons s rest ih =>
    cases h with
    | @cons _ t _ _ first others =>
      simp only [Program.withoutMacros, List.filter_cons, first.isMacroBinding_eq]
      cases t.isMacroBinding with
      | true => exact ih others
      | false => exact .cons first (ih others)

variable {alike : Pairing → Store → Store → Prop} (likeness : Likeness naming alike)
include likeness

theorem Likeness.bindMacro {s t : Store} (like : alike p s t) {i j : Nat} (paired : p.frames i j)
    {st st' : Stmt} (h : st.Match naming noSpot st') :
    ∃ q, p ≤ q ∧ alike q (s.bindMacro i st) (t.bindMacro j st') := by
  have same : ∃ q, p ≤ q ∧ alike q s t := ⟨p, le_rfl, like⟩
  cases h with
  | bind names value =>
    cases value with
    | spot h => exact h.elim
    | routine role params body =>
      cases role with
      | function => exact same
      | transformer =>
        have binds := params.imp fun _ _ => naming.binds_of_pairs
        exact ⟨_, Pairing.le_addSerial, likeness.insert (likeness.newSerial like) paired
          (naming.binds_of_pairs names) (.routine .transformer (.inr ⟨rfl, rfl⟩) binds body paired)⟩
    | _ => exact same
  | _ => exact same

theorem Likeness.bindMacros {s t : Store} (like : alike p s t) {i j : Nat}
    (paired : p.frames i j) {b c : Program} (h : BlockAlike naming b c) :
    ∃ q, p ≤ q ∧ alike q (s.bindMacros i b) (t.bindMacros j c) := by
  induction b generalizing c p s t with
  | nil => cases h; exact ⟨p, le_rfl, like⟩
  | cons st rest ih =>
    cases h with
    | cons first others =>
      obtain ⟨q, le, like'⟩ := likeness.bindMacro like paired first
      obtain ⟨r, le', like''⟩ := ih like' (le.1 _ _ paired) others
      exact ⟨r, le.trans le', like''⟩

abbrev ExecutionEnds (naming : Naming) :
    Pairing → Except MacroError (Option Value) → Except MacroError (Option Value) → Prop :=
  EndsAlike (MacroError.Alike naming) fun p => Option.Rel (Value.Alike naming p)

/-- Expansion and then evaluation, in stores that are alike, come to the same. -/
theorem Program.expand_eval_mirrors {depth depth' : Nat} (le : depth ≤ depth')
    (paired : p.frames globals globals) {b c : Program} (h : BlockAlike naming b c) :
    Mirrors alike p (ExecutionEnds naming)
      (b.expand depth globals >>= fun expanded =>
        (expanded.eval depth globals : ExceptT MacroError Eval (Option Value))).run
      (c.expand depth' globals >>= fun expanded =>
        (expanded.eval depth' globals : ExceptT MacroError Eval (Option Value))).run := by
  apply (Program.expand_mirrors likeness le paired h).andThen
  intro q later expanded expanded' like
  exact Mirrors.lift (Program.eval_mirrors likeness le (later.1 _ _ paired) like)

/-- Programs that are alike, executed in stores that are alike, come to the same. -/
theorem Program.execute_mirrors {depth depth' : Nat} (le : depth ≤ depth')
    (paired : p.frames globals globals) {b c : Program} (h : BlockAlike naming b c) :
    Mirrors alike p (ExecutionEnds naming) (b.execute depth).run (c.execute depth').run := by
  intro s t like out s' run
  obtain ⟨q, later, like'⟩ := likeness.bindMacros like paired h
  have mirrors := Program.expand_eval_mirrors likeness le (later.1 _ _ paired) h.withoutMacros
  obtain ⟨out', t', r, run', later', like'', ends⟩ := mirrors _ _ like' out s' run
  exact ⟨out', t', r, run', later.trans later', like'', ends⟩

end

/-! ## In step -/

/-- Two stores are alike, and as many frames and serial numbers were given out in both, so that
only equal numbers stand for each other. -/
structure Store.InStep (naming : Naming) (p : Pairing) (s t : Store) : Prop
    extends s.Alike naming p t where
  sameFrames : ∀ i j, p.frames i j → i = j
  sameSerials : ∀ k l, p.serials k l → k = l
  opened_eq : s.frames.size = t.frames.size
  given_eq : s.serials = t.serials

theorem Store.InStep.likeness (naming : Naming) : Likeness naming (Store.InStep naming) where
  stores h := h.toAlike
  newSerial h := by
    constructor
    · exact h.toAlike.newSerial
    · exact h.sameFrames
    · rintro k l (old | ⟨rfl, rfl⟩)
      · exact h.sameSerials k l old
      · exact h.given_eq
    · exact h.opened_eq
    · exact congrArg Nat.succ h.given_eq
  openFrame h f g like := by
    constructor
    · exact h.toAlike.openFrame like
    · rintro i j (old | ⟨rfl, rfl⟩)
      · exact h.sameFrames i j old
      · exact h.opened_eq
    · exact h.sameSerials
    · simp [Store.openFrame, h.opened_eq]
    · exact h.given_eq
  insert h i j paired a b names v w like := by
    constructor
    · exact h.toAlike.insert paired names like
    · exact h.sameFrames
    · exact h.sameSerials
    · simp [Store.insert, h.opened_eq]
    · exact h.given_eq

end Quasiquote
