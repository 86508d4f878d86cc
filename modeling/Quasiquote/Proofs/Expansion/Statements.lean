import Quasiquote.Proofs.Expansion.Template
import Quasiquote.Proofs.Quotation.Stopping
import Quasiquote.Proofs.Session.Repetition

/-!
# Statements are expanded each by itself

* `Program.ExpandsTo`: what comes of expanding a program, at some depth. `Store.Expanded`: the
  stores that any number of expansions lead to, in which every frame is as it was.
* `Program.expandsTo_iff`: a program expands to the same from every store that a closed store grows
  to, so that it does not matter what was expanded before.
* `Program.expandsTo_cons`: a program expands as its first statement does by itself, and then as the
  others do.
* `expansion_by_statement`: so expansion goes statement by statement, and each of them could as well
  be expanded alone, in any order.
-/

namespace Quasiquote

/-- What comes of expanding a program, at some depth: a program, or the wording of an error. -/
def Program.ExpandsTo (s : Store) (frame : Nat) (p : Program) (out : Except String Program) :
    Prop :=
  ∃ depth result t, p.expand depth frame s = some (result, t) ∧
    result.mapError MacroError.message = out

/-- The stores that any number of expansions lead to: of any programs, in any frames, whatever came
of them. -/
inductive Store.Expanded (s : Store) : Store → Prop
  | none : Expanded s s
  | further {t u depth frame program out} (before : Expanded s t)
      (next : Program.expand depth frame program t = some (out, u)) : Expanded s u

open Eval Store

/-! ## What expansion leaves -/

theorem Program.expand_grows (depth frame : Nat) (p : Program) :
    (p.expand depth frame).run.Keeps Grows := by
  intro s out t run
  constructor
  · exact p.expand_retains depth frame s out t run
  · exact p.expand_keeps countsOn_effects.invariant depth frame s out t run

theorem Store.Expanded.grows {s t : Store} (h : s.Expanded t) : s.Grows t := by
  induction h with
  | none => exact .refl s
  | further _ next ih => exact IsTrans.trans _ _ _ ih (Program.expand_grows _ _ _ _ _ _ next)

/-! ## From one store or another -/

section
variable {s : Store} {frame : Nat} (closed : s.Closed) (opened : frame < s.frames.size)
include closed opened

/-- From two stores that the same store grows to, a program expands to the same or to an error of
the same wording; the second expansion may go deeper than the first. -/
theorem Program.expands_mirrors {depth depth' : Nat} (le : depth ≤ depth') (p : Program) :
    Mirrors s.BothGrow ()
      (EndsAlike (fun _ e d => e.message = d.message) fun _ => BlockAlike .same)
      (p.expand depth frame).run (p.expand depth' frame).run := by
  have rules : RuleMirrors s.BothGrow .same noSpot (fun _ e d => e.message = d.message)
      (expandNode frame depth) (expandNode frame depth') () := by
    constructor
    · intro _ _ x y like
      rw [like.eq Naming.plain_same]
      exact expandNode_mirrors_grown closed opened le y
    · intro _ _ _ _ spot
      exact spot.elim
  exact rewriteBlockM_mirrors rules (BlockMatch.same p)

/-- What a program expands to from a store that the same store grows to, it expands to from all of
them, at any depth that suffices. -/
theorem Program.ExpandsTo.anywhere {t : Store} (grown : s.Grows t) {p : Program}
    {out : Except String Program} (h : p.ExpandsTo t frame out) :
    ∃ least, ∀ depth, least ≤ depth → ∀ u, s.Grows u → ∃ result v,
      p.expand depth frame u = some (result, v) ∧ result.mapError MacroError.message = out := by
  obtain ⟨least, result, t', run, rfl⟩ := h
  refine ⟨least, ?_⟩
  intro depth le u grown'
  obtain ⟨result', v, _, run', _, _, ended⟩ :=
    p.expands_mirrors closed opened le t u ⟨grown, grown'⟩ result t' run
  refine ⟨result', v, run', ?_⟩
  cases result <;> cases result'
  case ok.ok => exact congrArg Except.ok (ended.eq Naming.plain_same).symm
  case error.error => exact congrArg Except.error (Eq.symm ended)
  all_goals exact ended.elim

/-- What a program expands to does not depend on the store, as long as the same store grows to it.
-/
theorem Program.expandsTo_iff {t : Store} (grown : s.Grows t) (p : Program)
    (out : Except String Program) : p.ExpandsTo t frame out ↔ p.ExpandsTo s frame out := by
  constructor
  · intro h
    obtain ⟨depth, always⟩ := h.anywhere closed opened grown
    obtain ⟨result, v, run, ended⟩ := always depth (Nat.le_refl _) s (.refl s)
    exact ⟨depth, result, v, run, ended⟩
  · intro h
    obtain ⟨depth, always⟩ := h.anywhere closed opened (.refl s)
    obtain ⟨result, v, run, ended⟩ := always depth (Nat.le_refl _) t grown
    exact ⟨depth, result, v, run, ended⟩

/-- A program expands to one thing at most. -/
theorem Program.ExpandsTo.unique {p : Program} {out out' : Except String Program}
    (h : p.ExpandsTo s frame out) (h' : p.ExpandsTo s frame out') : out = out' := by
  obtain ⟨least, always⟩ := h.anywhere closed opened (.refl s)
  obtain ⟨least', always'⟩ := h'.anywhere closed opened (.refl s)
  obtain ⟨result, t, run, rfl⟩ := always (max least least') (le_max_left _ _) s (.refl s)
  obtain ⟨result', t', run', rfl⟩ := always' (max least least') (le_max_right _ _) s (.refl s)
  cases run.symm.trans run'
  rfl

/-! ## One statement after the other -/

omit closed opened in
theorem Program.expand_append (depth : Nat) (p q : Program) :
    Program.expand depth frame (p ++ q) =
      (do
        let first ← p.expand depth frame
        let rest ← q.expand depth frame
        pure (first ++ rest)) :=
  rewriteBlockM_append (expandNode frame depth) p q

/-- One program after another: the second is expanded as if it were the only one. -/
theorem Program.expandsTo_append (p q : Program) (out : Except String Program) :
    Program.ExpandsTo s frame (p ++ q) out ↔
      (∃ message, p.ExpandsTo s frame (.error message) ∧ out = .error message) ∨
      ∃ first others, p.ExpandsTo s frame (.ok first) ∧ q.ExpandsTo s frame others ∧
        out = others.map (first ++ ·) := by
  constructor
  · rintro ⟨depth, result, t, run, rfl⟩
    rw [Program.expand_append] at run
    rcases andThen_inv run with ⟨first, u, run', rest⟩ | ⟨e, run', rfl⟩
    · -- The second starts in the store that the first left, and would do the same in `s`.
      have grown := p.expand_grows depth frame s _ u run'
      refine .inr ⟨first, ?_⟩
      rcases andThen_inv rest with ⟨others, _, run'', ended⟩ | ⟨e, run'', rfl⟩
      · cases ended
        refine ⟨.ok others, ⟨depth, _, u, run', rfl⟩, ?_, rfl⟩
        exact (q.expandsTo_iff closed opened grown _).mp ⟨depth, _, t, run'', rfl⟩
      · refine ⟨.error e.message, ⟨depth, _, u, run', rfl⟩, ?_, rfl⟩
        exact (q.expandsTo_iff closed opened grown _).mp ⟨depth, _, t, run'', rfl⟩
    · exact .inl ⟨e.message, ⟨depth, _, t, run', rfl⟩, rfl⟩
  · rintro (⟨message, ⟨depth, result, t, run, ended⟩, rfl⟩ | ⟨first, others, h, h', rfl⟩)
    · cases result with
      | ok => cases ended
      | error e =>
        refine ⟨depth, .error e, t, ?_, ended⟩
        rw [Program.expand_append]
        exact andThen_of_error run
    · -- Both need a depth that suffices for both.
      obtain ⟨least, always⟩ := h.anywhere closed opened (.refl s)
      obtain ⟨least', always'⟩ := h'.anywhere closed opened (.refl s)
      obtain ⟨result, t, run, ended⟩ := always (max least least') (le_max_left _ _) s (.refl s)
      have grown := p.expand_grows _ frame s _ t run
      obtain ⟨result', u, run', rfl⟩ := always' (max least least') (le_max_right _ _) t grown
      cases result with
      | error => cases ended
      | ok =>
        cases ended
        refine ⟨max least least', result'.map (first ++ ·), u, ?_, ?_⟩
        · rw [Program.expand_append]
          refine (andThen_of_ok run).trans ?_
          cases result' with
          | ok others => exact (andThen_of_ok run').trans rfl
          | error e => exact andThen_of_error run'
        · cases result' <;> rfl

omit closed opened in
theorem Program.expandsTo_nil (out : Except String Program) :
    Program.ExpandsTo s frame [] out ↔ out = .ok [] := by
  constructor
  · rintro ⟨depth, result, t, run, rfl⟩
    cases run
    rfl
  · rintro rfl
    exact ⟨0, .ok [], s, rfl, rfl⟩

omit closed opened in
/-- One statement expands to one statement. -/
theorem Program.ExpandsTo.single {st : Stmt} {alone : Program}
    (h : Program.ExpandsTo s frame [st] (.ok alone)) : ∃ st', alone = [st'] := by
  obtain ⟨depth, result, t, run, ended⟩ := h
  cases result with
  | error => cases ended
  | ok =>
    cases ended
    rcases andThen_inv run with ⟨st', u, _, rest⟩ | ⟨e, _, same⟩
    · cases rest
      exact ⟨st', rfl⟩
    · cases same

/-- A program is expanded from its first statement on, which is expanded as if it were alone. -/
theorem Program.expandsTo_cons (st : Stmt) (rest : Program) (out : Except String Program) :
    Program.ExpandsTo s frame (st :: rest) out ↔
      (∃ message, Program.ExpandsTo s frame [st] (.error message) ∧ out = .error message) ∨
      ∃ st' others, Program.ExpandsTo s frame [st] (.ok [st']) ∧
        Program.ExpandsTo s frame rest others ∧ out = others.map (st' :: ·) := by
  rw [← List.singleton_append, Program.expandsTo_append closed opened]
  apply or_congr_right
  constructor
  · rintro ⟨first, others, h, h', rfl⟩
    obtain ⟨st', rfl⟩ := h.single
    exact ⟨st', others, h, h', rfl⟩
  · rintro ⟨st', others, h, h', rfl⟩
    exact ⟨[st'], others, h, h', rfl⟩

/-- A program expands if its statements do. -/
theorem Program.expands_iff (p : Program) :
    (∃ whole, p.ExpandsTo s frame (.ok whole)) ↔
      ∀ st ∈ p, ∃ alone, Program.ExpandsTo s frame [st] (.ok alone) := by
  induction p with
  | nil =>
    constructor
    · intro _ st inside
      cases inside
    · intro _
      exact ⟨[], (Program.expandsTo_nil _).mpr rfl⟩
  | cons st rest ih =>
    constructor
    · rintro ⟨whole, h⟩
      rcases (Program.expandsTo_cons closed opened st rest _).mp h with
        ⟨message, _, same⟩ | ⟨st', others, first, second, same⟩
      · cases same
      · cases others with
        | error => cases same
        | ok others => exact List.forall_mem_cons.mpr ⟨⟨_, first⟩, ih.mp ⟨others, second⟩⟩
    · intro each
      obtain ⟨⟨alone, first⟩, each⟩ := List.forall_mem_cons.mp each
      obtain ⟨st', rfl⟩ := first.single
      obtain ⟨others, second⟩ := ih.mpr each
      exact ⟨st' :: others, (Program.expandsTo_cons closed opened st rest _).mpr
        (.inr ⟨st', .ok others, first, second, rfl⟩)⟩

/-- What a program expands to is what its statements expand to, in order. -/
theorem Program.expandsTo_ok_iff (p whole : Program) :
    p.ExpandsTo s frame (.ok whole) ↔
      List.Forall₂ (fun st st' => Program.ExpandsTo s frame [st] (.ok [st'])) p whole := by
  induction p generalizing whole with
  | nil =>
    rw [Program.expandsTo_nil, List.forall₂_nil_left_iff]
    exact ⟨fun h => Except.ok.inj h, congrArg Except.ok⟩
  | cons st rest ih =>
    rw [Program.expandsTo_cons closed opened]
    constructor
    · rintro (⟨message, _, same⟩ | ⟨st', others, first, second, same⟩)
      · cases same
      · cases others with
        | error => cases same
        | ok others =>
          cases same
          exact .cons first ((ih others).mp second)
    · intro each
      cases each with
      | @cons _ st' _ others first second =>
        exact .inr ⟨st', .ok others, first, (ih others).mpr second, rfl⟩

/-- A program fails to expand as the first of its statements does that fails. -/
theorem Program.expandsTo_error_iff (p : Program) (message : String) :
    p.ExpandsTo s frame (.error message) ↔
      ∃ before st after, p = before ++ st :: after ∧
        (∀ earlier ∈ before, ∃ alone, Program.ExpandsTo s frame [earlier] (.ok alone)) ∧
        Program.ExpandsTo s frame [st] (.error message) := by
  induction p with
  | nil =>
    rw [Program.expandsTo_nil]
    constructor
    · intro same
      cases same
    · rintro ⟨before, st, after, split, _⟩
      have longer := congrArg List.length split
      rw [List.length_append, List.length_cons, List.length_nil] at longer
      omega
  | cons st rest ih =>
    rw [Program.expandsTo_cons closed opened]
    constructor
    · rintro (⟨_, fails, same⟩ | ⟨st', others, first, second, same⟩)
      · cases same
        exact ⟨[], st, rest, rfl, by simp, fails⟩
      · cases others with
        | ok => cases same
        | error =>
          cases same
          obtain ⟨before, failing, after, rfl, fine, fails⟩ := ih.mp second
          refine ⟨st :: before, failing, after, rfl, ?_, fails⟩
          exact List.forall_mem_cons.mpr ⟨⟨[st'], first⟩, fine⟩
    · rintro ⟨before, failing, after, split, fine, fails⟩
      cases before with
      | nil =>
        cases split
        exact .inl ⟨message, fails, rfl⟩
      | cons head before =>
        cases split
        obtain ⟨⟨alone, first⟩, fine⟩ := List.forall_mem_cons.mp fine
        obtain ⟨st', rfl⟩ := first.single
        exact .inr ⟨st', .error message, first, ih.mpr ⟨before, failing, after, rfl, fine, fails⟩,
          rfl⟩

/-- Expansion goes statement by statement, and no statement or program makes a difference to
another. A program expands if and only if each of its statements does when it is expanded alone, and
then to what they expand to, in order. If one of them fails, the program fails as the first of those
does. What a program expands to is the same whatever was expanded before, however that ended and
whatever the bodies of the macros did. -/
theorem expansion_by_statement :
    (∀ p : Program, (∃ whole, p.ExpandsTo s frame (.ok whole)) ↔
      ∀ st ∈ p, ∃ alone, Program.ExpandsTo s frame [st] (.ok alone)) ∧
    (∀ p whole : Program, p.ExpandsTo s frame (.ok whole) ↔
      List.Forall₂ (fun st st' => Program.ExpandsTo s frame [st] (.ok [st'])) p whole) ∧
    (∀ (p : Program) message, p.ExpandsTo s frame (.error message) ↔
      ∃ before st after, p = before ++ st :: after ∧
        (∀ earlier ∈ before, ∃ alone, Program.ExpandsTo s frame [earlier] (.ok alone)) ∧
        Program.ExpandsTo s frame [st] (.error message)) ∧
    (∀ (p : Program) out out', p.ExpandsTo s frame out → p.ExpandsTo s frame out' → out = out') ∧
    (∀ (p : Program) out t, s.Expanded t →
      (p.ExpandsTo t frame out ↔ p.ExpandsTo s frame out)) := by
  refine ⟨?_, ?_, ?_, ?_, ?_⟩
  · exact Program.expands_iff closed opened
  · exact Program.expandsTo_ok_iff closed opened
  · exact Program.expandsTo_error_iff closed opened
  · intro p out out' h h'
    exact h.unique closed opened h'
  · intro p out t expanded
    exact p.expandsTo_iff closed opened expanded.grows out

end

/-- The binding `let a = one()`. -/
def bindsOne : Stmt := .bind "a" (.call (.name "one") [])

/-- The program `let a = one(); one(1); both()` fails as `one(1)` does. It leaves the frame of the
call that was expanded before, and from there the binding expands as it did alone. -/
theorem expansion_by_statement_one :
    Program.ExpandsTo bothStore 0
      [bindsOne, .expr (.call (.name "one") [.int 1]), .expr (.call (.name "both") [])]
      (.error "macro one takes 0 argument(s), got 1") ∧
    bothStore.Expanded ⟨bothStore.frames.push ⟨[], some 0⟩, 3⟩ ∧
    Program.ExpandsTo ⟨bothStore.frames.push ⟨[], some 0⟩, 3⟩ 0 [bindsOne]
      (.ok [.bind "a" (.int 1)]) := by
  have opened : 0 < bothStore.frames.size := by decide
  obtain ⟨_, _, fails, _, anywhere⟩ := expansion_by_statement bothStore_closed opened
  have alone : Program.ExpandsTo bothStore 0 [bindsOne] (.ok [.bind "a" (.int 1)]) :=
    ⟨4, .ok [.bind "a" (.int 1)], ⟨bothStore.frames.push ⟨[], some 0⟩, 3⟩, by cbv, rfl⟩
  have arity : Program.ExpandsTo bothStore 0 [.expr (.call (.name "one") [.int 1])]
      (.error "macro one takes 0 argument(s), got 1") :=
    ⟨4, .error (.arity "one" 0 1), bothStore, by cbv, rfl⟩
  have stopped : Program.expand 4 0
      [bindsOne, .expr (.call (.name "one") [.int 1]), .expr (.call (.name "both") [])] bothStore =
      some (.error (.arity "one" 0 1), ⟨bothStore.frames.push ⟨[], some 0⟩, 3⟩) := by cbv
  have expanded := Store.Expanded.none.further stopped
  refine ⟨(fails _ _).mpr ⟨[bindsOne], _, _, rfl, ?_, arity⟩, expanded, ?_⟩
  · intro earlier inside
    obtain rfl := List.mem_singleton.mp inside
    exact ⟨_, alone⟩
  · exact (anywhere [bindsOne] _ _ expanded).mpr alone

end Quasiquote
