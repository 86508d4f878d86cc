import Quasiquote.Proofs.Reading.Terminal

/-!
# Reading one program behind another

* `Reading.after`: a reading with finished statements before all that it has read. It takes tokens
  as the reading itself does (`Reading.step_after`, `Reading.steps_after`).
* `Reading.Spells`: terminals that a program is read from.
* `Terminal.KeptApart`: no terminal of the second of two programs goes on with the first.
* `Reading.Spells.append`: programs that are kept apart are read as one.
-/

namespace Quasiquote

namespace Reading

/-- Statements that wait for a block, with finished statements before those of the outermost. -/
def outerAfter (before : List Stmt) : List Suspended → List Suspended
  | [] => []
  | [s] => [{ s with done := before ++ s.done }]
  | s :: t :: rest => s :: outerAfter before (t :: rest)

def after (before : List Stmt) : Reading → Reading
  | ⟨[], done, phase⟩ => ⟨[], before ++ done, phase⟩
  | ⟨s :: outer, done, phase⟩ => ⟨outerAfter before (s :: outer), done, phase⟩

section
variable {before : List Stmt} {r q : Reading}

theorem await_after (place : Place) (due : Due) :
    (r.after before).await place due = (r.await place due).after before := by
  obtain ⟨_ | ⟨s, outer⟩, done, phase⟩ := r <;> rfl

theorem openBlock_after (place : Place) (blockUse : BlockUse) :
    (r.after before).openBlock place blockUse = (r.openBlock place blockUse).after before := by
  obtain ⟨_ | ⟨s, outer⟩, done, phase⟩ := r <;> rfl

theorem phase_after (phase : Phase) :
    { r.after before with phase := phase } = { r with phase := phase }.after before := by
  obtain ⟨_ | ⟨s, outer⟩, done, _⟩ := r <;> rfl

theorem endStatement_after (s : Stmt) :
    (r.after before).endStatement s = (r.endStatement s).after before := by
  obtain ⟨_ | ⟨_, outer⟩, done, phase⟩ := r
  · simp [after, endStatement]
  · rfl

theorem readOperand_after (place : Place) (t : Token) :
    (r.after before).readOperand place t = (r.readOperand place t).map (after before) := by
  obtain ⟨_ | ⟨s, outer⟩, done, phase⟩ := r <;> unfold readOperand <;> cases t.kind with
  | keyword k => cases k <;> rfl
  | mark m => cases m <;> rfl
  | _ => rfl

theorem readStatement_after (t : Token) :
    (r.after before).readStatement t = (r.readStatement t).map (after before) := by
  simp only [readStatement, readOperand_after, await_after, phase_after]
  split
  · rfl
  · rfl
  · obtain ⟨_ | ⟨s, _ | ⟨u, outer⟩⟩, done, phase⟩ := r <;> rfl
  · rfl

theorem readEnd_after (place : Place) (operand : Expr) (t : Token) :
    (r.after before).readEnd place operand t = (r.readEnd place operand t).map (after before) := by
  simp only [readEnd, endStatement_after, readStatement_after, await_after]
  split
  · split <;> rfl
  · split <;> rfl

theorem readFollower_after (place : Place) (operand : Expr) (t : Token) :
    (r.after before).readFollower place operand t =
      (r.readFollower place operand t).map (after before) := by
  simp only [readFollower, readEnd_after, await_after]
  split
  · rfl
  · split <;> rfl

theorem readWithin_after (place : Place) (due : Due) (t : Token) :
    (r.after before).readWithin place t due = (r.readWithin place t due).map (after before) := by
  cases due with
  | operand => exact readOperand_after place t
  | follower operand => exact readFollower_after place operand t
  | firstArg callee =>
    simp only [readWithin, readOperand_after, await_after]
    split <;> rfl
  | afterConsequence test consequence =>
    simp only [readWithin, readFollower_after, await_after]
    split <;> rfl
  | firstParam role | afterParam role done =>
    simp only [readWithin, await_after]
    split
    · rfl
    · split <;> rfl
  | _ =>
    simp only [readWithin, await_after, openBlock_after]
    split <;> rfl

/-- Statements before it do not change how a reading takes a token. -/
theorem step_after (t : Token) :
    (r.after before).step t = (r.step t).map (after before) := by
  have same : (r.after before).phase = r.phase := by
    obtain ⟨_ | ⟨s, outer⟩, done, phase⟩ := r <;> rfl
  simp only [step, same, phase_after, await_after, readStatement_after, readWithin_after]
  split
  · rfl
  · split <;> rfl
  · split <;> rfl
  · rfl

theorem steps_after {ss : List Terminal} (h : r.steps ss = some q) :
    (r.after before).steps ss = some (q.after before) := by
  induction ss generalizing r with
  | nil =>
    cases h
    rfl
  | cons s ss ih =>
    rw [steps_cons] at h ⊢
    obtain ⟨next, taken, rest⟩ := Option.bind_eq_some_iff.mp h
    have taken' : (r.after before).take s = some (next.after before) := by
      rw [take_eq_some] at taken ⊢
      rw [step_after, taken]
      rfl
    rw [taken']
    exact ih rest

end

/-- A program may end here with these statements: between two of them, or behind an operand at the
outermost level, of which the last statement is made. -/
inductive MayEnd : Program → Reading → Prop
  | statement {done} : MayEnd done ⟨[], done, .statement⟩
  | operand {done head waiting e} :
      MayEnd (done ++ [head.complete (settleAll waiting e)])
        ⟨[], done, .within ⟨head, [], waiting⟩ (.follower e)⟩
  | consequence {done head waiting test c} :
      MayEnd (done ++ [head.complete (settleAll waiting (.cond test c none))])
        ⟨[], done, .within ⟨head, [], waiting⟩ (.afterConsequence test c)⟩

theorem finish_eq_ok_iff {r : Reading} {p : Program} : r.finish = .ok p ↔ MayEnd p r := by
  constructor
  · intro ended
    obtain ⟨outer, done, phase⟩ := r
    cases phase with
    | statement =>
      cases outer with
      | nil => cases ended; exact .statement
      | cons s outer => cases ended
    | bindingName => cases ended
    | bindingSign name => cases ended
    | within place due =>
      obtain ⟨head, nests, waiting⟩ := place
      cases due with
      | follower e =>
        cases nests <;> cases outer <;> cases ended
        exact .operand
      | afterConsequence test c =>
        cases nests <;> cases outer <;> cases ended
        exact .consequence
      | _ => cases ended
  · intro ends
    cases ends <;> rfl

theorem MayEnd.after {r : Reading} {p : Program} (ends : MayEnd p r) (before : List Stmt) :
    MayEnd (before ++ p) (r.after before) := by
  cases ends with
  | statement => exact .statement
  | operand =>
    rw [← List.append_assoc]
    exact .operand
  | consequence =>
    rw [← List.append_assoc]
    exact .consequence

def Spells (ss : List Terminal) (p : Program) : Prop := empty.Leads ss (MayEnd p)

end Reading

/-- No terminal of the second list goes on with what stands in the first: one of them is empty, the
first ends with a semicolon, or the second starts with neither a parenthesis nor a minus sign. -/
def Terminal.KeptApart (ss us : List Terminal) : Prop :=
  ss = [] ∨ us = [] ∨ ss.getLast? = some (.mark .semicolon) ∨
    ∃ u ∈ us.head?, u ≠ .mark .leftParen ∧ u ≠ .mark .minus

namespace Reading

theorem phase_of_semicolon {r q : Reading} (taken : r.take (.mark .semicolon) = some q) :
    q.phase = .statement := by
  have follower (place : Place) (e : Expr) (read : r.readFollower place e
      (Terminal.mark .semicolon).token = .ok q) : q.phase = .statement := by
    obtain ⟨head, _ | ⟨⟨bracket, _⟩, nests⟩, waiting⟩ := place
    · cases read
      rfl
    · cases bracket <;> cases read
  rw [take_eq_some] at taken
  obtain ⟨outer, done, phase⟩ := r
  cases phase with
  | within place due =>
    cases due with
    | follower e => exact follower place e taken
    | afterConsequence test c => exact follower place (.cond test c none) taken
    | _ => cases taken
  | _ => cases taken

/-- What starts a program goes on with no operand, a parenthesis and a minus sign apart. -/
theorem continues_of_starts {q : Reading} {u : Terminal} (taken : empty.take u = some q)
    (paren : u ≠ .mark .leftParen) (minus : u ≠ .mark .minus) : u.continues = false := by
  rw [take_eq_some] at taken
  cases u with
  | mark m =>
    cases m with
    | leftParen => exact absurd rfl paren
    | minus => exact absurd rfl minus
    | _ => first | rfl | cases taken
  | keyword k => cases k <;> first | rfl | cases taken
  | _ => rfl

/-- Where a program may end, a terminal that does not go on with its last statement is taken as the
first of the next one. -/
theorem MayEnd.step_eq {r : Reading} {p : Program} (ends : MayEnd p r) {u : Terminal}
    (apart : u.continues = false) :
    r.step u.token = step ⟨[], p, .statement⟩ u.token := by
  have other : u ≠ .keyword .elseWord := by
    rintro rfl
    cases apart
  cases ends with
  | statement => rfl
  | operand => exact step_ended apart
  | consequence => exact (step_afterConsequence other).trans (step_ended apart)

theorem MayEnd.step_of_keptApart {ss us : List Terminal} {r : Reading} {p : Program} {u : Terminal}
    (ends : MayEnd p r) (steps : empty.steps ss = some r)
    (starts : ∃ q, empty.take u = some q) (apart : Terminal.KeptApart ss (u :: us)) :
    r.step u.token = step ⟨[], p, .statement⟩ u.token := by
  have between (due : r.phase = .statement) :
      r.step u.token = step ⟨[], p, .statement⟩ u.token := by
    cases ends with
    | statement => rfl
    | _ => cases due
  rcases apart with rfl | none | semicolon | ⟨_, ⟨⟩, paren, minus⟩
  · cases steps
    exact between rfl
  · cases none
  · obtain ⟨ss, rfl⟩ := List.getLast?_eq_some_iff.mp semicolon
    rw [steps_append] at steps
    obtain ⟨before, _, last⟩ := Option.bind_eq_some_iff.mp steps
    have taken : before.take (.mark .semicolon) = some r := by
      simpa [steps_cons] using last
    exact between (phase_of_semicolon taken)
  · obtain ⟨q, taken⟩ := starts
    exact ends.step_eq (continues_of_starts taken paren minus)

/-- Programs that are kept apart are read as one. -/
theorem Spells.append {ss us : List Terminal} {p p' : Program} (first : Spells ss p)
    (second : Spells us p') (apart : Terminal.KeptApart ss us) : Spells (ss ++ us) (p ++ p') := by
  obtain ⟨r, steps, ends⟩ := first
  obtain ⟨q, more, ends'⟩ := second
  cases us with
  | nil =>
    cases more
    cases ends'
    rw [List.append_nil, List.append_nil]
    exact ⟨r, steps, ends⟩
  | cons u us =>
    have between : (⟨[], p, .statement⟩ : Reading).steps (u :: us) = some (q.after p) := by
      have shifted : (empty.after p).steps (u :: us) = some (q.after p) := steps_after more
      simpa [empty, after] using shifted
    have starts : ∃ next, empty.take u = some next := by
      obtain ⟨next, taken, _⟩ := Option.bind_eq_some_iff.mp more
      exact ⟨next, taken⟩
    have same : r.take u = (⟨[], p, .statement⟩ : Reading).take u := by
      rw [take, take, ends.step_of_keptApart steps starts apart]
    refine ⟨q.after p, ?_, ends'.after p⟩
    rw [steps_append, steps, Option.bind_some]
    rw [steps_cons] at between ⊢
    rwa [same]

end Reading

end Quasiquote
