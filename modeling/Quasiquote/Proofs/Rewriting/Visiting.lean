import Mathlib.Data.List.Forall2
import Quasiquote.Proofs.Rewriting.Rebuilding

/-!
# The calls of a hook

A hook is a rule that reads and changes a state and that may fail. `Hook.noted` is the same hook
with a note of every call that is made of it.

* `Visits`: expressions are offered one after the other, of each its parts first and then the
  expression rebuilt from what was answered to these. What is answered to that takes its place.
* `Transcript`: the calls that are made of such a visit by a hook, up to the first that fails.
* `Hook.Spares`: one hook goes on where another fails, and does the same anywhere else.
* `rewrite_visits`: a rewrite visits every expression once, in order, and stops where its hook
  fails.
-/

namespace Quasiquote

/-- A rule with a state, which it may change, also where it fails. -/
abbrev Hook (σ ε : Type) := Expr → ExceptT ε (StateM σ) Expr

/-- A call of a hook: the expression that it was offered, and what it answered. -/
structure Call (ε : Type) where
  offered : Expr
  answer : Except ε Expr

/-- The hook, with a note of every call behind the notes of those before. -/
def Hook.noted {σ ε : Type} (hook : Hook σ ε) : Hook (σ × List (Call ε)) ε :=
  fun e w => ((hook e w.1).1, ((hook e w.1).2, w.2 ++ [⟨e, (hook e w.1).1⟩]))

def Program.calls {σ ε : Type} (program : Program) (hook : Hook σ ε) (s : σ) : List (Call ε) :=
  (program.rewriteM hook.noted (s, [])).2.2

/-- Expressions that are visited one after the other, what was offered and answered meanwhile, and
what takes their places. Of each, the parts are visited first. Then the expression is offered with
the parts that came of that, and the answer takes its place. -/
inductive Visits : List Expr → List (Expr × Expr) → List Expr → Prop
  | nil : Visits [] [] []
  | cons {e answer : Expr} {rest xs ys : List Expr} {inner outer : List (Expr × Expr)}
      (parts : Visits e.parts inner xs) (more : Visits rest outer ys) :
      Visits (e :: rest) (inner ++ (e.withParts xs, answer) :: outer) (answer :: ys)

def Call.answered {ε : Type} (visit : Expr × Expr) : Call ε := ⟨visit.1, .ok visit.2⟩

/-- The calls that are made of a visit, and the outcome: either all are answered and there is a
result, or one fails, which is the last, and its failure is the outcome. -/
inductive Transcript {ε α : Type} (visits : List (Expr × Expr)) (result : α) :
    List (Call ε) → Except ε α → Prop
  | answered : Transcript visits result (visits.map Call.answered) (.ok result)
  | failed {offered answer : Expr} {before after : List (Expr × Expr)} {error : ε}
      (split : visits = before ++ (offered, answer) :: after) :
      Transcript visits result (before.map Call.answered ++ [⟨offered, .error error⟩])
        (.error error)

/-- The second hook does as the first, wherever the first does not fail. -/
def Hook.Spares {σ ε : Type} (hook spared : Hook σ ε) : Prop :=
  ∀ e s x t, hook e s = (.ok x, t) → spared e s = (.ok x, t)

/-! ## Visits -/

namespace Visits

theorem length {es : List Expr} {visits : List (Expr × Expr)} {xs : List Expr}
    (h : Visits es visits xs) : xs.length = es.length := by
  induction h with
  | nil => rfl
  | cons _ _ _ ih => rw [List.length_cons, ih, List.length_cons]

/-- Every expression is offered once, in order, with nothing but its parts changed. -/
theorem rebuilds {es : List Expr} {visits : List (Expr × Expr)} {xs : List Expr}
    (h : Visits es visits xs) :
    List.Forall₂ Expr.Rebuilt (es.flatMap Expr.nodes) (visits.map Prod.fst) := by
  induction h with
  | nil => exact .nil
  | @cons e answer rest xs ys inner outer parts more inside behind =>
    rw [List.flatMap_cons, Expr.nodes_eq, List.append_assoc, List.map_append]
    exact List.rel_append inside (.cons ⟨xs, parts.length, rfl⟩ behind)

/-- Every expression can be visited. -/
theorem ofEach {es : List Expr} (each : ∀ e ∈ es, ∃ visits xs, Visits e.parts visits xs) :
    ∃ visits xs, Visits es visits xs := by
  induction es with
  | nil => exact ⟨[], [], .nil⟩
  | cons e rest ih =>
    obtain ⟨inner, xs, parts⟩ := each e List.mem_cons_self
    obtain ⟨outer, ys, more⟩ := ih fun x inside => each x (List.mem_cons_of_mem e inside)
    exact ⟨inner ++ (e.withParts xs, e) :: outer, e :: ys, .cons parts more⟩

theorem ofList (es : List Expr) : ∃ visits xs, Visits es visits xs := by
  have ofParts (e : Expr) : ∃ visits xs, Visits e.parts visits xs := by
    induction e using Expr.partwise with
    | step e parts => exact ofEach parts
  exact ofEach fun e _ => ofParts e

end Visits

/-! ## Transcripts -/

namespace Transcript

variable {ε α β γ : Type} {visits others : List (Expr × Expr)} {a : α} {b : β}
  {calls more : List (Call ε)} {outcome : Except ε β} {error : ε}

/-- Behind a call that failed, nothing is called. -/
theorem cut (h : Transcript visits a calls (.error error)) :
    Transcript (visits ++ others) b calls (.error error) := by
  cases h with
  | failed split =>
    subst split
    rw [List.append_assoc, List.cons_append]
    exact .failed rfl

theorem map (h : Transcript visits b calls outcome) (f : β → γ) :
    Transcript visits (f b) calls (outcome.map f) := by
  cases h with
  | answered => exact .answered
  | failed split => exact .failed split

/-- Behind calls that were all answered, others are made. -/
theorem append (h : Transcript visits a calls (.ok a))
    (behind : Transcript others b more outcome) :
    Transcript (visits ++ others) b (calls ++ more) outcome := by
  cases h with
  | answered =>
    cases behind with
    | answered =>
      rw [← List.map_append]
      exact .answered
    | failed split =>
      subst split
      rw [← List.append_assoc, ← List.append_assoc, ← List.map_append]
      exact .failed rfl

/-- Behind calls that were all answered, one more is made. -/
theorem snoc (h : Transcript visits a calls (.ok a)) (offered : Expr)
    (answer : Except ε Expr) :
    ∃ x, Transcript (visits ++ [(offered, x)]) x (calls ++ [⟨offered, answer⟩]) answer := by
  cases h with
  | answered =>
    cases answer with
    | ok x =>
      refine ⟨x, ?_⟩
      have one : [⟨offered, .ok x⟩] = [(offered, x)].map (@Call.answered ε) := rfl
      rw [one, ← List.map_append]
      exact .answered
    | error error => exact ⟨offered, .failed rfl⟩

/-- Only the last call can have failed, and its failure is the outcome. -/
theorem last {before after : List (Call ε)} {call : Call ε}
    (h : Transcript visits b (before ++ call :: after) outcome)
    (fails : call.answer = .error error) : after = [] ∧ outcome = .error error := by
  have notAnswered {answered : List (Expr × Expr)} (inside : call ∈ answered.map Call.answered) :
      False := by
    obtain ⟨visit, _, rfl⟩ := List.mem_map.mp inside
    cases fails
  generalize made : before ++ call :: after = all at h
  cases h with
  | answered =>
    exact (notAnswered (made ▸ List.mem_append_right before List.mem_cons_self)).elim
  | @failed offered answer answered behind error' split =>
    rcases after.eq_nil_or_concat with rfl | ⟨inner, final, rfl⟩
    · obtain ⟨_, same⟩ := List.append_inj' made rfl
      cases same
      cases fails
      exact ⟨rfl, rfl⟩
    · rw [List.concat_eq_append, ← List.cons_append, ← List.append_assoc] at made
      obtain ⟨same, _⟩ := List.append_inj' made rfl
      exact (notAnswered (same ▸ List.mem_append_right before List.mem_cons_self)).elim

end Transcript

/-! ## One step after another -/

section
variable {σ ε α β : Type} {x : ExceptT ε (StateM σ) α} {f : α → ExceptT ε (StateM σ) β} {s t : σ}

theorem bind_of_ok {a : α} (h : x s = (.ok a, t)) : (x >>= f) s = f a t := by
  change ExceptT.bindCont f (x s).1 (x s).2 = _
  rw [h]
  rfl

theorem bind_of_error {error : ε} (h : x s = (.error error, t)) :
    (x >>= f) s = (.error error, t) := by
  change ExceptT.bindCont f (x s).1 (x s).2 = _
  rw [h]
  rfl

theorem bind_pure_apply (g : α → β) :
    (x >>= fun a => pure (g a)) s = ((x s).1.map g, (x s).2) := by
  cases h : x s with
  | mk outcome t =>
    cases outcome with
    | ok a => exact bind_of_ok h
    | error error => exact bind_of_error h

end

/-! ## Noted calls -/

section
variable {σ ε : Type} (hook : Hook σ ε)

/-- A rewrite of an expression calls the hook for a visit of it, behind the calls noted before. -/
def Hook.FollowsNode (e : Expr) : Prop :=
  ∀ w, ∃ inner xs answer made, Visits e.parts inner xs ∧
    Transcript (inner ++ [(e.withParts xs, answer)]) answer made (e.rewriteM hook.noted w).1 ∧
    (e.rewriteM hook.noted w).2.2 = w.2 ++ made

/-- Rewrites of expressions in order call the hook for a visit of them. -/
def Hook.FollowsEach (es : List Expr) : Prop :=
  ∀ w, ∃ visits xs made, Visits es visits xs ∧
    Transcript visits xs made (es.mapM (Expr.rewriteM hook.noted) w).1 ∧
    (es.mapM (Expr.rewriteM hook.noted) w).2.2 = w.2 ++ made

variable {hook}

theorem Hook.FollowsEach.node {e : Expr} (parts : hook.FollowsEach e.parts) :
    hook.FollowsNode e := by
  intro w
  obtain ⟨visits, xs, made, visited, transcript, noted⟩ := parts w
  rw [Expr.rewriteM_eq_parts]
  generalize run : e.parts.mapM (Expr.rewriteM hook.noted) w = result at transcript noted
  obtain ⟨_ | ys, t, calls⟩ := result
  · rw [bind_of_error run]
    exact ⟨visits, xs, e, made, visited, transcript.cut, noted⟩
  · obtain rfl : xs = ys := by
      cases transcript
      rfl
    rw [bind_of_ok run]
    obtain ⟨answer, behind⟩ := transcript.snoc (e.withParts xs) (hook (e.withParts xs) t).1
    refine ⟨visits, xs, answer, _, visited, behind, ?_⟩
    rw [← List.append_assoc, ← noted]
    rfl

theorem Hook.FollowsEach.ofNodes {es : List Expr} (each : ∀ e ∈ es, hook.FollowsNode e) :
    hook.FollowsEach es := by
  induction es with
  | nil =>
    intro w
    exact ⟨[], [], [], .nil, .answered, (List.append_nil w.2).symm⟩
  | cons e rest ih =>
    intro w
    obtain ⟨inner, xs, answer, made, visited, transcript, noted⟩ := each e List.mem_cons_self w
    have behind := ih fun x inside => each x (List.mem_cons_of_mem e inside)
    rw [List.mapM_cons]
    generalize run : e.rewriteM hook.noted w = result at transcript noted
    obtain ⟨_ | x, t, calls⟩ := result
    · obtain ⟨visits, ys, others⟩ := Visits.ofList rest
      rw [bind_of_error run]
      refine ⟨inner ++ (e.withParts xs, answer) :: visits, answer :: ys, made,
        .cons visited others, ?_, noted⟩
      rw [List.append_cons]
      exact transcript.cut
    · obtain rfl : answer = x := by
        cases transcript
        rfl
      obtain ⟨visits, ys, more, others, further, notedMore⟩ := behind (t, calls)
      rw [bind_of_ok run, bind_pure_apply]
      refine ⟨inner ++ (e.withParts xs, answer) :: visits, answer :: ys, made ++ more,
        .cons visited others, ?_, ?_⟩
      · rw [List.append_cons]
        exact transcript.append (further.map (answer :: ·))
      · rw [notedMore, ← List.append_assoc, ← noted]

variable (hook)

theorem Hook.followsEach (es : List Expr) : hook.FollowsEach es := by
  have node (e : Expr) : hook.FollowsNode e := by
    induction e using Expr.partwise with
    | step e parts => exact (Hook.FollowsEach.ofNodes parts).node
  exact .ofNodes fun e _ => node e

/-- A rewrite of a program makes the calls of a visit, up to the first that fails. -/
theorem Program.calls_visit (program : Program) (s : σ) :
    ∃ visits xs, Visits (program.map Stmt.value) visits xs ∧
      Transcript visits (withValues program xs) (program.calls hook s)
        (program.rewriteM hook.noted (s, [])).1 := by
  obtain ⟨visits, xs, made, visited, transcript, noted⟩ :=
    hook.followsEach (program.map Stmt.value) (s, [])
  refine ⟨visits, xs, visited, ?_⟩
  unfold Program.calls
  rw [Program.rewriteM_eq_parts, bind_pure_apply, noted]
  exact transcript.map (withValues program)

/-- A computation with notes does what one without them does. -/
def Hook.Unnoted (σ ε : Type) (α : Type) (x : ExceptT ε (StateM (σ × List (Call ε))) α)
    (y : ExceptT ε (StateM σ) α) : Prop :=
  ∀ w, (x w).1 = (y w.1).1 ∧ (x w).2.1 = (y w.1).2

theorem Hook.Unnoted.agreeing : Agreeing (Hook.Unnoted σ ε) where
  done _ _ := ⟨rfl, rfl⟩
  andThen := by
    intro α β x y f g first rest w
    obtain ⟨outcome, state⟩ := first w
    cases run : y w.1 with
    | mk ended t =>
      rw [run] at outcome state
      cases run' : x w with
      | mk ended' u =>
        rw [run'] at outcome state
        simp only at outcome state
        subst outcome state
        cases ended' with
        | ok a =>
          rw [bind_of_ok run, bind_of_ok run']
          exact rest a u
        | error error =>
          rw [bind_of_error run, bind_of_error run']
          exact ⟨rfl, rfl⟩

/-- Noting the calls changes neither what comes of a rewrite nor the state. -/
theorem Program.rewriteM_noted (program : Program) (s : σ) :
    program.rewriteM hook.noted (s, []) =
      ((program.rewriteM hook s).1, ((program.rewriteM hook s).2, program.calls hook s)) := by
  have related : Hook.Unnoted σ ε Program (program.rewriteM hook.noted) (program.rewriteM hook) :=
    Program.rewriteM_related Hook.Unnoted.agreeing (fun _ _ => ⟨rfl, rfl⟩) program
  obtain ⟨outcome, state⟩ := related (s, [])
  rw [← outcome, ← state]
  rfl

/-! ## Hooks that keep everything, and hooks that go on -/

/-- A computation gives this result from every state. -/
def Hook.Gives (σ ε : Type) (α : Type) (x : ExceptT ε (StateM σ) α) (a : Id α) : Prop :=
  ∀ s, (x s).1 = .ok a

theorem Hook.Gives.agreeing : Agreeing (Hook.Gives σ ε) where
  done _ _ := rfl
  andThen := by
    intro α β x a f g first rest s
    have result := first s
    cases run : x s with
    | mk outcome t =>
      rw [run] at result
      cases result
      rw [bind_of_ok run]
      exact rest a t

/-- A hook that keeps every node gives back the program. -/
theorem Program.rewriteM_kept (keeps : ∀ e s, (hook e s).1 = .ok e) (program : Program) (s : σ) :
    (program.rewriteM hook s).1 = .ok program := by
  have related : Hook.Gives σ ε Program (program.rewriteM hook)
      (program.rewriteM (pure : Expr → Id Expr)) :=
    Program.rewriteM_related Hook.Gives.agreeing keeps program
  rw [Program.rewriteM_pure] at related
  exact related s

/-- The second computation comes to what the first comes to, unless the first fails. Then the second
has made the same calls, and goes on with its own answer to the last of them. -/
def Hook.GoesOn (σ ε : Type) (α : Type) (x y : ExceptT ε (StateM (σ × List (Call ε))) α) : Prop :=
  ∀ w, w.2 <+: (y w).2.2 ∧
    ((∃ a u, x w = (.ok a, u) ∧ y w = (.ok a, u)) ∨
      ∃ error t before offered answer,
        x w = (.error error, (t, before ++ [⟨offered, .error error⟩])) ∧
        before ++ [⟨offered, answer⟩] <+: (y w).2.2)

theorem Hook.GoesOn.agreeing : Agreeing (Hook.GoesOn σ ε) where
  done a w := ⟨List.prefix_rfl, .inl ⟨a, w, rfl, rfl⟩⟩
  andThen := by
    intro α β x y f g first rest w
    obtain ⟨noted, ended⟩ := first w
    have longer : (y w).2.2 <+: ((y >>= g) w).2.2 := by
      cases run : y w with
      | mk outcome t =>
        cases outcome with
        | ok a =>
          rw [bind_of_ok run]
          exact (rest a t).1
        | error error =>
          have stopped : (y >>= g) w = (.error error, t) := bind_of_error run
          exact stopped ▸ List.prefix_rfl
    refine ⟨noted.trans longer, ?_⟩
    rcases ended with ⟨a, u, run, run'⟩ | ⟨error, t, before, offered, answer, run, same⟩
    · rw [bind_of_ok run, bind_of_ok run']
      exact (rest a u).2
    · rw [bind_of_error run]
      exact .inr ⟨error, t, before, offered, answer, rfl, same.trans longer⟩

theorem Hook.Spares.noted {spared : Hook σ ε} (spares : hook.Spares spared) (e : Expr) :
    Hook.GoesOn σ ε Expr (hook.noted e) (spared.noted e) := by
  intro w
  refine ⟨List.prefix_append _ _, ?_⟩
  cases run : hook e w.1 with
  | mk outcome t =>
    cases outcome with
    | ok x =>
      have run' := spares e w.1 x t run
      exact .inl ⟨x, (t, w.2 ++ [⟨e, .ok x⟩]), by simp only [Hook.noted, run],
        by simp only [Hook.noted, run']⟩
    | error error =>
      exact .inr ⟨error, t, w.2, e, (spared e w.1).1, by simp only [Hook.noted, run],
        List.prefix_rfl⟩

/-- Where a call fails, a hook that goes on has been called for the same before. -/
theorem Program.calls_spared {spared : Hook σ ε} (spares : hook.Spares spared) (program : Program)
    (s : σ) {before : List (Call ε)} {call : Call ε} {error : ε}
    (calls : program.calls hook s = before ++ [call]) (fails : call.answer = .error error) :
    ∃ answer, before ++ [⟨call.offered, answer⟩] <+: program.calls spared s := by
  have related : Hook.GoesOn σ ε Program (program.rewriteM hook.noted)
      (program.rewriteM spared.noted) :=
    Program.rewriteM_related Hook.GoesOn.agreeing spares.noted program
  obtain ⟨visits, xs, _, transcript⟩ := program.calls_visit hook s
  rw [calls] at transcript
  obtain ⟨_, outcome⟩ := transcript.last fails
  rcases (related (s, [])).2 with
    ⟨result, u, run, _⟩ | ⟨failure, t, made, offered, answer, run, same⟩
  · rw [run] at outcome
    cases outcome
  · have noted : program.calls hook s = made ++ [⟨offered, .error failure⟩] := by
      rw [Program.calls, run]
    obtain ⟨rfl, last⟩ := List.append_inj' (calls.symm.trans noted) rfl
    cases last
    exact ⟨answer, same⟩

end

/-- A rewrite of a program visits its expressions by its hook, and noting the calls changes nothing.
Every expression of the program is offered once and in order, the parts of an expression before it,
and nothing inside of an answer is offered. What is offered is the expression with the answers in
place of its parts, and the statements of the result are those of the program with the answers in
place of their expressions. A hook that gives back what it is offered gives back the program. When a
call fails, it is the last, the failure is what the rewrite comes to, and the calls are the first
that any hook gets which goes on there and does the same elsewhere. -/
theorem rewrite_visits {σ ε : Type} (program : Program) (hook : Hook σ ε) (s : σ) :
    program.rewriteM hook.noted (s, []) =
      ((program.rewriteM hook s).1, ((program.rewriteM hook s).2, program.calls hook s)) ∧
    (∃ visits xs, Visits (program.map Stmt.value) visits xs ∧ xs.length = program.length ∧
      List.Forall₂ Expr.Rebuilt program.nodes (visits.map Prod.fst) ∧
      Transcript visits (withValues program xs) (program.calls hook s)
        (program.rewriteM hook s).1) ∧
    ((∀ e t, (hook e t).1 = .ok e) → (program.rewriteM hook s).1 = .ok program) ∧
    ∀ before call after error, program.calls hook s = before ++ call :: after →
      call.answer = .error error →
      after = [] ∧ (program.rewriteM hook s).1 = .error error ∧
      ∀ spared, hook.Spares spared →
        ∃ answer, before ++ [⟨call.offered, answer⟩] <+: program.calls spared s := by
  have noted := program.rewriteM_noted hook s
  obtain ⟨visits, xs, visited, transcript⟩ := program.calls_visit hook s
  rw [noted] at transcript
  refine ⟨noted, ⟨visits, xs, visited, ?_, visited.rebuilds, transcript⟩, ?_, ?_⟩
  · rw [visited.length, List.length_map]
  · intro keeps
    exact program.rewriteM_kept hook keeps s
  · intro before call after error calls fails
    rw [calls] at transcript
    obtain ⟨rfl, outcome⟩ := transcript.last fails
    refine ⟨rfl, outcome, ?_⟩
    intro spared spares
    exact program.calls_spared hook spares s calls fails

def wrapping : Hook Nat String := fun e n => (.ok (.call e []), n + 1)

def wrappingTwice : Hook Nat String := fun e n =>
  if n < 2 then wrapping e n else (.error "enough", n)

/-- The program `let x = 1 + y; z`. -/
def summing : Program := [.bind "x" (.binary (.int 1) .add (.name "y")), .expr (.name "z")]

/-- The operands are offered first. The sum is offered with the calls that were put around them, but
these calls are not offered, and neither is `z`. -/
theorem rewrite_visits_third :
    wrappingTwice.Spares wrapping ∧
    summing.calls wrappingTwice 0 =
      [⟨.int 1, .ok (.call (.int 1) [])⟩, ⟨.name "y", .ok (.call (.name "y") [])⟩,
        ⟨.binary (.call (.int 1) []) .add (.call (.name "y") []), .error "enough"⟩] ∧
    (summing.rewriteM wrappingTwice 0).1 = .error "enough" ∧
    ∃ answer, [⟨.int 1, .ok (.call (.int 1) [])⟩, ⟨.name "y", .ok (.call (.name "y") [])⟩,
      ⟨.binary (.call (.int 1) []) .add (.call (.name "y") []), answer⟩] <+:
        summing.calls wrapping 0 := by
  have spares : wrappingTwice.Spares wrapping := by
    intro e n x t answered
    unfold wrappingTwice at answered
    split at answered
    · exact answered
    · cases answered
  have calls : summing.calls wrappingTwice 0 =
      [⟨.int 1, .ok (.call (.int 1) [])⟩, ⟨.name "y", .ok (.call (.name "y") [])⟩,
        ⟨.binary (.call (.int 1) []) .add (.call (.name "y") []), .error "enough"⟩] := rfl
  obtain ⟨_, _, _, stops⟩ := rewrite_visits summing wrappingTwice 0
  obtain ⟨_, outcome, first⟩ := stops [_, _] _ [] "enough" calls rfl
  exact ⟨spares, calls, outcome, first wrapping spares⟩

end Quasiquote
