import Quasiquote.Proofs.Reading.Spelling
import Quasiquote.Proofs.Reading.Descent

/-!
# Descent stays in bounds

Descent gives what reading gives. Where a rule is called, a reading is known that the tokens from
the cursor on are read by; where the rule returns, another one goes on with the rest.

* `Descent.Agrees`: the outcome of a rule, beside what reading gives for the same tokens.
  `Descent.Agrees.bind` and those behind it go through a rule step by step.
* `Descent.Ready`: what is known behind an operand. Descent has it in a variable; a reading may have
  parts of it waiting, but only such as the next token settles.
* `Descent.rules_agree`: all rules agree with reading, by induction on the tokens up to the end.
* `Descent.parse_in_bounds`: a parse ends, and reads tokens of the list only.
-/

namespace Quasiquote

/-- What is due behind the end of a parenthesis with this inside. -/
def Bracket.closed : Bracket → Expr → Due
  | .group, e => .follower e
  | .args callee before, e => .follower (.call callee (before ++ [e]))
  | .condition, e => .consequenceStart e

namespace Reading

variable {r q : Reading} {outer : List Suspended} {done : List Stmt} {place : Place} {e : Expr}
  {t : Token} {kind : TokenKind} {complaint : Complaint}

/-- Two readings go on alike in front of this token. -/
def Alike (r q : Reading) (t : Token) : Prop :=
  if t.kind = .eof then r.finish = q.finish else r.step t = q.step t

theorem Alike.run (h : r.Alike q t) (rest : List Token) :
    r.run (t :: rest) = q.run (t :: rest) := by
  unfold Alike at h
  rw [Reading.run, Reading.run]
  split at h
  · next eof => rw [if_pos eof, if_pos eof, h]
  · next more => rw [if_neg more, if_neg more, h]

theorem Alike.of_step (finish : r.finish = q.finish) (step : r.step t = q.step t) :
    r.Alike q t := by
  unfold Alike
  split
  · exact finish
  · exact step

/-- In front of this token, one of this kind is due: it leads to a reading, and any other is
refused. -/
structure Awaits (r : Reading) (kind : TokenKind) (complaint : Complaint) (t : Token)
    (q : Reading) : Prop where
  taken : t.kind = kind → r.step t = .ok q
  other : t.kind ≠ kind → r.Refuses t complaint

theorem Awaits.of_step (step : r.step t = if t.kind = kind then .ok q else .error complaint)
    (finish : r.finish = .error complaint) : r.Awaits kind complaint t q := by
  refine ⟨fun same => step.trans (if_pos same), fun other => ?_⟩
  unfold Refuses
  split
  · exact finish
  · exact step.trans (if_neg other)

theorem step_of_terminal (h : r.step t.terminal.token = .ok q) : r.step t = .ok q := by
  have taken := (r.step_toOption t).trans (take_eq_some.mpr h)
  cases step : r.step t with
  | error complaint => simp [step, Except.toOption] at taken
  | ok next => simpa [step, Except.toOption] using taken

/-- What a reading comes to that takes the first token of such an operand. -/
def start (r : Reading) (place : Place) : Start → Reading
  | .literal e => r.await place (.follower e)
  | .sign op => r.await (place.await (.unary op)) .operand
  | .group => r.await (place.enter .group) .operand
  | .condition => r.await place .conditionStart
  | .routine role => r.await place (.paramsStart role)

theorem readOperand_of_some {s : Start} (h : t.start? = some s) :
    r.readOperand place t = .ok (r.start place s) := by
  obtain ⟨kind, lexeme, line⟩ := t
  cases kind with
  | mark m => cases m <;> cases h <;> rfl
  | keyword k => cases k <;> cases h <;> rfl
  | _ => cases h <;> rfl

theorem readOperand_of_none (h : t.start? = none) :
    r.readOperand place t = .error (.noExpression (some t.lexeme)) := by
  obtain ⟨kind, lexeme, line⟩ := t
  cases kind with
  | mark m => cases m <;> first | rfl | cases h
  | keyword k => cases k <;> first | rfl | cases h
  | _ => first | rfl | cases h

/-- What goes on with no operand is read by what is around it. -/
theorem step_of_quiet (quiet : t.kind.precedence = 0) :
    step ⟨outer, done, .within place (.follower e)⟩ t =
      readEnd ⟨outer, done, .within place (.follower e)⟩ place e t := by
  obtain ⟨paren, operator⟩ := TokenKind.quiet_of_precedence quiet
  simp only [Reading.step, readWithin, readFollower, if_neg paren, operator]

/-- An open parenthesis is closed, where nothing goes on with what is in it. -/
theorem awaits_close {bracket : Bracket} (quiet : t.kind.precedence = 0)
    (apart : ∀ callee before, bracket = .args callee before → t.kind ≠ .mark .comma) :
    Awaits ⟨outer, done, .within (place.enter bracket) (.follower e)⟩ (.mark .rightParen)
      bracket.unclosed t ⟨outer, done, .within place (bracket.closed e)⟩ := by
  constructor
  · intro same
    rw [step_of_quiet quiet]
    cases bracket <;> simp only [readEnd, Place.enter, same] <;> rfl
  · intro other
    unfold Refuses
    split
    · cases bracket <;> rfl
    · rw [step_of_quiet quiet]
      cases bracket <;> simp [readEnd, Place.enter, other, Bracket.unclosed]

end Reading

namespace Descent

variable {tokens : List Token} {stop i low : Nat} {t : Token} {α β : Type}

/-- The outcome of a rule agrees with what reading gives: either the rule gives something and has
moved its cursor at least so far, and from there a reading with this property gives the same
program; or the program is refused with the same error. -/
inductive Agrees (tokens : List Token) (stop low : Nat) (program : Except SyntaxError Program)
    (Post : α → Token → Reading → Prop) : Option (Except Stop (α × Nat)) → Prop
  | returned {a j t q} (le : low ≤ j) (on : On tokens stop j t) (post : Post a t q)
      (same : program = q.run (tokens.drop j)) :
      Agrees tokens stop low program Post (some (.ok (a, j)))
  | refused {error} (same : program = .error error) :
      Agrees tokens stop low program Post (some (.error (.refused error)))

namespace On

variable {r q : Reading} {complaint : Complaint}

theorem run_step (on : On tokens stop i t) (more : t.kind ≠ .eof) (step : r.step t = .ok q) :
    r.run (tokens.drop i) = q.run (tokens.drop (i + 1)) := by
  rw [on.drop, Reading.run, if_neg more, step]

theorem run_refuses (on : On tokens stop i t) (refuses : r.Refuses t complaint) :
    r.run (tokens.drop i) = .error ⟨t.line, complaint⟩ := by
  rw [on.drop, refuses.run]

theorem run_alike (on : On tokens stop i t) (alike : r.Alike q t) :
    r.run (tokens.drop i) = q.run (tokens.drop i) := by
  rw [on.drop, alike.run]

end On

namespace Agrees

variable {program : Except SyntaxError Program} {r q : Reading} {kind : TokenKind}
  {complaint : Complaint} {x : Parse α} {f : α → Parse β} {Q : α → Token → Reading → Prop}
  {Post : β → Token → Reading → Prop} {outcome : Option (Except Stop (β × Nat))} {low' : Nat}

theorem pure {b : β} (on : On tokens stop i t) (le : low ≤ i) (post : Post b t r) :
    Agrees tokens stop low (r.run (tokens.drop i)) Post ((Pure.pure b : Parse β) i) :=
  .returned le on post rfl

theorem bind (h : Agrees tokens stop low program Q (x i))
    (next : ∀ a j t q, low ≤ j → On tokens stop j t → Q a t q →
      Agrees tokens stop low' (q.run (tokens.drop j)) Post (f a j)) :
    Agrees tokens stop low' program Post ((x >>= f) i) := by
  generalize value : x i = outcome at h
  cases h with
  | returned le on post same =>
    rw [bind_of_returned value, same]
    exact next _ _ _ _ le on post
  | refused same =>
    rw [bind_of_stopped value]
    exact .refused same

theorem lower (h : Agrees tokens stop low program Post outcome) (le : low' ≤ low) :
    Agrees tokens stop low' program Post outcome := by
  cases h with
  | returned le' on post same => exact .returned (Nat.le_trans le le') on post same
  | refused same => exact .refused same

theorem consume {f : Token → Parse β} (on : On tokens stop i t) (real : kind ≠ .eof)
    (awaits : r.Awaits kind complaint t q)
    (next : ∀ u, t.kind = kind → On tokens stop (i + 1) u →
      Agrees tokens stop low (q.run (tokens.drop (i + 1))) Post (f t (i + 1))) :
    Agrees tokens stop low (r.run (tokens.drop i)) Post
      ((Descent.consume tokens kind complaint >>= f) i) := by
  by_cases same : t.kind = kind
  · subst same
    obtain ⟨u, onNext⟩ := on.next real
    rw [bind_of_returned (on.consume_eq real complaint), on.run_step real (awaits.taken rfl)]
    exact next u rfl onNext
  · rw [bind_of_stopped (on.consume_other real same complaint),
      on.run_refuses (awaits.other same)]
    exact .refused rfl

theorem accept {f : Bool → Parse β} (on : On tokens stop i t) (real : kind ≠ .eof)
    (yes : ∀ u, t.kind = kind → On tokens stop (i + 1) u →
      Agrees tokens stop low (r.run (tokens.drop i)) Post (f true (i + 1)))
    (no : t.kind ≠ kind → Agrees tokens stop low (r.run (tokens.drop i)) Post (f false i)) :
    Agrees tokens stop low (r.run (tokens.drop i)) Post
      ((Descent.accept tokens kind >>= f) i) := by
  by_cases same : t.kind = kind
  · subst same
    obtain ⟨u, onNext⟩ := on.next real
    rw [bind_of_returned (on.accept_eq real)]
    exact yes u rfl onNext
  · rw [bind_of_returned (on.accept_other real same)]
    exact no same

theorem check {f : Bool → Parse β} (on : On tokens stop i t) (real : kind ≠ .eof)
    (yes : t.kind = kind → Agrees tokens stop low program Post (f true i))
    (no : t.kind ≠ kind → Agrees tokens stop low program Post (f false i)) :
    Agrees tokens stop low program Post ((Descent.check tokens kind >>= f) i) := by
  rw [bind_of_returned (on.check_eq real)]
  by_cases same : t.kind = kind
  · rw [beq_iff_eq.mpr same]
    exact yes same
  · rw [beq_false_of_ne same]
    exact no same

end Agrees

/-! ## Operands -/

variable {outer : List Suspended} {done : List Stmt} {place : Place} {e : Expr} {q : Reading}

/-- The operand has been read from the place on, and nothing that waits in it binds looser than the
next token does. -/
structure Ready (outer : List Suspended) (done : List Stmt) (place : Place) (e : Expr) (t : Token)
    (q : Reading) : Prop where
  holds : Reading.Holds outer done place t.kind.precedence e q
  follower : ∃ inside x, q.phase = .within inside (.follower x)

theorem ready_follower : Ready outer done place e t ⟨outer, done, .within place (.follower e)⟩ :=
  ⟨.follower, place, e, rfl⟩

theorem Ready.complete {p : Pending} (h : Ready outer done (place.await p) e t q)
    (le : t.kind.precedence ≤ p.strength) : Ready outer done place (p.complete e) t q :=
  ⟨h.holds.complete (Nat.le_refl _) le, h.follower⟩

/-- Where nothing waits outside of the operand, a token that does not go on with it settles it. -/
theorem Ready.alike (h : Ready outer done place e t q) (fresh : place.waiting = [])
    (quiet : t.kind.precedence = 0) : q.Alike ⟨outer, done, .within place (.follower e)⟩ t := by
  obtain ⟨head, nests, waiting⟩ := place
  obtain rfl : waiting = [] := fresh
  obtain ⟨⟨us, due, -, rfl⟩, inside, x, phase⟩ := h
  cases due with
  | consequence => cases phase
  | operand =>
    rw [List.append_nil]
    refine .of_step rfl ?_
    rw [Reading.step_of_quiet quiet, Reading.step_of_quiet quiet]
    rfl

/-! ## Parameters -/

section

variable {role : Role}

/-- Behind a parameter, or where the first one is due, these are all if the list ends here. -/
theorem params_agree (before : List String) {r : Reading} {i : Nat} {t : Token}
    (on : On tokens stop i t) (le : low ≤ i)
    (awaits : r.Awaits .identifier .noParamName t
      ⟨outer, done, .within place (.afterParam role (before ++ [t.lexeme]))⟩) :
    Agrees tokens stop low (r.run (tokens.drop i))
      (fun names t q => q.Awaits (.mark .rightParen) .unclosedParams t
        ⟨outer, done, .within place (.bodyStart role names)⟩)
      (params tokens before i) := by
  rw [params]
  refine .consume on (by decide) awaits fun u _ onNext => ?_
  refine .accept onNext (by decide) (fun v comma onThird => ?_) fun other => ?_
  · have step :
        Reading.step ⟨outer, done, .within place (.afterParam role (before ++ [t.lexeme]))⟩ u =
        .ok ⟨outer, done, .within place (.nextParam role (before ++ [t.lexeme]))⟩ := by
      simp only [Reading.step, Reading.readWithin, if_pos comma]
      rfl
    rw [onNext.run_step (comma ▸ by decide) step]
    exact params_agree _ onThird (by omega) (.of_step rfl rfl)
  · refine .pure onNext (by omega) (.of_step ?_ rfl)
    simp only [Reading.step, Reading.readWithin, if_neg other]
    rfl
termination_by stop - i
decreasing_by
  have := onThird.le
  omega

theorem optionalParams_agree (on : On tokens stop i t) (le : low ≤ i) :
    Agrees tokens stop low
      (Reading.run ⟨outer, done, .within place (.firstParam role)⟩ (tokens.drop i))
      (fun names t q => q.Awaits (.mark .rightParen) .unclosedParams t
        ⟨outer, done, .within place (.bodyStart role names)⟩)
      (optionalParams tokens i) := by
  rw [optionalParams]
  refine .check on (by decide) (fun paren => ?_) fun other => ?_
  · refine .pure on le ⟨fun _ => ?_, fun other => absurd paren other⟩
    simp only [Reading.step, Reading.readWithin, if_pos paren]
    rfl
  · refine params_agree [] on le (.of_step ?_ rfl)
    simp only [Reading.step, Reading.readWithin, if_neg other]
    rfl

end

/-! ## What a rule agrees with -/

/-- From this cursor on, the rules that call themselves agree with reading. -/
structure Rules (tokens : List Token) (stop i : Nat) : Prop where
  expression : ∀ {t outer done place precedence}, On tokens stop i t →
    Closed (precedence + 1) place.waiting →
    Agrees tokens stop (i + 1)
      (Reading.run ⟨outer, done, .within place .operand⟩ (tokens.drop i))
      (fun e t q => t.kind.precedence ≤ precedence ∧ Ready outer done place e t q)
      (expression tokens precedence i)
  continuations : ∀ {t q outer done place precedence left}, On tokens stop i t →
    Closed (precedence + 1) place.waiting → Ready outer done place left t q →
    Agrees tokens stop i (q.run (tokens.drop i))
      (fun e t q => t.kind.precedence ≤ precedence ∧ Ready outer done place e t q)
      (continuations tokens precedence left i)
  block : ∀ {t s outer done}, On tokens stop i t →
    Agrees tokens stop (i + 1) (Reading.run ⟨s :: outer, done, .statement⟩ (tokens.drop i))
      (fun b _ q => q = ⟨outer, s.done, .within s.place (s.blockUse.complete b)⟩)
      (block tokens done i)
  args : ∀ {t outer done place callee before}, On tokens stop i t →
    Agrees tokens stop (i + 1)
      (Reading.run ⟨outer, done, .within (place.enter (.args callee before)) .operand⟩
        (tokens.drop i))
      (fun xs t q => q.Awaits (.mark .rightParen) .unclosedArgs t
        ⟨outer, done, .within place (.follower (.call callee xs))⟩)
      (args tokens before i)

def RulesBehind (tokens : List Token) (stop i : Nat) : Prop :=
  ∀ j, i < j → j ≤ stop → Rules tokens stop j

theorem RulesBehind.mono {j : Nat} (rules : RulesBehind tokens stop i) (le : i ≤ j) :
    RulesBehind tokens stop j := fun k lt => rules k (Nat.lt_of_le_of_lt le lt)

/-- Where nothing waits outside of an expression, it is settled at its end. -/
theorem Agrees.settled {program : Except SyntaxError Program}
    {outcome : Option (Except Stop (Expr × Nat))} (fresh : place.waiting = [])
    (h : Agrees tokens stop low program
      (fun e t q => t.kind.precedence ≤ 0 ∧ Ready outer done place e t q) outcome) :
    Agrees tokens stop low program
      (fun e t q => t.kind.precedence = 0 ∧ q = ⟨outer, done, .within place (.follower e)⟩)
      outcome := by
  cases h with
  | returned le on post same =>
    have quiet := Nat.le_zero.mp post.1
    have alike := post.2.alike fresh quiet
    exact .returned le on ⟨quiet, rfl⟩ (same.trans (on.run_alike alike))
  | refused same => exact .refused same

theorem Rules.settled (rules : Rules tokens stop i) (on : On tokens stop i t)
    (fresh : place.waiting = []) :
    Agrees tokens stop (i + 1)
      (Reading.run ⟨outer, done, .within place .operand⟩ (tokens.drop i))
      (fun e t q => t.kind.precedence = 0 ∧ q = ⟨outer, done, .within place (.follower e)⟩)
      (Descent.expression tokens 0 i) :=
  .settled fresh (rules.expression on (fresh ▸ closed_nil 1))

theorem condition_agrees (rules : RulesBehind tokens stop i) (on : On tokens stop i t) :
    Agrees tokens stop i (Reading.run ⟨outer, done, .within place .conditionStart⟩ (tokens.drop i))
      (Ready outer done place) (condition tokens i) := by
  rw [condition]
  refine .consume on (by decide) (.of_step rfl rfl) fun u _ onTest => ?_
  refine ((rules (i + 1) (by omega) onTest.le).settled onTest rfl).bind ?_
  rintro test j t q le onParen ⟨quiet, rfl⟩
  refine .consume onParen (by decide) (Reading.awaits_close quiet (by simp)) fun u _ onBrace => ?_
  refine .consume onBrace (by decide) (.of_step rfl rfl) fun u _ onBlock => ?_
  refine ((rules (j + 1 + 1) (by omega) onBlock.le).block onBlock).bind ?_
  rintro consequence k t q le' onElse rfl
  refine .accept onElse (by decide) (fun u isElse onBrace => ?_) fun other => ?_
  · have step : Reading.step ⟨outer, done, .within place (.afterConsequence test consequence)⟩ t =
        .ok ⟨outer, done, .within place (.alternativeStart test consequence)⟩ := by
      simp only [Reading.step, Reading.readWithin, if_pos isElse]
      rfl
    rw [BlockUse.complete, onElse.run_step (isElse ▸ by decide) step]
    refine .consume onBrace (by decide) (.of_step rfl rfl) fun u _ onBlock => ?_
    refine ((rules (k + 1 + 1) (by omega) onBlock.le).block onBlock).bind ?_
    rintro alternative l t q le'' on rfl
    exact .pure on (by omega) ready_follower
  · -- Reading keeps the condition open for an `else`, but no other token makes a difference to it.
    have alike : Reading.Alike ⟨outer, done, .within place (.afterConsequence test consequence)⟩
        ⟨outer, done, .within place (.follower (.cond test consequence none))⟩ t := by
      refine .of_step rfl ?_
      simp only [Reading.step, Reading.readWithin, if_neg other]
      rfl
    rw [BlockUse.complete, onElse.run_alike alike]
    exact .pure onElse (by omega) ready_follower

theorem routine_agrees (rules : RulesBehind tokens stop i) (on : On tokens stop i t)
    (role : Role) :
    Agrees tokens stop i
      (Reading.run ⟨outer, done, .within place (.paramsStart role)⟩ (tokens.drop i))
      (Ready outer done place) (routine tokens role i) := by
  rw [routine]
  refine .consume on (by decide) (.of_step rfl rfl) fun u _ onNames => ?_
  refine (optionalParams_agree onNames (Nat.le_refl _)).bind ?_
  intro names j t q le onParen awaits
  refine .consume onParen (by decide) awaits fun u _ onBrace => ?_
  refine .consume onBrace (by decide) (.of_step rfl rfl) fun u _ onBlock => ?_
  refine ((rules (j + 1 + 1) (by omega) onBlock.le).block onBlock).bind ?_
  rintro body k t q le' on rfl
  exact .pure on (by omega) ready_follower

theorem call_agrees (rules : Rules tokens stop i) (on : On tokens stop i t) (callee : Expr) :
    Agrees tokens stop i
      (Reading.run ⟨outer, done, .within place (.firstArg callee)⟩ (tokens.drop i))
      (Ready outer done place) (call tokens callee i) := by
  have list : Agrees tokens stop i
      (Reading.run ⟨outer, done, .within place (.firstArg callee)⟩ (tokens.drop i))
      (fun xs t q => q.Awaits (.mark .rightParen) .unclosedArgs t
        ⟨outer, done, .within place (.follower (.call callee xs))⟩)
      (optionalArgs tokens i) := by
    rw [optionalArgs]
    refine .check on (by decide) (fun paren => ?_) fun other => ?_
    · refine .pure on (Nat.le_refl i) ⟨fun _ => ?_, fun other => absurd paren other⟩
      simp only [Reading.step, Reading.readWithin, if_pos paren]
      rfl
    · have alike : Reading.Alike ⟨outer, done, .within place (.firstArg callee)⟩
          ⟨outer, done, .within (place.enter (.args callee [])) .operand⟩ t := by
        refine .of_step rfl ?_
        simp only [Reading.step, Reading.readWithin, if_neg other]
        rfl
      rw [on.run_alike alike]
      exact (rules.args on).lower (Nat.le_succ i)
  rw [call]
  refine list.bind ?_
  intro xs j t q le onParen awaits
  refine .consume onParen (by decide) awaits fun u _ on => ?_
  exact .pure on (by omega) ready_follower

theorem operandFrom_agrees (rules : RulesBehind tokens stop i) (on : On tokens stop i t)
    (more : t.kind ≠ .eof) :
    Agrees tokens stop (i + 1)
      (Reading.run ⟨outer, done, .within place .operand⟩ (tokens.drop i))
      (Ready outer done place) (operandFrom tokens t (i + 1)) := by
  rw [operandFrom]
  cases start : t.start? with
  | none =>
    have refuses : Reading.Refuses ⟨outer, done, .within place .operand⟩ t
        (.noExpression (some t.lexeme)) := by
      rw [Reading.Refuses, if_neg more]
      exact Reading.readOperand_of_none start
    rw [on.run_refuses refuses]
    exact .refused rfl
  | some s =>
    obtain ⟨u, onNext⟩ := on.next more
    have step : Reading.step ⟨outer, done, .within place .operand⟩ t = .ok _ :=
      Reading.readOperand_of_some start
    rw [on.run_step more step]
    cases s with
    | literal e => exact .pure onNext (Nat.le_refl _) ready_follower
    | sign op =>
      have tight : Closed (op.strength + 1) (place.await (.unary op)).waiting :=
        closed_tight (Nat.le_succ 5) _
      refine ((rules (i + 1) (by omega) onNext.le).expression onNext tight).bind ?_
      rintro e j t q le on ⟨bound, ready⟩
      exact .returned (by omega) on (ready.complete bound) rfl
    | group =>
      refine ((rules (i + 1) (by omega) onNext.le).settled onNext rfl).bind ?_
      rintro e j t q le onParen ⟨quiet, rfl⟩
      refine .consume onParen (by decide) (Reading.awaits_close quiet (by simp)) fun u _ on => ?_
      exact .pure on (by omega) ready_follower
    | condition => exact condition_agrees (rules.mono (Nat.le_succ i)) onNext
    | routine role => exact routine_agrees (rules.mono (Nat.le_succ i)) onNext role

theorem operand_agrees (rules : RulesBehind tokens stop i) (on : On tokens stop i t) :
    Agrees tokens stop (i + 1)
      (Reading.run ⟨outer, done, .within place .operand⟩ (tokens.drop i))
      (Ready outer done place) (operand tokens i) := by
  rw [operand, bind_of_returned on.isAtEnd_eq]
  split
  · next last =>
    have refuses : Reading.Refuses ⟨outer, done, .within place .operand⟩ t
        (.noExpression none) := by
      rw [Reading.Refuses, if_pos (beq_iff_eq.mp last)]
      rfl
    rw [bind_of_returned on.peek_eq, on.run_refuses refuses]
    exact .refused rfl
  · next more =>
    have more : t.kind ≠ .eof := by simpa using more
    rw [bind_of_returned (on.advance_eq more)]
    exact operandFrom_agrees rules on more

/-- Behind an operator or a parenthesis that goes on with an operand. -/
theorem continuation_agrees {left : Expr} {precedence : Nat} (rules : RulesBehind tokens stop i)
    (on : On tokens stop i t) (closed : Closed (precedence + 1) place.waiting)
    (ready : Ready outer done place left t q) (tighter : precedence < t.kind.precedence) :
    Agrees tokens stop (i + 1) (q.run (tokens.drop i)) (Ready outer done place)
      (continuation tokens left t (i + 1)) := by
  have more : t.kind ≠ .eof := by
    intro eof
    rw [eof] at tighter
    cases tighter
  obtain ⟨u, onNext⟩ := on.next more
  rw [continuation]
  by_cases paren : t.kind = .mark .leftParen
  · have step : q.step t = .ok ⟨outer, done, .within place (.firstArg left)⟩ := by
      have holds := ready.holds
      rw [paren] at holds
      apply Reading.step_of_terminal
      rw [show t.terminal = .mark .leftParen by simp [Token.terminal, paren]]
      exact holds.openArgs
    rw [if_pos paren, on.run_step more step]
    exact call_agrees (rules (i + 1) (by omega) onNext.le) onNext left
  · obtain ⟨op, isOp⟩ := TokenKind.binaryOp?_of_precedence (by omega) paren
    have strength := TokenKind.precedence_of_binaryOp? isOp
    have step : q.step t = .ok ⟨outer, done, .within (place.await (.binary left op)) .operand⟩ := by
      have holds := ready.holds
      rw [strength] at holds
      apply Reading.step_of_terminal
      rw [show t.terminal = .mark op.mark by
        simp [Token.terminal, TokenKind.eq_mark_of_binaryOp? isOp]]
      exact holds.operator (closed.mono (by omega))
    rw [if_neg paren, isOp, on.run_step more step, strength]
    have waits : Closed (op.strength + 1) (place.await (.binary left op)).waiting :=
      closed_binary left op place.waiting
    refine ((rules (i + 1) (by omega) onNext.le).expression onNext waits).bind ?_
    rintro right j t q le on ⟨bound, ready⟩
    exact .returned (by omega) on (ready.complete bound) rfl

theorem continuations_agree {left : Expr} {precedence : Nat} (rules : RulesBehind tokens stop i)
    (on : On tokens stop i t) (closed : Closed (precedence + 1) place.waiting)
    (ready : Ready outer done place left t q) :
    Agrees tokens stop i (q.run (tokens.drop i))
      (fun e t q => t.kind.precedence ≤ precedence ∧ Ready outer done place e t q)
      (continuations tokens precedence left i) := by
  rw [continuations, bind_of_returned (on.check_eq (by decide)), bind_of_returned on.isAtEnd_eq]
  split
  · next ended =>
    have loose : t.kind.precedence ≤ precedence := by
      obtain kind | kind : t.kind = .mark .semicolon ∨ t.kind = .eof := by simpa using ended
      all_goals
        rw [kind]
        exact Nat.zero_le _
    exact .pure on (Nat.le_refl i) ⟨loose, ready⟩
  · rw [bind_of_returned on.peek_eq]
    split
    · next tighter =>
      have more : t.kind ≠ .eof := by
        intro eof
        rw [eof] at tighter
        cases tighter
      rw [bind_of_returned (on.advance_eq more)]
      refine (continuation_agrees rules on closed ready tighter).bind ?_
      intro e j t q le on ready
      exact ((rules j le on.le).continuations on closed ready).lower (by omega)
    · next loose => exact .pure on (Nat.le_refl i) ⟨by omega, ready⟩

theorem expression_agrees {precedence : Nat} (rules : RulesBehind tokens stop i)
    (on : On tokens stop i t) (closed : Closed (precedence + 1) place.waiting) :
    Agrees tokens stop (i + 1)
      (Reading.run ⟨outer, done, .within place .operand⟩ (tokens.drop i))
      (fun e t q => t.kind.precedence ≤ precedence ∧ Ready outer done place e t q)
      (expression tokens precedence i) := by
  rw [expression]
  refine (operand_agrees rules on).bind ?_
  intro left j t q le on ready
  exact ((rules j le on.le).continuations on closed ready).lower (by omega)

/-! ## Statements -/

theorem valueOf_agrees {head : Head} (rules : RulesBehind tokens stop i)
    (on : On tokens stop i t) :
    Agrees tokens stop (i + 1)
      (Reading.run ⟨outer, done, .within (.first head) .operand⟩ (tokens.drop i))
      (fun s _ q => q = ⟨outer, done ++ [s], .statement⟩) (valueOf tokens head i) := by
  rw [valueOf]
  refine (Agrees.settled rfl (expression_agrees rules on (closed_nil 1))).bind ?_
  rintro e j t q le on ⟨quiet, rfl⟩
  have ends : Reading.step ⟨outer, done, .within (.first head) (.follower e)⟩ t =
      if t.kind = .mark .semicolon then .ok ⟨outer, done ++ [head.complete e], .statement⟩
      else Reading.step ⟨outer, done ++ [head.complete e], .statement⟩ t := by
    rw [Reading.step_of_quiet quiet]
    rfl
  refine .accept on (by decide) (fun u semicolon onNext => ?_) fun other => ?_
  · rw [on.run_step (semicolon ▸ by decide) (ends.trans (if_pos semicolon))]
    exact .pure onNext (by omega) rfl
  · have alike : Reading.Alike ⟨outer, done, .within (.first head) (.follower e)⟩
        ⟨outer, done ++ [head.complete e], .statement⟩ t :=
      .of_step rfl (ends.trans (if_neg other))
    rw [on.run_alike alike]
    exact .pure on (by omega) rfl

theorem statement_agrees (rules : RulesBehind tokens stop i) (on : On tokens stop i t)
    (more : t.kind ≠ .eof) (inside : t.kind = .mark .rightBrace → outer = []) :
    Agrees tokens stop (i + 1) (Reading.run ⟨outer, done, .statement⟩ (tokens.drop i))
      (fun s _ q => q = ⟨outer, done ++ [s], .statement⟩) (statement tokens i) := by
  rw [statement, bind_of_returned on.peek_eq]
  refine .accept on (by decide) (fun u isLet onName => ?_) fun notLet => ?_
  · have step : Reading.step ⟨outer, done, .statement⟩ t = .ok ⟨outer, done, .bindingName⟩ := by
      simp only [Reading.step, Reading.readStatement, isLet]
    rw [on.run_step more step]
    show Agrees _ _ _ _ _ (binding tokens (i + 1))
    rw [binding]
    refine .consume onName (by decide) (.of_step rfl rfl) fun v _ onSign => ?_
    refine .consume onSign (by decide) (.of_step rfl rfl) fun v _ onValue => ?_
    exact (valueOf_agrees (rules.mono (by omega)) onValue).lower (by omega)
  show Agrees _ _ _ _ _ ((accept tokens (.keyword .returnWord) >>= _) i)
  refine .accept on (by decide) (fun u isReturn onValue => ?_) fun notReturn => ?_
  · have step : Reading.step ⟨outer, done, .statement⟩ t =
        .ok ⟨outer, done, .within (.first .ret) .operand⟩ := by
      simp only [Reading.step, Reading.readStatement, isReturn]
      rfl
    rw [on.run_step more step]
    exact (valueOf_agrees (rules.mono (by omega)) onValue).lower (by omega)
  · have alike : Reading.Alike ⟨outer, done, .statement⟩
        ⟨outer, done, .within (.first .expr) .operand⟩ t := by
      rw [Reading.Alike, if_neg more]
      show Reading.readStatement _ t = Reading.readOperand _ _ t
      unfold Reading.readStatement
      split
      · next isLet => exact absurd isLet notLet
      · next isReturn => exact absurd isReturn notReturn
      · next brace =>
        cases inside brace
        rfl
      · rfl
    rw [on.run_alike alike]
    exact valueOf_agrees rules on

theorem block_agrees {s : Suspended} (rules : RulesBehind tokens stop i)
    (on : On tokens stop i t) :
    Agrees tokens stop (i + 1) (Reading.run ⟨s :: outer, done, .statement⟩ (tokens.drop i))
      (fun b _ q => q = ⟨outer, s.done, .within s.place (s.blockUse.complete b)⟩)
      (block tokens done i) := by
  rw [block, bind_of_returned (on.check_eq (by decide)), bind_of_returned on.isAtEnd_eq]
  split
  · next ended =>
    have kind : t.kind = .mark .rightBrace ∨ t.kind = .eof := by simpa using ended
    have awaits : Reading.Awaits ⟨s :: outer, done, .statement⟩ (.mark .rightBrace) .unclosedBlock t
        ⟨outer, s.done, .within s.place (s.blockUse.complete done)⟩ := by
      constructor
      · intro brace
        simp only [Reading.step, Reading.readStatement, brace]
      · intro other
        rw [Reading.Refuses, if_pos (kind.resolve_left other)]
        rfl
    exact .consume on (by decide) awaits fun u _ onNext => .pure onNext (Nat.le_refl _) rfl
  · next more =>
    obtain ⟨notBrace, notEnd⟩ : t.kind ≠ .mark .rightBrace ∧ t.kind ≠ .eof := by simpa using more
    refine (statement_agrees rules on notEnd fun brace => absurd brace notBrace).bind ?_
    rintro first j t q le on rfl
    exact ((rules j le on.le).block on).lower (by omega)

theorem args_agree {callee : Expr} {before : List Expr} (rules : RulesBehind tokens stop i)
    (on : On tokens stop i t) :
    Agrees tokens stop (i + 1)
      (Reading.run ⟨outer, done, .within (place.enter (.args callee before)) .operand⟩
        (tokens.drop i))
      (fun xs t q => q.Awaits (.mark .rightParen) .unclosedArgs t
        ⟨outer, done, .within place (.follower (.call callee xs))⟩)
      (args tokens before i) := by
  rw [args]
  refine (Agrees.settled rfl (expression_agrees rules on (closed_nil 1))).bind ?_
  rintro x j t q le on ⟨quiet, rfl⟩
  refine .accept on (by decide) (fun u comma onNext => ?_) fun other => ?_
  · have step : Reading.step
        ⟨outer, done, .within (place.enter (.args callee before)) (.follower x)⟩ t =
        .ok ⟨outer, done, .within (place.enter (.args callee (before ++ [x]))) .operand⟩ := by
      obtain ⟨kind, lexeme, line⟩ := t
      subst comma
      rfl
    rw [on.run_step (comma ▸ by decide) step]
    exact ((rules (j + 1) (by omega) onNext.le).args onNext).lower (by omega)
  · exact .pure on (by omega) (Reading.awaits_close quiet fun _ _ _ => other)

/-- From every cursor, the rules agree with reading: by induction on the tokens up to the end, which
are fewer wherever one of these rules calls another, but for the expression that a statement or an
argument starts with. -/
theorem rules_agree (tokens : List Token) (stop i : Nat) : Rules tokens stop i := by
  have behind : RulesBehind tokens stop i := fun j _ _ => rules_agree tokens stop j
  exact ⟨expression_agrees behind, continuations_agree behind, block_agrees behind,
    args_agree behind⟩
termination_by stop - i

/-- Where no block is open, the statements up to the end are read. -/
theorem statements_agree {i : Nat} {t : Token} {done : List Stmt} (on : On tokens stop i t) :
    Agrees tokens stop i (Reading.run ⟨[], done, .statement⟩ (tokens.drop i))
      (fun p t q => t.kind = .eof ∧ q = ⟨[], p, .statement⟩) (statements tokens done i) := by
  rw [statements, bind_of_returned on.isAtEnd_eq]
  split
  · next last => exact .pure on (Nat.le_refl i) ⟨beq_iff_eq.mp last, rfl⟩
  · next more =>
    have more : t.kind ≠ .eof := by simpa using more
    refine (statement_agrees (fun j _ _ => rules_agree tokens stop j) on more fun _ => rfl).bind ?_
    rintro s j t q le on rfl
    exact (statements_agree on).lower (by omega)
termination_by stop - i
decreasing_by
  have := on.le
  omega

/-- The outcome of a rule is something, with the cursor moved on but not behind this number, or that
a program is refused. -/
def Advances (i stop : Nat) (outcome : Option (Except Stop (α × Nat))) : Prop :=
  (∃ a j, outcome = some (.ok (a, j)) ∧ i < j ∧ j ≤ stop) ∨
    ∃ error, outcome = some (.error (.refused error))

theorem Agrees.advances {program : Except SyntaxError Program} {Post : α → Token → Reading → Prop}
    {outcome : Option (Except Stop (α × Nat))}
    (h : Agrees tokens stop (i + 1) program Post outcome) : Advances i stop outcome := by
  cases h with
  | returned le on => exact .inl ⟨_, _, rfl, le, on.le⟩
  | refused => exact .inr ⟨_, rfl⟩

theorem statement_advances (on : On tokens stop i t) : Advances i stop (statement tokens i) := by
  have behind : RulesBehind tokens stop i := fun j _ _ => rules_agree tokens stop j
  by_cases last : t.kind = .eof
  · -- At the end no statement is due any more, but the operand of one is refused there.
    have value : statement tokens i = valueOf tokens .expr i := by
      rw [statement, bind_of_returned on.peek_eq,
        bind_of_returned (on.accept_other (by decide) (by simp [last]))]
      exact bind_of_returned (on.accept_other (by decide) (by simp [last]))
    have agrees : Agrees tokens stop (i + 1)
        (Reading.run ⟨[], [], .within (.first .expr) .operand⟩ (tokens.drop i)) _ _ :=
      valueOf_agrees behind on
    rw [value]
    exact agrees.advances
  · have agrees : Agrees tokens stop (i + 1) (Reading.run .empty (tokens.drop i)) _ _ :=
      statement_agrees behind on last fun _ => rfl
    exact agrees.advances

theorem expression_advances (on : On tokens stop i t) (precedence : Nat) :
    Advances i stop (expression tokens precedence i) := by
  have agrees : Agrees tokens stop (i + 1)
      (Reading.run ⟨[], [], .within (.first .expr) .operand⟩ (tokens.drop i)) _ _ :=
    (rules_agree tokens stop i).expression on (closed_nil (precedence + 1))
  exact agrees.advances

theorem block_advances (on : On tokens stop i t) (done : List Stmt) :
    Advances i stop (block tokens done i) := by
  let body : Suspended := ⟨[], .first .expr, .body .function []⟩
  have agrees : Agrees tokens stop (i + 1) (Reading.run ⟨[body], done, .statement⟩ (tokens.drop i))
      _ _ := (rules_agree tokens stop i).block on
  exact agrees.advances

theorem parse_agrees (first : FirstEnd tokens stop) :
    (∃ p, parse tokens 0 = some (.ok (p, stop)) ∧ Program.ofTokens tokens = .ok p) ∨
      ∃ error, parse tokens 0 = some (.error (.refused error)) ∧
        Program.ofTokens tokens = .error error := by
  obtain ⟨t, on⟩ := first.on (Nat.zero_le stop)
  have agrees : Agrees tokens stop 0 (Program.ofTokens tokens) _ (statements tokens [] 0) :=
    statements_agree on
  rw [parse]
  generalize statements tokens [] 0 = outcome at agrees
  cases agrees with
  | returned le on post same =>
    obtain ⟨eof, rfl⟩ := post
    obtain rfl := on.eof_iff.mp eof
    refine .inl ⟨_, rfl, same.trans ?_⟩
    rw [on.drop, Reading.run, if_pos eof]
    rfl
  | refused same => exact .inr ⟨_, rfl, same⟩

/-- Descent reads no token that is not there, finds an operator for every token that it takes for
one, and comes to an end. It gives what reading gives, and then the cursor is on the first end
token. Wherever up to there a statement, an expression or a block is read, the cursor moves on, but
not behind that token. -/
theorem parse_in_bounds (body : List Token) {last : Token} (ends : last.kind = .eof) :
    ∃ stop, FirstEnd (body ++ [last]) stop ∧
      ((∃ p, parse (body ++ [last]) 0 = some (.ok (p, stop)) ∧
          Program.ofTokens (body ++ [last]) = .ok p) ∨
        ∃ error, parse (body ++ [last]) 0 = some (.error (.refused error)) ∧
          Program.ofTokens (body ++ [last]) = .error error) ∧
      ∀ i ≤ stop, Advances i stop (statement (body ++ [last]) i) ∧
        (∀ precedence, Advances i stop (expression (body ++ [last]) precedence i)) ∧
        ∀ done, Advances i stop (block (body ++ [last]) done i) := by
  have ended : ∃ t ∈ body ++ [last], t.kind = .eof := ⟨last, by simp, ends⟩
  obtain ⟨stop, first⟩ := FirstEnd.of_mem ended
  refine ⟨stop, first, parse_agrees first, fun i le => ?_⟩
  obtain ⟨t, on⟩ := first.on le
  exact ⟨statement_advances on, expression_advances on, block_advances on⟩

/-- A call with an end token in it, and tokens behind that. -/
def severed : List Token :=
  [⟨.identifier, "f", 1⟩, ⟨.mark .leftParen, "(", 1⟩, ⟨.eof, "", 1⟩, ⟨.mark .plus, "+", 2⟩,
    ⟨.mark .rightBrace, "\x7d", 2⟩]

def severedEnd : Token := ⟨.eof, "", 2⟩

theorem parse_in_bounds_severed :
    severedEnd.kind = .eof ∧
    parse (severed ++ [severedEnd]) 0 = some (.error (.refused ⟨1, .noExpression none⟩)) ∧
    Program.ofTokens (severed ++ [severedEnd]) = .error ⟨1, .noExpression none⟩ := by
  have refused : Program.ofTokens (severed ++ [severedEnd]) = .error ⟨1, .noExpression none⟩ := rfl
  obtain ⟨stop, -, ⟨p, -, read⟩ | ⟨error, parsed, read⟩, -⟩ :=
    parse_in_bounds severed (rfl : severedEnd.kind = .eof)
  · cases refused.symm.trans read
  · cases refused.symm.trans read
    exact ⟨rfl, parsed, refused⟩

end Descent

end Quasiquote
