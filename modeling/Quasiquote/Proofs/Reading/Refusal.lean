import Quasiquote.Proofs.Reading.Completeness

/-!
# Where reading refuses

Whatever has been read so far can still become a program: the token that reading refuses is the
first one that no program has in its place.

* `Reading.Completes`: some terminals go on with a reading to the end of a program.
* `Reading.Behind.closes`: open parentheses can be closed, and `Reading.Between.completes`: so can
  open blocks. `Reading.completes`: every reading completes, whatever is due in it.
* `Reading.run_error`, `Reading.run_refused`: a complaint is about one token, and about the reading
  in front of it.
-/

namespace Quasiquote

namespace Reading

variable {r q : Reading} {outer : List Suspended} {nests : List Nest} {done : List Stmt}
  {place : Place} {due : Due} {s : Terminal}

/-- Some terminals go on with this reading to the end of a program. -/
def Completes (r : Reading) : Prop := ∃ ss, r.Leads ss fun q => ∃ p, q.finish = .ok p

theorem Leads.extend {ss : List Terminal} {P Q : Reading → Prop} (h : r.Leads ss P)
    (rest : ∀ q, P q → ∃ us, q.Leads us Q) : ∃ us, r.Leads us Q := by
  obtain ⟨q, steps, hq⟩ := h
  obtain ⟨us, last, more, hl⟩ := rest q hq
  refine ⟨ss ++ us, last, ?_, hl⟩
  rw [steps_append, steps]
  exact more

theorem completes_of_step (taken : r.step s.token = .ok q) (rest : q.Completes) : r.Completes :=
  (Leads.one (P := (· = q)) taken rfl).extend fun _ same => same ▸ rest

/-- Behind a block, the statement around it has an operand. -/
theorem Behind.of_block (outer : List Suspended) (done : List Stmt) (place : Place)
    (blockUse : BlockUse) (b : Block) :
    Behind outer place.nests ⟨outer, done, .within place (blockUse.complete b)⟩ := by
  cases blockUse with
  | consequence => exact .consequence
  | alternative => exact .operand
  | body => exact .operand

/-- Where a block has to start, an empty one may stand. -/
theorem emptyBlock {blockUse : BlockUse} (awaits : due.AwaitsBlock blockUse) :
    Leads ⟨outer, done, .within place due⟩ [.mark .leftBrace, .mark .rightBrace]
      (Behind outer place.nests) := by
  have inside : Between (⟨done, place, blockUse⟩ :: outer) ⟨_, [], .statement⟩ := .statement
  obtain ⟨b, closed⟩ := inside.rightBrace
  exact .cons (step_leftBrace awaits) (.one closed (.of_block outer done place blockUse b))

/-- Behind an operand, every open parenthesis of the statement can be closed. -/
theorem Behind.closes (h : Behind outer nests r) : ∃ ss, r.Leads ss (Behind outer []) := by
  induction nests generalizing r with
  | nil => exact ⟨[], .nil h⟩
  | cons nest nests ih =>
    obtain ⟨bracket, waiting⟩ := nest
    cases operand : bracket.isOperand with
    | true =>
      obtain ⟨q, step, hq⟩ := h.leave operand
      exact (Leads.one step hq).extend fun _ => ih
    | false =>
      -- Only a condition closes to something that is no operand yet: its consequence is due.
      cases bracket with
      | group => cases operand
      | args => cases operand
      | condition =>
        obtain ⟨done, head, test, step⟩ := h.endCondition
        exact (Leads.cons step (emptyBlock .consequence)).extend fun _ => ih

/-- Where a statement may start, every open block can be closed. -/
theorem Between.completes (h : Between outer r) : r.Completes := by
  induction outer generalizing r with
  | nil => exact ⟨[], .nil h.finish⟩
  | cons suspended outer ih =>
    obtain ⟨b, step⟩ := h.rightBrace
    have behind := Behind.of_block outer suspended.done suspended.place suspended.blockUse b
    obtain ⟨ss, leads⟩ := behind.closes
    exact completes_of_step step (leads.extend fun q hq => ih (.behind hq))

theorem Behind.completes (h : Behind outer nests r) : r.Completes := by
  obtain ⟨ss, leads⟩ := h.closes
  exact leads.extend fun q hq => (Between.behind hq).completes

theorem follower_completes {e : Expr} :
    Completes ⟨outer, done, .within place (.follower e)⟩ := by
  have behind : Behind outer place.nests ⟨outer, done, .within place (.follower e)⟩ := .operand
  exact behind.completes

theorem operand_completes : Completes ⟨outer, done, .within place .operand⟩ :=
  completes_of_step (s := .integer 1) rfl follower_completes

theorem block_completes {blockUse : BlockUse} (awaits : due.AwaitsBlock blockUse) :
    Completes ⟨outer, done, .within place due⟩ :=
  (emptyBlock awaits).extend fun _ hq => hq.completes

theorem body_completes {role : Role} {params : List String} :
    Completes ⟨outer, done, .within place (.bodyStart role params)⟩ :=
  block_completes .body

theorem within_completes (outer : List Suspended) (done : List Stmt) (place : Place) (due : Due) :
    Completes ⟨outer, done, .within place due⟩ := by
  cases due with
  | operand => exact operand_completes
  | firstArg callee => exact completes_of_step (s := .mark .rightParen) rfl follower_completes
  | follower e => exact follower_completes
  | conditionStart => exact completes_of_step (s := .mark .leftParen) rfl operand_completes
  | consequenceStart test => exact block_completes .consequence
  | afterConsequence test c =>
    exact (Behind.of_block outer done place (.consequence test) c).completes
  | alternativeStart test c => exact block_completes .alternative
  | paramsStart role =>
    apply completes_of_step (s := .mark .leftParen) rfl
    exact completes_of_step (s := .mark .rightParen) rfl body_completes
  | firstParam role => exact completes_of_step (s := .mark .rightParen) rfl body_completes
  | nextParam role params =>
    apply completes_of_step (s := .name "a") rfl
    exact completes_of_step (s := .mark .rightParen) rfl body_completes
  | afterParam role params => exact completes_of_step (s := .mark .rightParen) rfl body_completes
  | bodyStart role params => exact body_completes

/-- Every reading can still become a program. -/
theorem completes (r : Reading) : r.Completes := by
  obtain ⟨outer, done, phase⟩ := r
  cases phase with
  | statement => exact Between.statement.completes
  | bindingName =>
    apply completes_of_step (s := .name "a") rfl
    exact completes_of_step (s := .mark .equal) rfl operand_completes
  | bindingSign name => exact completes_of_step (s := .mark .equal) rfl operand_completes
  | within place due => exact within_completes outer done place due

/-- Behind tokens that lead to a reading, that reading goes on alone. -/
theorem run_of_steps {before rest : List Token}
    (h : r.steps (before.map Token.terminal) = some q) : r.run (before ++ rest) = q.run rest := by
  induction before generalizing r with
  | nil =>
    cases h
    rfl
  | cons t before ih =>
    have more : t.kind ≠ .eof := by
      intro eof
      apply steps_no_eof h
      simp [Token.terminal, eof]
    rw [List.map_cons, steps_cons, ← r.step_toOption t] at h
    rw [List.cons_append, run, if_neg more]
    cases step : r.step t with
    | error complaint => simp [step, Except.toOption] at h
    | ok next => exact ih (by simpa [step, Except.toOption] using h)

/-- Reading stops at this token, with this complaint. -/
def Refuses (r : Reading) (t : Token) (complaint : Complaint) : Prop :=
  if t.kind = .eof then r.finish = .error complaint else r.step t = .error complaint

/-- Reading that stops at a token complains about its line, whatever is behind it. -/
theorem Refuses.run {t : Token} {complaint : Complaint} (h : r.Refuses t complaint)
    (rest : List Token) : r.run (t :: rest) = .error ⟨t.line, complaint⟩ := by
  unfold Refuses at h
  rw [Reading.run]
  split at h
  · next eof =>
    rw [if_pos eof, h]
    rfl
  · next more => rw [if_neg more, h]

/-- Reading that fails before the tokens run out stops at one of them. -/
theorem run_error {tokens : List Token} {error : SyntaxError}
    (ended : ∃ t ∈ tokens, t.kind = .eof) (h : r.run tokens = .error error) :
    ∃ before t after q, tokens = before ++ t :: after ∧
      r.steps (before.map Token.terminal) = some q ∧ error.line = t.line ∧
      q.Refuses t error.complaint := by
  induction tokens generalizing r with
  | nil => simp at ended
  | cons t rest ih =>
    by_cases eof : t.kind = .eof
    · rw [run, if_pos eof] at h
      cases finish : r.finish with
      | ok p => simp [finish, Except.mapError] at h
      | error complaint =>
        simp only [finish, Except.mapError, Except.error.injEq] at h
        subst h
        exact ⟨[], t, rest, r, rfl, rfl, rfl, by rwa [Refuses, if_pos eof]⟩
    · cases step : r.step t with
      | error complaint =>
        simp only [run, if_neg eof, step, Except.error.injEq] at h
        subst h
        exact ⟨[], t, rest, r, rfl, rfl, rfl, by rwa [Refuses, if_neg eof]⟩
      | ok next =>
        simp only [run, if_neg eof, step] at h
        have ended : ∃ u ∈ rest, u.kind = .eof := by
          obtain ⟨u, hu, ends⟩ := ended
          obtain rfl | hu := List.mem_cons.mp hu
          · exact absurd ends eof
          · exact ⟨u, hu, ends⟩
        obtain ⟨before, u, after, q, rfl, steps, line, refuses⟩ := ih ended h
        refine ⟨t :: before, u, after, q, rfl, ?_, line, refuses⟩
        rw [List.map_cons, steps_cons, ← step_toOption, step]
        exact steps

/-- Reading that fails before the tokens run out fails at one of them, on its line, and whatever is
behind that token. -/
theorem run_refused {tokens : List Token} {error : SyntaxError}
    (ended : ∃ t ∈ tokens, t.kind = .eof) (h : r.run tokens = .error error) :
    ∃ before t after q, tokens = before ++ t :: after ∧
      r.steps (before.map Token.terminal) = some q ∧ error.line = t.line ∧
      ∀ rest, q.run (t :: rest) = .error error := by
  obtain ⟨before, t, after, q, split, steps, line, refuses⟩ := run_error ended h
  refine ⟨before, t, after, q, split, steps, line, ?_⟩
  intro rest
  rw [refuses.run rest, ← line]

end Reading

/-- Tokens before a single end that spell no program are refused at the first token that makes the
program impossible: on the line of that token, with the same complaint whatever is behind it, while
the tokens before it are the start of some program. -/
theorem Program.ofTokens_refused {body : List Token} {last : Token} {error : SyntaxError}
    (ends : last.kind = .eof) (refused : Program.ofTokens (body ++ [last]) = .error error) :
    ∃ before token after, body ++ [last] = before ++ token :: after ∧
      error.line = token.line ∧
      (∀ rest, Program.ofTokens (before ++ token :: rest) = .error error) ∧
      ∃ more p, (∀ t ∈ more, t.kind ≠ .eof) ∧
        Program.ofTokens (before ++ more ++ [last]) = .ok p := by
  obtain ⟨before, token, after, q, split, steps, line, stops⟩ :=
    Reading.run_refused ⟨last, by simp, ends⟩ refused
  refine ⟨before, token, after, split, line, ?_, ?_⟩
  · intro rest
    exact (Reading.run_of_steps steps).trans (stops rest)
  · obtain ⟨ss, final, more, p, finished⟩ := q.completes
    have spelled : (ss.map Terminal.token).map Token.terminal = ss := by
      simp [Function.comp_def, Token.terminal_token]
    have inside : ∀ t ∈ ss.map Terminal.token, t.kind ≠ .eof := by
      intro t ht eof
      obtain ⟨s, hs, rfl⟩ := List.mem_map.mp ht
      cases s with
      | eof => exact Reading.steps_no_eof more hs
      | _ => cases eof
    refine ⟨ss.map Terminal.token, p, inside, ?_⟩
    rw [List.append_assoc]
    refine (Reading.run_of_steps steps).trans ?_
    exact (Reading.run_eq_ok_iff inside ends).mpr ⟨final, by rw [spelled]; exact more, finished⟩

/-- A function inside of a call, with a number where a parameter has to be. -/
def misnamed : List Token :=
  [⟨.identifier, "f", 1⟩, ⟨.mark .leftParen, "(", 1⟩, ⟨.keyword .fnWord, "fn", 1⟩,
    ⟨.mark .leftParen, "(", 1⟩, ⟨.identifier, "x", 1⟩, ⟨.mark .comma, ",", 1⟩,
    ⟨.integer 1, "1", 2⟩]

def misnamedEnd : Token := ⟨.eof, "", 3⟩

theorem Program.ofTokens_refused_misnamed :
    Program.ofTokens (misnamed ++ [misnamedEnd]) = .error ⟨2, .noParamName⟩ ∧
    ∃ (before : List Token) (token : Token) (after : List Token),
      misnamed ++ [misnamedEnd] = before ++ token :: after ∧ 2 = token.line ∧
      (∀ rest, Program.ofTokens (before ++ token :: rest) = .error ⟨2, .noParamName⟩) ∧
      ∃ (more : List Token) (p : Program), (∀ t ∈ more, t.kind ≠ .eof) ∧
        Program.ofTokens (before ++ more ++ [misnamedEnd]) = .ok p := by
  have refused : Program.ofTokens (misnamed ++ [misnamedEnd]) = .error ⟨2, .noParamName⟩ := rfl
  exact ⟨refused, Program.ofTokens_refused rfl refused⟩

end Quasiquote
