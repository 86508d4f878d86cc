import Quasiquote.Proofs.Reading.Soundness

/-!
# Whatever is derived is read

A reading takes each token at once, but no choice that it makes turns it away from a text that the
grammar derives. What carries this is only the shape of a reading, and not the trees in it:

* `Reading.Behind`: an operand has just been read inside of these parentheses.
* `Reading.Before`: an operand may start. Outside of parentheses it may also start right behind
  another one, where a minus sign or a parenthesis goes on with that one instead; what comes then is
  an operand all the same.
* `Derives.passes`: the terminals of each phrase lead from one shape to the next.
-/

namespace Quasiquote

namespace Reading

/-- An operand has been read, inside of these blocks and parentheses. -/
inductive Behind (outer : List Suspended) (nests : List Nest) : Reading → Prop
  | operand {done head waiting e} :
      Behind outer nests ⟨outer, done, .within ⟨head, nests, waiting⟩ (.follower e)⟩
  | consequence {done head waiting test c} :
      Behind outer nests ⟨outer, done, .within ⟨head, nests, waiting⟩ (.afterConsequence test c)⟩

/-- An operand may start, inside of these blocks and parentheses. -/
inductive Before (outer : List Suspended) : List Nest → Reading → Prop
  | operand {nests done head waiting} :
      Before outer nests ⟨outer, done, .within ⟨head, nests, waiting⟩ .operand⟩
  | firstArg {nests done head waiting callee} :
      Before outer (⟨.args callee [], waiting⟩ :: nests)
        ⟨outer, done, .within ⟨head, nests, waiting⟩ (.firstArg callee)⟩
  | statement {done} : Before outer [] ⟨outer, done, .statement⟩
  | behind {r} (h : Behind outer [] r) : Before outer [] r

/-- A statement may start, inside of these blocks. -/
inductive Between (outer : List Suspended) : Reading → Prop
  | statement {done} : Between outer ⟨outer, done, .statement⟩
  | behind {r} (h : Behind outer [] r) : Between outer r

variable {r : Reading} {outer : List Suspended} {nests : List Nest}

theorem Between.before (h : Between outer r) : Before outer [] r := by
  cases h with
  | statement => exact .statement
  | behind h => exact .behind h

end Reading

def Terminal.startsOperand : Terminal → Bool
  | .name _ => true
  | .integer _ => true
  | .mark .bang => true
  | .keyword k => k != .letWord && k != .returnWord && k != .elseWord
  | _ => false

/-- Whether a closing parenthesis makes an operand of what it encloses. -/
def Bracket.isOperand : Bracket → Bool
  | .condition => false
  | _ => true

namespace Reading

variable {r : Reading} {outer : List Suspended} {nests : List Nest} {s : Terminal}

/-- Behind a whole statement, what does not go on with it starts the next one. -/
theorem Behind.step_eq (h : Behind outer [] r) (apart : s.continues = false) :
    ∃ done, r.step s.token = step ⟨outer, done, .statement⟩ s.token := by
  cases h with
  | operand => exact ⟨_, step_ended apart⟩
  | consequence =>
    have other : s ≠ .keyword .elseWord := by
      rintro rfl
      cases apart
    exact ⟨_, (step_afterConsequence other).trans (step_ended apart)⟩

/-- Wherever an operand may start, a terminal that can do nothing else does start one. -/
theorem Before.step_eq (h : Before outer nests r) (starts : s.startsOperand) :
    ∃ done head waiting, r.step s.token =
      step ⟨outer, done, .within ⟨head, nests, waiting⟩ .operand⟩ s.token := by
  have notClosing : s ≠ .mark .rightParen ∧ s ≠ .mark .rightBrace := by
    constructor <;> rintro rfl <;> cases starts
  obtain ⟨notParen, notBrace⟩ := notClosing
  have quiet : s.opensStatement = false ∧ s.continues = false := by
    cases s with
    | mark m => cases m <;> first | exact ⟨rfl, rfl⟩ | cases starts
    | keyword k => cases k <;> first | exact ⟨rfl, rfl⟩ | cases starts
    | _ => exact ⟨rfl, rfl⟩
  cases h with
  | operand => exact ⟨_, _, _, rfl⟩
  | firstArg => exact ⟨_, _, _, step_firstArg notParen⟩
  | statement => exact ⟨_, _, _, step_statement quiet.1 notBrace⟩
  | behind h =>
    obtain ⟨done, same⟩ := h.step_eq quiet.2
    exact ⟨_, _, _, same.trans (step_statement quiet.1 notBrace)⟩

theorem Before.sign (op : UnaryOp) (h : Before outer nests r) :
    ∃ q, r.step (Terminal.mark op.mark).token = .ok q ∧ Before outer nests q := by
  cases op with
  | not =>
    obtain ⟨done, head, waiting, same⟩ := h.step_eq (s := .mark .bang) rfl
    exact ⟨_, same, .operand⟩
  | neg =>
    cases h with
    | operand => exact ⟨_, rfl, .operand⟩
    | firstArg => exact ⟨_, rfl, .operand⟩
    | statement => exact ⟨_, rfl, .operand⟩
    | behind h =>
      -- Here the sign is read as a subtraction, and its right operand starts in the same place.
      cases h <;> exact ⟨_, rfl, .operand⟩

theorem Before.enter (h : Before outer nests r) :
    ∃ q bracket waiting, r.step (Terminal.mark .leftParen).token = .ok q ∧
      bracket.isOperand ∧ Before outer (⟨bracket, waiting⟩ :: nests) q := by
  cases h with
  | operand => exact ⟨_, .group, _, rfl, rfl, .operand⟩
  | firstArg => exact ⟨_, .group, _, rfl, rfl, .operand⟩
  | statement => exact ⟨_, .group, _, rfl, rfl, .operand⟩
  | behind h =>
    -- Here the parenthesis is read as a call of what is before it.
    cases h <;> exact ⟨_, .args _ [], _, rfl, rfl, .firstArg⟩

theorem Behind.operator (op : BinaryOp) (h : Behind outer nests r) :
    ∃ q, r.step (Terminal.mark op.mark).token = .ok q ∧ Before outer nests q := by
  cases h <;> cases op <;> exact ⟨_, rfl, .operand⟩

theorem Behind.openArgs (h : Behind outer nests r) :
    ∃ done head waiting callee, r.step (Terminal.mark .leftParen).token =
      .ok ⟨outer, done, .within ⟨head, nests, waiting⟩ (.firstArg callee)⟩ := by
  cases h <;> exact ⟨_, _, _, _, rfl⟩

theorem Behind.leave {bracket : Bracket} {waiting : List Pending}
    (h : Behind outer (⟨bracket, waiting⟩ :: nests) r) (operand : bracket.isOperand) :
    ∃ q, r.step (Terminal.mark .rightParen).token = .ok q ∧ Behind outer nests q := by
  cases bracket with
  | condition => cases operand
  | _ => cases h <;> exact ⟨_, rfl, .operand⟩

theorem Behind.comma {callee : Expr} {done : List Expr} {waiting : List Pending}
    (h : Behind outer (⟨.args callee done, waiting⟩ :: nests) r) :
    ∃ q x, r.step (Terminal.mark .comma).token = .ok q ∧
      Before outer (⟨.args callee (done ++ [x]), waiting⟩ :: nests) q := by
  cases h <;> exact ⟨_, _, rfl, .operand⟩

theorem Behind.endCondition {waiting : List Pending}
    (h : Behind outer (⟨.condition, waiting⟩ :: nests) r) :
    ∃ done head test, r.step (Terminal.mark .rightParen).token =
      .ok ⟨outer, done, .within ⟨head, nests, waiting⟩ (.consequenceStart test)⟩ := by
  cases h <;> exact ⟨_, _, _, rfl⟩

theorem Behind.semicolon (h : Behind outer [] r) :
    ∃ done, r.step (Terminal.mark .semicolon).token = .ok ⟨outer, done, .statement⟩ := by
  cases h <;> exact ⟨_, rfl⟩

theorem Between.letWord (h : Between outer r) :
    ∃ done, r.step (Terminal.keyword .letWord).token = .ok ⟨outer, done, .bindingName⟩ := by
  rcases h with _ | _ | _ <;> exact ⟨_, rfl⟩

theorem Between.returnWord (h : Between outer r) :
    ∃ q, r.step (Terminal.keyword .returnWord).token = .ok q ∧ Before outer [] q := by
  rcases h with _ | _ | _ <;> exact ⟨_, rfl, .operand⟩

theorem Between.rightBrace {s : Suspended} (h : Between (s :: outer) r) :
    ∃ b, r.step (Terminal.mark .rightBrace).token =
      .ok ⟨outer, s.done, .within s.place (s.blockUse.complete b)⟩ := by
  rcases h with _ | _ | _ <;> exact ⟨_, rfl⟩

theorem Between.finish (h : Between [] r) : ∃ p, r.finish = .ok p := by
  rcases h with _ | _ | _ <;> exact ⟨_, rfl⟩

end Reading

/-- Where a parameter is due behind these. -/
inductive Due.AwaitsName (role : Role) : Due → List String → Prop
  | first : AwaitsName role (.firstParam role) []
  | next {done} : AwaitsName role (.nextParam role done) done

/-- What the terminals of a phrase lead from and to. Parameters and arguments are read together with
the parenthesis behind them. -/
def Phrase.Passes : Phrase → List Terminal → Prop
  | .program _, ts => ∀ outer r, Reading.Between outer r → r.Leads ts (Reading.Between outer)
  | .statement _, ts => ∀ outer r, Reading.Between outer r → r.Leads ts (Reading.Between outer)
  | .block _, ts => ∀ outer done place due blockUse, Due.AwaitsBlock due blockUse →
      Reading.Leads ⟨outer, done, .within place due⟩ ts
        fun q => ∃ b, q = ⟨outer, done, .within place (blockUse.complete b)⟩
  | .expression _, ts => ∀ outer nests r, Reading.Before outer nests r →
      r.Leads ts (Reading.Behind outer nests)
  | .lead _, ts => ∀ outer nests r, Reading.Before outer nests r →
      r.Leads ts (Reading.Behind outer nests)
  | .continuations _ _, ts => ∀ outer nests r, Reading.Behind outer nests r →
      r.Leads ts (Reading.Behind outer nests)
  | .params ps, ts => ∀ outer done place due role before, Due.AwaitsName role due before →
      Reading.Leads ⟨outer, done, .within place due⟩ (ts ++ [.mark .rightParen])
        fun q => q = ⟨outer, done, .within place (.bodyStart role (before ++ ps))⟩
  | .optionalParams ps, ts => ∀ outer done place role,
      Reading.Leads ⟨outer, done, .within place (.firstParam role)⟩ (ts ++ [.mark .rightParen])
        fun q => q = ⟨outer, done, .within place (.bodyStart role ps)⟩
  | .args _, ts => ∀ outer nests callee done waiting r,
      Reading.Before outer (⟨.args callee done, waiting⟩ :: nests) r →
      r.Leads (ts ++ [.mark .rightParen]) (Reading.Behind outer nests)
  | .optionalArgs _, ts => ∀ outer done head nests waiting callee,
      Reading.Leads ⟨outer, done, .within ⟨head, nests, waiting⟩ (.firstArg callee)⟩
        (ts ++ [.mark .rightParen]) (Reading.Behind outer nests)

namespace Derives

open Reading

variable {r : Reading} {outer : List Suspended} {nests : List Nest} {e test : Expr} {b : Block}
  {ts us semicolon : List Terminal}

theorem ends_passes (optional : OptionalSemicolon semicolon) (h : Behind outer [] r) :
    r.Leads semicolon (Between outer) := by
  cases optional with
  | absent => exact .nil (.behind h)
  | present =>
    obtain ⟨done, step⟩ := h.semicolon
    exact .one step .statement

theorem value_passes (value : (Phrase.expression e).Passes ts)
    (optional : OptionalSemicolon semicolon) (h : Before outer [] r) :
    r.Leads (ts ++ semicolon) (Between outer) :=
  (value outer [] r h).trans fun _ hq => ends_passes optional hq

theorem block_passes (body : (Phrase.program b).Passes ts) :
    (Phrase.block b).Passes (.mark .leftBrace :: (ts ++ [.mark .rightBrace])) := by
  intro outer done place due blockUse awaits
  refine .cons (step_leftBrace awaits) ((body _ _ .statement).trans fun q hq => ?_)
  obtain ⟨b, step⟩ := hq.rightBrace
  exact .one step ⟨b, rfl⟩

theorem literal_passes {s : Terminal} (starts : s.startsOperand)
    (literal : ∀ (r : Reading) (place : Place),
      ∃ x, r.readOperand place s.token = .ok (r.await place (.follower x))) :
    (Phrase.lead e).Passes [s] := by
  intro outer nests r h
  obtain ⟨done, head, waiting, same⟩ := h.step_eq starts
  obtain ⟨x, step⟩ := literal ⟨outer, done, .within ⟨head, nests, waiting⟩ .operand⟩
    ⟨head, nests, waiting⟩
  exact .one (same.trans step) .operand

/-- A condition and its consequence, behind which an alternative may still come. -/
theorem cond_passes (condition : (Phrase.expression test).Passes ts)
    (consequence : (Phrase.block b).Passes us) (h : Before outer nests r) :
    r.Leads (.keyword .ifWord :: .mark .leftParen :: (ts ++ .mark .rightParen :: us)) fun q =>
      ∃ done place test c, place.nests = nests ∧
        q = ⟨outer, done, .within place (.afterConsequence test c)⟩ := by
  obtain ⟨done, head, waiting, same⟩ := h.step_eq (s := .keyword .ifWord) rfl
  refine .cons same (.cons rfl ((condition outer _ _ .operand).trans fun q hq => ?_))
  obtain ⟨done, head, test, step⟩ := hq.endCondition
  refine .cons step ((consequence outer done ⟨head, nests, waiting⟩ _ _ .consequence).weaken ?_)
  rintro q ⟨c, rfl⟩
  exact ⟨done, _, test, c, rfl, rfl⟩

theorem routine_passes {role : Role} {ps : List String}
    (parameters : (Phrase.optionalParams ps).Passes ts) (body : (Phrase.block b).Passes us)
    (h : Before outer nests r) :
    r.Leads (.keyword role.keyword :: .mark .leftParen :: (ts ++ .mark .rightParen :: us))
      (Behind outer nests) := by
  have starts : (Terminal.keyword role.keyword).startsOperand := by cases role <;> rfl
  obtain ⟨done, head, waiting, same⟩ := h.step_eq starts
  have opens : r.step (Terminal.keyword role.keyword).token =
      .ok ⟨outer, done, .within ⟨head, nests, waiting⟩ (.paramsStart role)⟩ := by
    rw [same]
    cases role <;> rfl
  have rest : Leads ⟨outer, done, .within ⟨head, nests, waiting⟩ (.firstParam role)⟩
      (ts ++ [.mark .rightParen] ++ us) (Behind outer nests) := by
    refine (parameters outer done ⟨head, nests, waiting⟩ role).trans ?_
    rintro q ⟨ps, rfl⟩
    refine (body outer done ⟨head, nests, waiting⟩ _ _ .body).weaken ?_
    rintro q ⟨b, rfl⟩
    exact .operand
  rw [List.append_assoc] at rest
  exact .cons opens (.cons rfl rest)

/-- The terminals of every phrase lead where an operand, a statement or a block is complete. -/
theorem passes {phrase : Phrase} (h : Derives phrase ts) : phrase.Passes ts := by
  induction h with
  | noStatement => exact fun _ _ hr => .nil hr
  | statements _ _ first rest => exact fun outer r hr => (first outer r hr).trans (rest outer)
  | binding _ optional value =>
    intro outer r hr
    obtain ⟨done, step⟩ := hr.letWord
    exact .cons step (.cons rfl (.cons rfl (value_passes value optional .operand)))
  | ret _ optional value =>
    intro outer r hr
    obtain ⟨q, step, hq⟩ := hr.returnWord
    exact .cons step (value_passes value optional hq)
  | bare _ optional value => exact fun outer r hr => value_passes value optional hr.before
  | block _ body => exact block_passes body
  | expression _ _ lead continuations =>
    exact fun outer nests r hr => (lead outer nests r hr).trans (continuations outer nests)
  | name => exact literal_passes rfl fun _ _ => ⟨_, rfl⟩
  | int => exact literal_passes rfl fun _ _ => ⟨_, rfl⟩
  | trueLit => exact literal_passes rfl fun _ _ => ⟨_, rfl⟩
  | falseLit => exact literal_passes rfl fun _ _ => ⟨_, rfl⟩
  | signed _ operand =>
    intro outer nests r hr
    obtain ⟨q, step, hq⟩ := hr.sign _
    exact .cons step (operand outer nests q hq)
  | group _ inner =>
    intro outer nests r hr
    obtain ⟨q, bracket, waiting, step, operand, hq⟩ := hr.enter
    refine .cons step ((inner outer _ q hq).trans fun q' hq' => ?_)
    obtain ⟨last, step, hl⟩ := hq'.leave operand
    exact .one step hl
  | cond _ _ condition consequence =>
    intro outer nests r hr
    refine (cond_passes condition consequence hr).weaken ?_
    rintro q ⟨done, place, test, c, rfl, rfl⟩
    exact .consequence
  | @condElse _ _ _ ts us vs _ _ _ condition consequence alternative =>
    intro outer nests r hr
    have leads : r.Leads (.keyword .ifWord :: .mark .leftParen ::
        (ts ++ .mark .rightParen :: us) ++ .keyword .elseWord :: vs) (Behind outer nests) := by
      refine (cond_passes condition consequence hr).trans ?_
      rintro q ⟨done, place, test, c, rfl, rfl⟩
      refine .cons rfl ((alternative outer done place _ _ .alternative).weaken ?_)
      rintro q ⟨d, rfl⟩
      exact .operand
    simpa using leads
  | routine _ _ parameters body => exact fun _ _ _ hr => routine_passes parameters body hr
  | noContinuation => exact fun _ _ _ hr => .nil hr
  | operator _ _ operand more =>
    intro outer nests r hr
    obtain ⟨q, step, hq⟩ := hr.operator _
    exact .cons step ((operand outer nests q hq).trans (more outer nests))
  | called _ _ arguments more =>
    intro outer nests r hr
    obtain ⟨done, head, waiting, callee, step⟩ := hr.openArgs
    have leads := (arguments outer done head nests waiting callee).trans (more outer nests)
    exact .cons step (by simpa using leads)
  | noParams => exact fun _ _ _ _ => .one rfl rfl
  | someParams _ params =>
    exact fun outer done place role => params outer done place _ role [] .first
  | @lastParam id =>
    intro outer done place due role before awaits
    cases awaits <;> exact .cons rfl (.one rfl rfl)
  | @moreParams id ps _ _ more =>
    intro outer done place due role before awaits
    have rest := more outer done place _ role (before ++ [id]) .next
    rw [List.append_assoc] at rest
    cases awaits <;> exact .cons rfl (.cons rfl rest)
  | noArgs => exact fun _ _ _ _ _ _ => .one rfl .operand
  | someArgs _ args => exact fun outer done head nests waiting callee => args _ _ _ _ _ _ .firstArg
  | lastArg _ last =>
    intro outer nests callee done waiting r hr
    refine (last outer _ r hr).trans fun q hq => ?_
    obtain ⟨q', step, hq'⟩ := hq.leave rfl
    exact .one step hq'
  | moreArgs _ _ first more =>
    intro outer nests callee done waiting r hr
    have leads := (first outer _ r hr).trans fun q hq => by
      obtain ⟨q', x, step, hq'⟩ := hq.comma
      exact Leads.cons step (more outer nests callee _ waiting q' hq')
    simpa using leads

end Derives

/-- Tokens before a single end spell a program exactly if the grammar derives some program from all
of them, and it derives the one that they spell. No illegal character is among them. -/
theorem Program.ofTokens_exact {body : List Token} {last : Token}
    (only : ∀ t ∈ body, t.kind ≠ .eof) (ends : last.kind = .eof) :
    ((∃ p, Program.ofTokens (body ++ [last]) = .ok p) ↔
      ∃ p, Derives (.program p) (body.map Token.terminal)) ∧
    ∀ p, Program.ofTokens (body ++ [last]) = .ok p →
      Derives (.program p) (body.map Token.terminal) ∧ ∀ t ∈ body, t.kind ≠ .illegal := by
  have sound {p : Program} (h : Program.ofTokens (body ++ [last]) = .ok p) :=
    Program.ofTokens_derives only ends h
  refine ⟨⟨fun ⟨p, h⟩ => ⟨p, sound h⟩, fun ⟨p, h⟩ => ?_⟩, fun p h => ⟨sound h, ?_⟩⟩
  · obtain ⟨q, steps, hq⟩ := h.passes [] .empty .statement
    obtain ⟨p', finish⟩ := hq.finish
    exact ⟨p', (Reading.run_eq_ok_iff only ends).mpr ⟨q, steps, finish⟩⟩
  · intro t ht illegal
    have terminal : t.terminal = .illegal := by simp [Token.terminal, illegal]
    exact (sound h).no_illegal.1 (terminal ▸ List.mem_map_of_mem ht)

/-- Tokens that the grammar derives in two ways: as a subtraction, and as two statements. -/
def twoWays : List Token :=
  [⟨.identifier, "a", 1⟩, ⟨.mark .minus, "-", 1⟩, ⟨.integer 1, "1", 1⟩]

theorem Program.ofTokens_exact_twoWays :
    Program.ofTokens (twoWays ++ [⟨.eof, "", 1⟩]) =
      .ok [.expr (.binary (.name "a") .sub (.int 1))] ∧
    Derives (.program [.expr (.binary (.name "a") .sub (.int 1))])
      (twoWays.map Token.terminal) := by
  have only : ∀ t ∈ twoWays, t.kind ≠ .eof := by decide
  have read : Program.ofTokens (twoWays ++ [⟨.eof, "", 1⟩]) =
      .ok [.expr (.binary (.name "a") .sub (.int 1))] := rfl
  exact ⟨read, ((Program.ofTokens_exact only rfl).2 _ read).1⟩

end Quasiquote
