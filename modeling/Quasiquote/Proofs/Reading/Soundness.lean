import Quasiquote.Proofs.Reading.Held

/-!
# What has been read is derived

A step takes one terminal more into what the reading holds (`Reading.Reads.step`), so that a program
at the end is derived from all terminals (`Reading.Reads.finish`, `Program.ofTokens_derives`).
-/

namespace Quasiquote

namespace Reading

variable {r r' : Reading} {place : Place} {t : Token} {ts us : List Terminal}

theorem Finishes.statement (h : r.Finishes ts) (quiet : r.phase = .statement) : r.Reads ts := by
  have phase : Phase.Reads r.phase [] := quiet ▸ .statement
  simpa using Reads.mk h phase

theorem Finishes.endStatement {s : Stmt} (h : r.Finishes ts) (hs : Derives (.statement s) us) :
    (r.endStatement s).Finishes (ts ++ us) := by
  obtain ⟨ho, hd⟩ := h
  rw [List.append_assoc]
  exact .mk ho (hd.program_snoc hs)

theorem Reaches.due {due : Due} (h : r.Reaches place ts) (hd : Due.Reads due us) :
    (r.await place due).Reads (ts ++ us) := by
  obtain ⟨⟨ho, hs⟩, hp⟩ := h
  rw [List.append_assoc]
  exact .mk (.mk ho hs) (.within hp hd)

theorem Reaches.await {p : Pending} (h : r.Reaches place ts) (hp : Pending.Reads p us) :
    r.Reaches (place.await p) (ts ++ us) := by
  obtain ⟨hf, hh, hn, hw⟩ := h
  simpa [Place.await] using Reaches.mk hf (.mk hh hn (.cons hw hp))

theorem Reaches.enter {bracket : Bracket} (h : r.Reaches place ts)
    (hb : Bracket.Reads bracket us) : r.Reaches (place.enter bracket) (ts ++ us) := by
  obtain ⟨hf, hh, hn, hw⟩ := h
  simpa [Place.enter] using Reaches.mk hf (.mk hh (.cons hn (.mk hw hb)) .nil)

theorem Reaches.openBlock {blockUse : BlockUse} (h : r.Reaches place ts)
    (hb : BlockUse.Reads blockUse us) : (r.openBlock place blockUse).Reads (ts ++ us) := by
  obtain ⟨⟨ho, hd⟩, hp⟩ := h
  refine Finishes.statement ?_ rfl
  have finishes : (r.openBlock place blockUse).Finishes _ :=
    .mk (.cons ho (.mk hd hp hb)) .noStatement
  simpa using finishes

theorem Finishes.reaches {head : Head} (h : r.Finishes ts) (hh : Head.Reads head us) :
    r.Reaches (.first head) (ts ++ us) := by
  simpa [Place.first] using Reaches.mk h (.mk hh .nil .nil)

/-- What is outside of the innermost parenthesis, the parenthesis, and the operators inside it. -/
theorem Reaches.leave {head : Head} {nest : Nest} {nests : List Nest} {waiting : List Pending}
    (h : r.Reaches ⟨head, nest :: nests, waiting⟩ ts) :
    ∃ us vs ws, ts = us ++ vs ++ ws ∧ r.Reaches ⟨head, nests, nest.waiting⟩ us ∧
      Bracket.Reads nest.bracket vs ∧ Stacked Pending.Reads waiting ws := by
  obtain ⟨hf, hh, _ | ⟨hn, ⟨hw', hb⟩⟩, hw⟩ := h
  exact ⟨_, _, _, by simp only [List.append_assoc], .mk hf (.mk hh hn hw'), hb, hw⟩

/-- The statement whose expression is complete. -/
theorem Reaches.finishes {head : Head} {waiting : List Pending} {e : Expr} {vs : List Terminal}
    (h : r.Reaches ⟨head, [], waiting⟩ ts) (he : Derives (.expression e) us)
    (optional : OptionalSemicolon vs) :
    (r.endStatement (head.complete (settleAll waiting e))).Finishes (ts ++ us ++ vs) := by
  obtain ⟨hf, hh, ⟨⟩, hw⟩ := h
  simpa using hf.endStatement (.statement_complete hh (.settleAll hw he) optional)

/-- What a block that is just closed is part of. -/
theorem Finishes.closeBlock {s : Suspended} {outer : List Suspended} (h : r.Finishes ts)
    (ho : r.outer = s :: outer) :
    Reading.Reads ⟨outer, s.done, .within s.place (s.blockUse.complete r.done)⟩
      (ts ++ [.mark .rightBrace]) := by
  obtain ⟨hs, hd⟩ := h
  rw [ho] at hs
  obtain _ | ⟨below, hs, hp, @⟨_, _, vs, due, complete⟩⟩ := hs
  have reaches : Reaches ⟨outer, _, .statement⟩ _ _ := .mk (.mk below hs) hp
  simpa [Reading.await] using reaches.due (complete _ _ (.block hd))

theorem Reads.readOperand (h : r.Reaches place ts) (run : r.readOperand place t = .ok r') :
    r'.Reads (ts ++ [t.terminal]) := by
  obtain ⟨kind, _, _⟩ := t
  cases kind with
  | identifier =>
    cases run
    exact h.due (.follower Derives.name.lead_expression)
  | integer n =>
    cases run
    exact h.due (.follower Derives.int.lead_expression)
  | keyword k =>
    cases k with
    | trueWord =>
      cases run
      exact h.due (.follower Derives.trueLit.lead_expression)
    | falseWord =>
      cases run
      exact h.due (.follower Derives.falseLit.lead_expression)
    | ifWord =>
      cases run
      exact h.due .conditionStart
    | fnWord =>
      cases run
      exact h.due (.paramsStart .function)
    | macroWord =>
      cases run
      exact h.due (.paramsStart .transformer)
    | _ => cases run
  | mark m =>
    cases m with
    | bang =>
      cases run
      simpa [UnaryOp.mark, Token.terminal] using (h.await (.unary .not)).due .operand
    | minus =>
      cases run
      simpa [UnaryOp.mark, Token.terminal] using (h.await (.unary .neg)).due .operand
    | leftParen =>
      cases run
      simpa [Token.terminal] using (h.enter .group).due .operand
    | _ => cases run
  | _ => cases run

theorem Reads.readStatement (h : r.Finishes ts) (run : r.readStatement t = .ok r') :
    r'.Reads (ts ++ [t.terminal]) := by
  have first : r.Reaches (.first .expr) ts := by simpa using h.reaches .expr
  unfold Reading.readStatement at run
  split at run
  · next kind =>
    cases run
    simp only [Token.terminal, kind]
    obtain ⟨ho, hd⟩ := h
    exact .mk (.mk ho hd) .bindingName
  · next kind =>
    cases run
    simp only [Token.terminal, kind]
    simpa using (h.reaches .ret).due .operand
  · next kind =>
    split at run
    · exact readOperand first run
    · next ho =>
      cases run
      simp only [Token.terminal, kind]
      exact h.closeBlock ho
  · exact readOperand first run

/-- A two-operand operator behind an operand. -/
theorem Reaches.operator {e : Expr} (op : BinaryOp) (h : r.Reaches place ts)
    (he : Derives (.expression e) us) :
    r.Reaches ⟨place.head, place.nests, .binary (settle op.strength place.waiting e).1 op ::
      (settle op.strength place.waiting e).2⟩ (ts ++ us ++ [.mark op.mark]) := by
  obtain ⟨hf, @⟨head, nests, waiting, hs, ns, ws, hh, hn, hw⟩⟩ := h
  obtain ⟨vs, xs, same, hw', he'⟩ := Derives.settle op.strength hw he
  have reaches := Reaches.mk hf (.mk hh hn (.cons hw' (.binary op he')))
  have same' : ws ++ (us ++ [.mark op.mark]) = vs ++ (xs ++ [.mark op.mark]) := by
    simpa using congrArg (· ++ [Terminal.mark op.mark]) same
  simpa [same'] using reaches

theorem Reads.readEnd {e : Expr} (h : r.Reaches place ts) (he : Derives (.expression e) us)
    (run : r.readEnd place e t = .ok r') : r'.Reads (ts ++ us ++ [t.terminal]) := by
  obtain ⟨head, nests, waiting⟩ := place
  unfold Reading.readEnd at run
  dsimp only at run
  split at run
  · split at run
    · next kind =>
      cases run
      simp only [Token.terminal, kind]
      exact (h.finishes he .present).statement rfl
    · exact readStatement (by simpa using h.finishes he .absent) run
  · obtain ⟨vs, xs, ws, rfl, outside, hb, hw⟩ := h.leave
    have value := Derives.settleAll hw he
    split at run <;> cases run <;> rename_i kind <;> simp only [Token.terminal, kind]
    · obtain ⟨⟩ := hb
      simpa using outside.due (.follower value.group.lead_expression)
    · obtain _ | ⟨hc, hd⟩ := hb
      simpa using outside.due (.follower (hc.call (.someArgs (.args_append hd (.lastArg value)))))
    · obtain _ | ⟨hc, hd⟩ := hb
      simpa using (outside.enter (.args hc (.snoc hd value))).due .operand
    · obtain ⟨⟩ := hb
      simpa using outside.due (.consequenceStart value)

theorem Reads.readFollower {e : Expr} (h : r.Reaches place ts) (he : Derives (.expression e) us)
    (run : r.readFollower place e t = .ok r') : r'.Reads (ts ++ us ++ [t.terminal]) := by
  unfold Reading.readFollower at run
  split at run
  · next kind =>
    cases run
    simp only [Token.terminal, kind]
    simpa using h.due (.firstArg he)
  · split at run
    · next op operator =>
      cases run
      simp only [Token.terminal, TokenKind.eq_mark_of_binaryOp? operator]
      simpa using (h.operator op he).due .operand
    · exact readEnd h he run

/-- The parts of an expression that are open before a block. -/
theorem Due.Reads.block {blockUse : BlockUse} {due : Due} {vs : List Terminal}
    (hd : Due.Reads due vs)
    (complete : ∀ b us, Derives (.block b) us → Due.Reads (blockUse.complete b) (vs ++ us))
    (h : r.Reaches place ts) :
    (r.openBlock place blockUse).Reads (ts ++ vs ++ [.mark .leftBrace]) := by
  rw [List.append_assoc]
  exact h.openBlock (.mk hd complete)

theorem Reads.readWithin {due : Due} (h : r.Reaches place ts) (hd : Due.Reads due us)
    (run : r.readWithin place t due = .ok r') : r'.Reads (ts ++ us ++ [t.terminal]) := by
  cases hd with
  | operand => simpa using readOperand h run
  | firstArg hc =>
    simp only [Reading.readWithin] at run
    split at run
    · next kind =>
      cases run
      simp only [Token.terminal, kind]
      simpa using h.due (.follower (hc.call .noArgs))
    · simpa using readOperand (h.enter (.args hc .nil)) run
  | follower he => exact readFollower h he run
  | conditionStart =>
    simp only [Reading.readWithin] at run
    split at run
    · next kind =>
      cases run
      simp only [Token.terminal, kind]
      simpa using (h.enter .condition).due .operand
    · cases run
  | consequenceStart ht =>
    simp only [Reading.readWithin] at run
    split at run
    · next kind =>
      cases run
      simp only [Token.terminal, kind]
      refine Due.Reads.block (.consequenceStart ht) (fun b us hb => ?_) h
      simpa [BlockUse.complete] using Due.Reads.afterConsequence ht hb
    · cases run
  | afterConsequence ht hc =>
    simp only [Reading.readWithin] at run
    split at run
    · next kind =>
      cases run
      simp only [Token.terminal, kind]
      simpa using h.due (.alternativeStart ht hc)
    · exact readFollower h (Derives.cond ht hc).lead_expression run
  | alternativeStart ht hc =>
    simp only [Reading.readWithin] at run
    split at run
    · next kind =>
      cases run
      simp only [Token.terminal, kind]
      refine Due.Reads.block (.alternativeStart ht hc) (fun b us hb => ?_) h
      simpa [BlockUse.complete] using Due.Reads.follower (Derives.condElse ht hc hb).lead_expression
    · cases run
  | paramsStart role =>
    simp only [Reading.readWithin] at run
    split at run
    · next kind =>
      cases run
      simp only [Token.terminal, kind]
      simpa using h.due .firstParam
    · cases run
  | @firstParam role =>
    simp only [Reading.readWithin] at run
    split at run
    · next kind =>
      cases run
      simp only [Token.terminal, kind]
      simpa using h.due (@Due.Reads.bodyStart role _ _ .noParams)
    · split at run
      · next kind =>
        cases run
        simp only [Token.terminal, kind]
        simpa using h.due (@Due.Reads.afterParam role _ t.lexeme _ .nil)
      · cases run
  | nextParam hd =>
    simp only [Reading.readWithin] at run
    split at run
    · next kind =>
      cases run
      simp only [Token.terminal, kind]
      simpa using h.due (.afterParam hd)
    · cases run
  | afterParam hd =>
    simp only [Reading.readWithin] at run
    split at run
    · next kind =>
      cases run
      simp only [Token.terminal, kind]
      simpa using h.due (.nextParam (.snoc hd))
    · split at run
      · next kind =>
        cases run
        simp only [Token.terminal, kind]
        simpa using h.due (.bodyStart (.someParams (.params_append hd .lastParam)))
      · cases run
  | bodyStart hp =>
    simp only [Reading.readWithin] at run
    split at run
    · next kind =>
      cases run
      simp only [Token.terminal, kind]
      refine Due.Reads.block (.bodyStart hp) (fun b us hb => ?_) h
      simpa [BlockUse.complete] using Due.Reads.follower (Derives.routine hp hb).lead_expression
    · cases run

/-- Each step reads one terminal more. -/
theorem Reads.step (h : r.Reads ts) (run : r.step t = .ok r') : r'.Reads (ts ++ [t.terminal]) := by
  obtain ⟨outer, done, phase⟩ := r
  obtain ⟨hf, hp⟩ := h
  obtain ⟨ho, hd⟩ := hf
  cases hp with
  | statement => simpa using readStatement (.mk ho hd) run
  | bindingName =>
    simp only [Reading.step] at run
    split at run
    · next kind =>
      cases run
      simp only [Token.terminal, kind]
      have finishes : Finishes ⟨outer, done, .bindingSign t.lexeme⟩ _ := .mk ho hd
      simpa using Reads.mk finishes .bindingSign
    · cases run
  | @bindingSign id =>
    simp only [Reading.step] at run
    split at run
    · next kind =>
      cases run
      simp only [Token.terminal, kind]
      have finishes : Finishes ⟨outer, done, .bindingSign id⟩ _ := .mk ho hd
      simpa using (finishes.reaches .bind).due .operand
    · cases run
  | within hp hu => simpa using readWithin (.mk (.mk ho hd) hp) hu run

/-- Each step that takes terminals reads them. -/
theorem Reads.steps {ss : List Terminal} (h : r.Reads ts) (run : r.steps ss = some r') :
    r'.Reads (ts ++ ss) := by
  induction ss generalizing r ts with
  | nil =>
    cases run
    simpa using h
  | cons s ss ih =>
    rw [steps_cons] at run
    obtain ⟨q, taken, rest⟩ := Option.bind_eq_some_iff.mp run
    simpa [Token.terminal_token] using ih (h.step (take_eq_some.mp taken)) rest

theorem Finishes.finishStatements {p : Program} (h : r.Finishes ts)
    (run : r.finishStatements = .ok p) : Derives (.program p) ts := by
  obtain ⟨ho, hd⟩ := h
  unfold Reading.finishStatements at run
  split at run
  · next none =>
    cases run
    rw [none] at ho
    cases ho
    simpa using hd
  · cases run

theorem Reaches.finishFollower {e : Expr} {p : Program} (h : r.Reaches place ts)
    (he : Derives (.expression e) us) (run : r.finishFollower place e = .ok p) :
    Derives (.program p) (ts ++ us) := by
  obtain ⟨head, nests, waiting⟩ := place
  unfold Reading.finishFollower at run
  split at run
  · next none =>
    cases none
    simpa using (h.finishes he .absent).finishStatements run
  · cases run

/-- A program that may end here is derived from what has been read. -/
theorem Reads.finish {p : Program} (h : r.Reads ts) (run : r.finish = .ok p) :
    Derives (.program p) ts := by
  obtain ⟨outer, done, phase⟩ := r
  obtain ⟨hf, hp⟩ := h
  cases hp with
  | statement => simpa using hf.finishStatements run
  | within hp hd =>
    have reaches := Reaches.mk hf hp
    cases hd with
    | follower he => simpa using reaches.finishFollower he run
    | afterConsequence ht hc =>
      simpa using reaches.finishFollower (Derives.cond ht hc).lead_expression run
    | _ => cases run
  | _ => cases run

theorem reads_empty : empty.Reads [] := by
  have finishes : empty.Finishes ([] ++ []) := .mk .nil .noStatement
  exact finishes.statement rfl

end Reading

/-- The program that tokens spell is derived from them. -/
theorem Program.ofTokens_derives {body : List Token} {last : Token} {p : Program}
    (only : ∀ t ∈ body, t.kind ≠ .eof) (ends : last.kind = .eof)
    (read : Program.ofTokens (body ++ [last]) = .ok p) :
    Derives (.program p) (body.map Token.terminal) := by
  obtain ⟨q, steps, finish⟩ := (Reading.run_eq_ok_iff only ends).mp read
  simpa using (Reading.reads_empty.steps steps).finish finish

end Quasiquote
