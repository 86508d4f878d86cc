import Quasiquote.Proofs.Reading.Completeness

/-!
# Terminals that can be read in one way only

The grammar leaves open how operators group and where statements end. `Spells` is the part of it
that leaves nothing open: an operand is spelled with a strength, which says how tightly everything
binds that is not in parentheses in it, and a statement without a semicolon has to stand apart from
the next one. Parentheses may be around any operand, needed or not.

* `settle_append`, `Closed`: which waiting operators are settled when.
* `Reading.Holds`: where a reading is behind an operand of some strength.
* `Spells.passes`: from where an operand or a statement is due, its terminals lead to a reading that
  holds exactly that tree. `Spells.read` is the same for a whole program.
-/

namespace Quasiquote

inductive Form
  /-- An operand that binds at least so tightly. -/
  | operand (strength : Nat) (e : Expr)
  | args (xs : List Expr)
  | optionalArgs (xs : List Expr)
  | statement (s : Stmt)
  | statements (ss : List Stmt)

def nameTerminals : List String → List Terminal
  | [] => []
  | [id] => [.name id]
  | id :: next :: rest => .name id :: .mark .comma :: nameTerminals (next :: rest)

theorem derives_nameTerminals (ps : List String) :
    Derives (.optionalParams ps) (nameTerminals ps) := by
  cases ps with
  | nil => exact .noParams
  | cons id ps =>
    refine .someParams ?_
    induction ps generalizing id with
    | nil => exact .lastParam
    | cons next rest ih => exact .moreParams (ih next)

/-- Whether no terminal of a next statement goes on with the one before it. -/
def Apart (ts : List Terminal) : Prop := ∀ s ∈ ts.head?, s.continues = false

/-- The terminals spell the form and nothing else. The strength of a call is that of literals. -/
inductive Spells : Form → List Terminal → Prop
  | name {id} : Spells (.operand 6 (.name id)) [.name id]
  | int {n} : Spells (.operand 6 (.int n)) [.integer n]
  | trueLit : Spells (.operand 6 (.bool true)) [.keyword .trueWord]
  | falseLit : Spells (.operand 6 (.bool false)) [.keyword .falseWord]
  | unary (op : UnaryOp) {e ts} (operand : Spells (.operand op.strength e) ts) :
      Spells (.operand op.strength (.unary op e)) (.mark op.mark :: ts)
  /-- Operators of one strength group from the left. -/
  | binary {left op right ts us} (hl : Spells (.operand op.strength left) ts)
      (hr : Spells (.operand (op.strength + 1) right) us) :
      Spells (.operand op.strength (.binary left op right)) (ts ++ .mark op.mark :: us)
  | cond {test c ts us} (condition : Spells (.operand 0 test) ts)
      (consequence : Spells (.statements c) us) :
      Spells (.operand 6 (.cond test c none)) (.keyword .ifWord :: .mark .leftParen ::
        (ts ++ .mark .rightParen :: .mark .leftBrace :: (us ++ [.mark .rightBrace])))
  | condElse {test c d ts us vs} (condition : Spells (.operand 0 test) ts)
      (consequence : Spells (.statements c) us) (alternative : Spells (.statements d) vs) :
      Spells (.operand 6 (.cond test c (some d))) (.keyword .ifWord :: .mark .leftParen ::
        (ts ++ .mark .rightParen :: .mark .leftBrace :: (us ++ .mark .rightBrace ::
          .keyword .elseWord :: .mark .leftBrace :: (vs ++ [.mark .rightBrace]))))
  | routine {role ps b ts us} (parameters : Derives (.optionalParams ps) ts)
      (body : Spells (.statements b) us) :
      Spells (.operand 6 (.routine role ps b)) (.keyword role.keyword :: .mark .leftParen ::
        (ts ++ .mark .rightParen :: .mark .leftBrace :: (us ++ [.mark .rightBrace])))
  | call {callee xs ts us} (hc : Spells (.operand 6 callee) ts)
      (arguments : Spells (.optionalArgs xs) us) :
      Spells (.operand 6 (.call callee xs))
        (ts ++ .mark .leftParen :: (us ++ [.mark .rightParen]))
  | group {e ts} (inner : Spells (.operand 0 e) ts) :
      Spells (.operand 6 e) (.mark .leftParen :: (ts ++ [.mark .rightParen]))
  | looser {k j e ts} (tighter : Spells (.operand k e) ts) (le : j ≤ k) :
      Spells (.operand j e) ts
  | noArgs : Spells (.optionalArgs []) []
  | someArgs {xs ts} (some : Spells (.args xs) ts) : Spells (.optionalArgs xs) ts
  | lastArg {x ts} (last : Spells (.operand 0 x) ts) : Spells (.args [x]) ts
  | moreArgs {x xs ts us} (first : Spells (.operand 0 x) ts) (more : Spells (.args xs) us) :
      Spells (.args (x :: xs)) (ts ++ .mark .comma :: us)
  | binding {id e ts} (value : Spells (.operand 0 e) ts) :
      Spells (.statement (.bind id e))
        (.keyword .letWord :: .name id :: .mark .equal :: ts)
  | ret {e ts} (value : Spells (.operand 0 e) ts) :
      Spells (.statement (.ret e)) (.keyword .returnWord :: ts)
  | bare {e ts} (value : Spells (.operand 0 e) ts) : Spells (.statement (.expr e)) ts
  | noStatement : Spells (.statements []) []
  | ended {s ss ts us} (first : Spells (.statement s) ts) (rest : Spells (.statements ss) us) :
      Spells (.statements (s :: ss)) (ts ++ .mark .semicolon :: us)
  | unended {s ss ts us} (first : Spells (.statement s) ts) (apart : Apart us)
      (rest : Spells (.statements ss) us) : Spells (.statements (s :: ss)) (ts ++ us)

/-- An operator of this strength or a tighter one leaves everything waiting that waits. -/
def Closed (k : Nat) (waiting : List Pending) : Prop :=
  ∀ op : BinaryOp, k ≤ op.strength → ∀ e, settle op.strength waiting e = (e, waiting)

theorem settle_append {k : Nat} {us waiting : List Pending} (tight : ∀ p ∈ us, k ≤ p.strength)
    (e : Expr) : settle k (us ++ waiting) e = settle k waiting (settleAll us e) := by
  induction us generalizing e with
  | nil => rfl
  | cons p us ih =>
    rw [List.cons_append, settle, if_pos (tight p List.mem_cons_self)]
    exact ih (fun q hq => tight q (List.mem_cons_of_mem p hq)) _

theorem settleAll_append (us waiting : List Pending) (e : Expr) :
    settleAll (us ++ waiting) e = settleAll waiting (settleAll us e) := List.foldl_append

theorem BinaryOp.strength_lt (op : BinaryOp) : op.strength < 5 := by cases op <;> decide

theorem Pending.strength_lt (p : Pending) : p.strength < 6 := by
  cases p with
  | unary op => exact Nat.lt_succ_self 5
  | binary left op => exact Nat.lt_succ_of_lt op.strength_lt

theorem Closed.mono {j k : Nat} {waiting : List Pending} (h : Closed j waiting) (le : j ≤ k) :
    Closed k waiting := fun op hk => h op (Nat.le_trans le hk)

theorem closed_nil (k : Nat) : Closed k [] := fun _ _ _ => rfl

/-- No operator with two operands is so tight. -/
theorem closed_tight {k : Nat} (h : 5 ≤ k) (waiting : List Pending) : Closed k waiting := by
  intro op hk
  have := op.strength_lt
  omega

theorem closed_binary (left : Expr) (op : BinaryOp) (waiting : List Pending) :
    Closed (op.strength + 1) (.binary left op :: waiting) := by
  intro other hk e
  have looser : ¬other.strength ≤ (Pending.binary left op).strength := by
    simp only [Pending.strength]
    omega
  rw [settle, if_neg looser]

/-- What is due behind an operand that is complete, if nothing goes on with it. -/
inductive Due.Yields : Due → Expr → Prop
  | operand {e} : Yields (.follower e) e
  | consequence {test c} : Yields (.afterConsequence test c) (.cond test c none)

namespace Reading

/-- The operand has been read from this place on. Operators in it may still wait, but they bind at
least so tightly. -/
inductive Holds (outer : List Suspended) (done : List Stmt) (place : Place) (k : Nat) (e : Expr) :
    Reading → Prop
  | mk (us) {x due} (hd : Due.Yields due x) (tight : ∀ p ∈ us, k ≤ p.strength)
      (value : settleAll us x = e) :
      Holds outer done place k e
        ⟨outer, done, .within ⟨place.head, place.nests, us ++ place.waiting⟩ due⟩

/-- The statement has been read, but for what may go on with it. -/
inductive Ends (outer : List Suspended) (done : List Stmt) : Stmt → Reading → Prop
  | mk {head e r} (h : Holds outer done (.first head) 0 e r) : Ends outer done (head.complete e) r

inductive Ended (outer : List Suspended) : List Stmt → Reading → Prop
  | statement {done} : Ended outer done ⟨outer, done, .statement⟩
  | ends {done s r} (h : Ends outer done s r) : Ended outer (done ++ [s]) r

variable {r : Reading} {outer : List Suspended} {done : List Stmt} {place : Place} {head : Head}
  {nests : List Nest} {waiting : List Pending} {k : Nat} {e : Expr} {s : Terminal}

theorem Holds.follower : Holds outer done place k e ⟨outer, done, .within place (.follower e)⟩ :=
  .mk [] .operand (by simp) rfl

theorem Holds.consequence {test : Expr} {c : Block} :
    Holds outer done place k (.cond test c none)
      ⟨outer, done, .within place (.afterConsequence test c)⟩ :=
  .mk [] .consequence (by simp) rfl

theorem Holds.looser {j : Nat} (h : Holds outer done place k e r) (le : j ≤ k) :
    Holds outer done place j e r := by
  obtain ⟨us, hd, tight, value⟩ := h
  exact .mk us hd (fun p hp => Nat.le_trans le (tight p hp)) value

/-- An operator that waits for an operand is part of a larger one with it. -/
theorem Holds.complete {p : Pending} {j : Nat} (h : Holds outer done (place.await p) j e r)
    (le : k ≤ j) (tight : k ≤ p.strength) : Holds outer done place k (p.complete e) r := by
  obtain ⟨us, hd, inner, rfl⟩ := h
  have all : ∀ q ∈ us ++ [p], k ≤ q.strength := by
    simp only [List.mem_append, List.mem_singleton]
    rintro q (hq | rfl)
    · exact Nat.le_trans le (inner q hq)
    · exact tight
  have held : Holds outer done place k _ _ := .mk (us ++ [p]) hd all (settleAll_append us [p] _)
  rw [List.append_assoc] at held
  exact held

/-- What goes on with no operand is read as behind a finished one. -/
theorem Holds.step_eq (h : Holds outer done ⟨head, nests, []⟩ k e r)
    (ends : s.extendsOperand = false) :
    r.step s.token = step ⟨outer, done, .within ⟨head, nests, []⟩ (.follower e)⟩ s.token := by
  obtain ⟨us, hd, tight, rfl⟩ := h
  have other : s ≠ .keyword .elseWord := by
    rintro rfl
    cases ends
  rw [List.append_nil]
  cases hd with
  | operand => exact step_settled ends
  | consequence => exact (step_afterConsequence other).trans (step_settled ends)

theorem Holds.operator {op : BinaryOp} (h : Holds outer done place op.strength e r)
    (closed : Closed op.strength place.waiting) :
    r.step (Terminal.mark op.mark).token =
      .ok ⟨outer, done, .within (place.await (.binary e op)) .operand⟩ := by
  obtain @⟨us, x, _, hd, tight, rfl⟩ := h
  have settled : settle op.strength (us ++ place.waiting) x = (settleAll us x, place.waiting) :=
    (settle_append tight x).trans (closed op (Nat.le_refl _) _)
  have step := @step_operator outer done ⟨place.head, place.nests, us ++ place.waiting⟩ x op
  rw [settled] at step
  cases hd with
  | operand => exact step
  | consequence =>
    have other : Terminal.mark op.mark ≠ .keyword .elseWord := nofun
    exact (step_afterConsequence other).trans step

/-- No operator that waits is as tight as a call. -/
theorem Holds.openArgs (h : Holds outer done place 6 e r) :
    r.step (Terminal.mark .leftParen).token =
      .ok ⟨outer, done, .within place (.firstArg e)⟩ := by
  obtain ⟨us, hd, tight, rfl⟩ := h
  cases us with
  | nil => cases hd <;> rfl
  | cons p us =>
    have := p.strength_lt
    have := tight p List.mem_cons_self
    omega

theorem Ends.step_eq {stmt : Stmt} (h : Ends outer done stmt r) (apart : s.continues = false) :
    r.step s.token = step ⟨outer, done ++ [stmt], .statement⟩ s.token := by
  obtain ⟨h⟩ := h
  have ends : s.extendsOperand = false := (Bool.or_eq_false_iff.mp apart).2
  exact (h.step_eq ends).trans (step_ended apart)

theorem Ends.semicolon {stmt : Stmt} (h : Ends outer done stmt r) :
    r.step (Terminal.mark .semicolon).token = .ok ⟨outer, done ++ [stmt], .statement⟩ := by
  obtain ⟨h⟩ := h
  exact h.step_eq rfl

theorem Ended.step_eq {ss : List Stmt} (h : Ended outer ss r) (apart : s.continues = false) :
    r.step s.token = step ⟨outer, ss, .statement⟩ s.token := by
  cases h with
  | statement => rfl
  | ends h => exact h.step_eq apart

theorem Ended.finish {ss : List Stmt} (h : Ended [] ss r) : r.finish = .ok ss := by
  cases h with
  | statement => rfl
  | ends h =>
    obtain ⟨us, hd, tight, rfl⟩ := h
    rw [Place.first, List.append_nil]
    cases hd <;> rfl

/-- Terminals that stand apart are read from behind statements as from after them. -/
theorem Ended.leads {ss all : List Stmt} {ts : List Terminal} (h : Ended outer ss r)
    (apart : Apart ts) (leads : Leads ⟨outer, ss, .statement⟩ ts (Ended outer all)) :
    r.Leads ts (Ended outer all) := by
  cases ts with
  | nil =>
    obtain ⟨q, steps, hq⟩ := leads
    cases steps
    obtain _ | ⟨⟨⟨⟩⟩⟩ := hq
    exact .nil h
  | cons s ts => exact leads.of_step_eq (h.step_eq (apart s rfl))

end Reading

/-- What the terminals of a form lead from and to. Arguments are read together with the parenthesis
behind them. -/
def Form.Passes : Form → List Terminal → Prop
  | .operand k e, ts => ∀ outer done place, Closed k place.waiting →
      Reading.Leads ⟨outer, done, .within place .operand⟩ ts (Reading.Holds outer done place k e)
  | .args xs, ts => ∀ outer done head nests waiting callee before,
      Reading.Leads
        ⟨outer, done, .within ⟨head, ⟨.args callee before, waiting⟩ :: nests, []⟩ .operand⟩
        (ts ++ [.mark .rightParen])
        fun q => q = ⟨outer, done,
          .within ⟨head, nests, waiting⟩ (.follower (.call callee (before ++ xs)))⟩
  | .optionalArgs xs, ts => ∀ outer done place callee,
      Reading.Leads ⟨outer, done, .within place (.firstArg callee)⟩ (ts ++ [.mark .rightParen])
        fun q => q = ⟨outer, done, .within place (.follower (.call callee xs))⟩
  | .statement s, ts => ∀ outer done,
      Reading.Leads ⟨outer, done, .statement⟩ ts (Reading.Ends outer done s)
  | .statements ss, ts => ∀ outer done,
      Reading.Leads ⟨outer, done, .statement⟩ ts (Reading.Ended outer (done ++ ss))

def Terminal.mayStartOperand (s : Terminal) : Bool :=
  s.startsOperand || s == .mark .leftParen || s == .mark .minus

/-- Operands and arguments start where operands do. -/
def Form.Opens : Form → List Terminal → Prop
  | .operand _ _, ts => ∃ s us, ts = s :: us ∧ s.mayStartOperand
  | .args _, ts => ∃ s us, ts = s :: us ∧ s.mayStartOperand
  | _, _ => True

namespace Spells

open Reading

variable {outer : List Suspended} {done : List Stmt} {place : Place} {due : Due}
  {blockUse : BlockUse} {ts us : List Terminal} {b : Block}

theorem opens {form : Form} (h : Spells form ts) : form.Opens ts := by
  induction h with
  | name => exact ⟨_, _, rfl, rfl⟩
  | int => exact ⟨_, _, rfl, rfl⟩
  | trueLit => exact ⟨_, _, rfl, rfl⟩
  | falseLit => exact ⟨_, _, rfl, rfl⟩
  | unary op => cases op <;> exact ⟨_, _, rfl, rfl⟩
  | binary _ _ hl =>
    obtain ⟨s, us, rfl, hs⟩ := hl
    exact ⟨s, _, rfl, hs⟩
  | cond => exact ⟨_, _, rfl, rfl⟩
  | condElse => exact ⟨_, _, rfl, rfl⟩
  | @routine role => cases role <;> exact ⟨_, _, rfl, rfl⟩
  | call _ _ hc =>
    obtain ⟨s, us, rfl, hs⟩ := hc
    exact ⟨s, _, rfl, hs⟩
  | group => exact ⟨_, _, rfl, rfl⟩
  | looser _ _ ih => exact ih
  | lastArg _ ih => exact ih
  | moreArgs _ _ ih =>
    obtain ⟨s, us, rfl, hs⟩ := ih
    exact ⟨s, _, rfl, hs⟩
  | _ => trivial

theorem block_passes (awaits : Due.AwaitsBlock due blockUse)
    (body : (Form.statements b).Passes ts) :
    Leads ⟨outer, done, .within place due⟩ (.mark .leftBrace :: (ts ++ [.mark .rightBrace]))
      fun q => q = ⟨outer, done, .within place (blockUse.complete b)⟩ := by
  refine .cons (step_leftBrace awaits) ((body _ _).trans fun q hq => ?_)
  exact .one (hq.step_eq rfl) rfl

theorem unary_passes {op : UnaryOp} {e : Expr} (operand : (Form.operand op.strength e).Passes ts) :
    (Form.operand op.strength (.unary op e)).Passes (.mark op.mark :: ts) := by
  intro outer done place _
  have opens : step ⟨outer, done, .within place .operand⟩ (Terminal.mark op.mark).token =
      .ok ⟨outer, done, .within (place.await (.unary op)) .operand⟩ := by
    cases op <;> rfl
  refine .cons opens ((operand _ _ _ (closed_tight (Nat.le_refl 5) _)).weaken fun q hq => ?_)
  exact hq.complete (Nat.le_refl _) (Nat.le_refl _)

theorem binary_passes {left right : Expr} {op : BinaryOp}
    (hl : (Form.operand op.strength left).Passes ts)
    (hr : (Form.operand (op.strength + 1) right).Passes us) :
    (Form.operand op.strength (.binary left op right)).Passes (ts ++ .mark op.mark :: us) := by
  intro outer done place closed
  refine (hl _ _ _ closed).trans fun q hq => .cons (hq.operator closed) ?_
  refine (hr _ _ _ (closed_binary _ _ _)).weaken fun q hq => ?_
  exact hq.complete (Nat.le_succ _) (Nat.le_refl _)

/-- A condition and its consequence, behind which an alternative may still come. -/
theorem cond_passes {test : Expr} {vs : List Terminal} {P : Reading → Prop}
    (condition : (Form.operand 0 test).Passes ts) (consequence : (Form.statements b).Passes us)
    (rest : Leads ⟨outer, done, .within place (.afterConsequence test b)⟩ vs P) :
    Leads ⟨outer, done, .within place .operand⟩ (.keyword .ifWord :: .mark .leftParen ::
      (ts ++ .mark .rightParen :: .mark .leftBrace :: (us ++ .mark .rightBrace :: vs))) P := by
  refine .cons rfl (.cons rfl ((condition _ _ _ (closed_nil 0)).trans fun q hq => ?_))
  have block := (block_passes .consequence consequence).trans fun q hq => hq ▸ rest
  rw [List.cons_append, List.append_assoc] at block
  exact .cons (hq.step_eq rfl) block

theorem passes {form : Form} (h : Spells form ts) : form.Passes ts := by
  induction h with
  | name => exact fun _ _ _ _ => .one rfl .follower
  | int => exact fun _ _ _ _ => .one rfl .follower
  | trueLit => exact fun _ _ _ _ => .one rfl .follower
  | falseLit => exact fun _ _ _ _ => .one rfl .follower
  | unary _ _ operand => exact unary_passes operand
  | binary _ _ hl hr => exact binary_passes hl hr
  | cond _ _ condition consequence =>
    exact fun _ _ _ _ => cond_passes condition consequence (.nil .consequence)
  | condElse _ _ _ condition consequence alternative =>
    intro outer done place _
    refine cond_passes condition consequence (.cons rfl ?_)
    refine (block_passes .alternative alternative).weaken ?_
    rintro q rfl
    exact .follower
  | @routine role ps b ts us parameters _ body =>
    intro outer done place _
    have opens : step ⟨outer, done, .within place .operand⟩
        (Terminal.keyword role.keyword).token =
        .ok ⟨outer, done, .within place (.paramsStart role)⟩ := by
      cases role <;> rfl
    have rest : Leads ⟨outer, done, .within place (.firstParam role)⟩
        (ts ++ [.mark .rightParen] ++ (.mark .leftBrace :: (us ++ [.mark .rightBrace])))
        (Holds outer done place 6 (.routine role ps b)) := by
      refine (parameters.passes outer done place role).trans ?_
      rintro q rfl
      refine (block_passes .body body).weaken ?_
      rintro q rfl
      exact .follower
    rw [List.append_assoc] at rest
    exact .cons opens (.cons rfl rest)
  | call _ _ hc arguments =>
    intro outer done place closed
    refine (hc _ _ _ closed).trans fun q hq => .cons hq.openArgs ?_
    refine (arguments _ _ _ _).weaken ?_
    rintro q rfl
    exact .follower
  | group _ inner =>
    intro outer done place _
    refine .cons rfl ((inner _ _ _ (closed_nil 0)).trans fun q hq => ?_)
    exact .one (hq.step_eq rfl) .follower
  | looser _ le tighter =>
    intro outer done place closed
    exact (tighter _ _ _ (closed.mono le)).weaken fun q hq => hq.looser le
  | noArgs => exact fun _ _ _ _ => .one rfl rfl
  | someArgs some args =>
    intro outer done place callee
    obtain ⟨s, us, rfl, hs⟩ := some.opens
    have more : s ≠ .mark .rightParen := by
      rintro rfl
      cases hs
    exact (args outer done place.head place.nests place.waiting callee []).of_step_eq
      (step_firstArg more)
  | lastArg _ last =>
    intro outer done head nests waiting callee before
    refine (last _ _ _ (closed_nil 0)).trans fun q hq => ?_
    exact .one (hq.step_eq rfl) rfl
  | @moreArgs x xs _ _ _ _ first more =>
    intro outer done head nests waiting callee before
    have leads := (first outer done ⟨head, ⟨.args callee before, waiting⟩ :: nests, []⟩
      (closed_nil 0)).trans fun q hq => .cons (hq.step_eq (s := .mark .comma) rfl)
        (more outer done head nests waiting callee (before ++ [x]))
    simpa using leads
  | binding _ value =>
    intro outer done
    refine .cons rfl (.cons rfl (.cons rfl ?_))
    exact (value _ _ _ (closed_nil 0)).weaken fun q hq => .mk hq
  | ret _ value =>
    intro outer done
    exact .cons rfl ((value _ _ _ (closed_nil 0)).weaken fun q hq => .mk hq)
  | bare he value =>
    intro outer done
    obtain ⟨s, us, rfl, hs⟩ := he.opens
    have inside : s ≠ .mark .rightBrace := by
      rintro rfl
      cases hs
    have quiet : s.opensStatement = false := by
      cases s with
      | keyword k => cases k <;> first | rfl | cases hs
      | _ => rfl
    refine Leads.of_step_eq ?_ (step_statement quiet inside)
    exact (value _ _ _ (closed_nil 0)).weaken fun q hq => .mk hq
  | @noStatement =>
    intro outer done
    rw [List.append_nil]
    exact .nil .statement
  | @ended s ss _ _ _ _ first rest =>
    intro outer done
    have rest := rest outer (done ++ [s])
    rw [List.append_assoc] at rest
    exact (first outer done).trans fun q hq => .cons hq.semicolon rest
  | @unended s ss _ _ _ apart _ first rest =>
    intro outer done
    have rest := rest outer (done ++ [s])
    rw [List.append_assoc] at rest
    exact (first outer done).trans fun q hq => (Ended.ends hq).leads apart rest

/-- Tokens that spell statements are read as these statements. -/
theorem read {p : Program} {tokens : List Token} {last : Token}
    (h : Spells (.statements p) (tokens.map Token.terminal)) (ends : last.kind = .eof) :
    Program.ofTokens (tokens ++ [last]) = .ok p := by
  obtain ⟨q, steps, ended⟩ := h.passes [] []
  have only : ∀ t ∈ tokens, t.kind ≠ .eof := by
    intro t ht eof
    have terminal : t.terminal = .eof := by simp [Token.terminal, eof]
    exact steps_no_eof steps (terminal ▸ List.mem_map_of_mem ht)
  exact (run_eq_ok_iff only ends).mpr ⟨q, steps, ended.finish⟩

end Spells

end Quasiquote
