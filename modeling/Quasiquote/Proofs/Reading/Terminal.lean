import Mathlib
import Quasiquote.Syntax.Reading

/-!
# Terminals

The grammar sees less of a token than there is: its kind, and of a name also the spelling.

* `Terminal`, `Token.terminal`: what it sees.
* `Reading.take`: one step of reading, on a terminal. `Reading.step_toOption` says that success and
  what comes of it hang on nothing else.
* `Reading.steps`: many steps; `Reading.Leads`: where they lead. `Reading.run_eq_ok_iff`: reading
  tokens up to their only end token succeeds if the steps do and the program may end there.
* `Reading.step_firstArg` and those behind it: where one reading takes a terminal as another one
  does.
-/

namespace Quasiquote

/-- A token as the grammar sees it. -/
inductive Terminal
  | mark (m : Mark)
  | keyword (k : Keyword)
  | name (id : String)
  | integer (n : Int64)
  | illegal
  | eof
  deriving DecidableEq, Repr

def Token.terminal (t : Token) : Terminal :=
  match t.kind with
  | .mark m => .mark m
  | .keyword k => .keyword k
  | .identifier => .name t.lexeme
  | .integer n => .integer n
  | .illegal => .illegal
  | .eof => .eof

def Terminal.token : Terminal → Token
  | .mark m => ⟨.mark m, "", 0⟩
  | .keyword k => ⟨.keyword k, "", 0⟩
  | .name id => ⟨.identifier, id, 0⟩
  | .integer n => ⟨.integer n, "", 0⟩
  | .illegal => ⟨.illegal, "", 0⟩
  | .eof => ⟨.eof, "", 0⟩

def UnaryOp.mark : UnaryOp → Mark
  | .not => .bang
  | .neg => .minus

def BinaryOp.mark : BinaryOp → Mark
  | .add => .plus
  | .sub => .minus
  | .mul => .star
  | .div => .slash
  | .lt => .less
  | .le => .lessEqual
  | .gt => .greater
  | .ge => .greaterEqual
  | .eq => .equalEqual
  | .ne => .bangEqual

def Role.keyword : Role → Keyword
  | .function => .fnWord
  | .transformer => .macroWord

/-- Whether a terminal starts a statement that is no bare expression. -/
def Terminal.opensStatement : Terminal → Bool
  | .keyword .letWord => true
  | .keyword .returnWord => true
  | _ => false

/-- Whether a terminal behind an operand goes on with that operand. -/
def Terminal.extendsOperand : Terminal → Bool
  | .mark .leftParen => true
  | .mark m => m.binaryOp?.isSome
  | .keyword .elseWord => true
  | _ => false

/-- Whether a terminal behind an operand goes on with the statement of that operand. -/
def Terminal.continues (s : Terminal) : Bool := s == .mark .semicolon || s.extendsOperand

/-- Where an opening brace starts a block of this use. -/
inductive Due.AwaitsBlock : Due → BlockUse → Prop
  | consequence {test} : AwaitsBlock (.consequenceStart test) (.consequence test)
  | alternative {test c} : AwaitsBlock (.alternativeStart test c) (.alternative test c)
  | body {role params} : AwaitsBlock (.bodyStart role params) (.body role params)

theorem Mark.binaryOp?_eq_some {m : Mark} {op : BinaryOp} :
    m.binaryOp? = some op ↔ m = op.mark := by
  cases m <;> cases op <;> decide

theorem TokenKind.eq_mark_of_binaryOp? {kind : TokenKind} {op : BinaryOp}
    (h : kind.binaryOp? = some op) : kind = .mark op.mark := by
  cases kind with
  | mark m => rw [Mark.binaryOp?_eq_some.mp h]
  | _ => cases h

theorem Token.terminal_token (s : Terminal) : s.token.terminal = s := by cases s <;> rfl

theorem Token.kind_eq_of_terminal {t u : Token} (h : t.terminal = u.terminal) :
    t.kind = u.kind := by
  unfold Token.terminal at h
  cases ht : t.kind <;> cases hu : u.kind <;> simp_all

theorem Token.lexeme_eq_of_terminal {t u : Token} (h : t.terminal = u.terminal)
    (name : t.kind = .identifier) : t.lexeme = u.lexeme := by
  have name' := Token.kind_eq_of_terminal h ▸ name
  simpa [Token.terminal, name, name'] using h

namespace Reading

variable {r : Reading} {t u : Token}

theorem readOperand_congr (place : Place) (h : t.terminal = u.terminal) :
    (r.readOperand place t).toOption = (r.readOperand place u).toOption := by
  have kind := Token.kind_eq_of_terminal h
  unfold readOperand
  rw [← kind]
  cases name : t.kind with
  | identifier => simp only [Token.lexeme_eq_of_terminal h name]
  | keyword k => cases k <;> rfl
  | mark m => cases m <;> rfl
  | _ => rfl

theorem readStatement_congr (h : t.terminal = u.terminal) :
    (r.readStatement t).toOption = (r.readStatement u).toOption := by
  unfold readStatement
  rw [← Token.kind_eq_of_terminal h]
  split
  · rfl
  · rfl
  · split
    · exact readOperand_congr _ h
    · rfl
  · exact readOperand_congr _ h

theorem readEnd_congr (place : Place) (operand : Expr) (h : t.terminal = u.terminal) :
    (r.readEnd place operand t).toOption = (r.readEnd place operand u).toOption := by
  unfold readEnd
  rw [← Token.kind_eq_of_terminal h]
  split
  · dsimp only
    split
    · rfl
    · exact readStatement_congr h
  · rfl

theorem readFollower_congr (place : Place) (operand : Expr) (h : t.terminal = u.terminal) :
    (r.readFollower place operand t).toOption = (r.readFollower place operand u).toOption := by
  unfold readFollower
  rw [← Token.kind_eq_of_terminal h]
  split
  · rfl
  · split
    · rfl
    · exact readEnd_congr place operand h

theorem readWithin_congr (place : Place) (due : Due) (h : t.terminal = u.terminal) :
    (r.readWithin place t due).toOption = (r.readWithin place u due).toOption := by
  have kind := Token.kind_eq_of_terminal h
  cases due with
  | operand => exact readOperand_congr place h
  | firstArg callee =>
    simp only [readWithin, ← kind]
    split
    · rfl
    · exact readOperand_congr _ h
  | follower operand => exact readFollower_congr place operand h
  | afterConsequence test consequence =>
    simp only [readWithin, ← kind]
    split
    · rfl
    · exact readFollower_congr place _ h
  | firstParam role =>
    simp only [readWithin, ← kind]
    split
    · rfl
    · split
      · next name => rw [Token.lexeme_eq_of_terminal h name]
      · rfl
  | nextParam role done =>
    simp only [readWithin, ← kind]
    split
    · next name => rw [Token.lexeme_eq_of_terminal h name]
    · rfl
  | _ => simp only [readWithin, ← kind]

/-- Success of a step, and what comes of it, hang on the terminal only. -/
theorem step_congr (h : t.terminal = u.terminal) :
    (r.step t).toOption = (r.step u).toOption := by
  have kind := Token.kind_eq_of_terminal h
  obtain ⟨outer, done, phase⟩ := r
  cases phase with
  | statement => exact readStatement_congr h
  | bindingName =>
    simp only [step, ← kind]
    split
    · next name => rw [Token.lexeme_eq_of_terminal h name]
    · rfl
  | bindingSign name => simp only [step, ← kind]
  | within place due => exact readWithin_congr place due h

def take (r : Reading) (s : Terminal) : Option Reading := (r.step s.token).toOption

theorem take_eq_some {q : Reading} {s : Terminal} :
    r.take s = some q ↔ r.step s.token = .ok q := by
  unfold take
  cases r.step s.token <;> simp [Except.toOption]

theorem step_toOption (r : Reading) (t : Token) : (r.step t).toOption = r.take t.terminal :=
  step_congr (Token.terminal_token t.terminal).symm

def steps (r : Reading) (ss : List Terminal) : Option Reading := ss.foldlM take r

@[simp] theorem steps_nil (r : Reading) : r.steps [] = some r := rfl

theorem steps_cons (r : Reading) (s : Terminal) (ss : List Terminal) :
    r.steps (s :: ss) = (r.take s).bind fun q => q.steps ss := rfl

theorem steps_append (r : Reading) (ss us : List Terminal) :
    r.steps (ss ++ us) = (r.steps ss).bind fun q => q.steps us :=
  List.foldlM_append

/-- Inside of a program an end is never taken. -/
theorem take_eof (r : Reading) : r.take .eof = none := by
  have failed (place : Place) (e : Expr) :
      ∃ c, r.readFollower place e ⟨.eof, "", 0⟩ = .error c := by
    obtain ⟨head, _ | ⟨⟨_ | _ | _, waiting⟩, nests⟩, ws⟩ := place <;> exact ⟨_, rfl⟩
  have fails : ∃ c, r.step Terminal.eof.token = .error c := by
    obtain ⟨outer, done, _ | _ | _ | ⟨place, due⟩⟩ := r
    case within =>
      cases due with
      | follower e => exact failed place e
      | afterConsequence test c => exact failed place (.cond test c none)
      | _ => exact ⟨_, rfl⟩
    all_goals exact ⟨_, rfl⟩
  obtain ⟨c, fails⟩ := fails
  simp [take, fails, Except.toOption]

theorem steps_no_eof {r q : Reading} {ss : List Terminal} (h : r.steps ss = some q) :
    .eof ∉ ss := by
  induction ss generalizing r with
  | nil => exact List.not_mem_nil
  | cons s ss ih =>
    rw [steps_cons] at h
    obtain ⟨next, taken, rest⟩ := Option.bind_eq_some_iff.mp h
    rintro (_ | ⟨_, later⟩)
    · rw [take_eof] at taken
      cases taken
    · exact ih rest later

section Deferring

variable {outer : List Suspended} {done : List Stmt} {place : Place} {head : Head}
  {waiting : List Pending} {callee e test : Expr} {c : Block} {s : Terminal}

/-- Where a first argument is due, whatever does not close the list is read as an operand in it. -/
theorem step_firstArg (more : s ≠ .mark .rightParen) :
    step ⟨outer, done, .within place (.firstArg callee)⟩ s.token =
      step ⟨outer, done, .within (place.enter (.args callee [])) .operand⟩ s.token := by
  have unclosed : s.token.kind ≠ .mark .rightParen := by
    intro h
    cases s <;> simp_all [Terminal.token]
  simp only [step, readWithin, if_neg unclosed]
  rfl

theorem step_statement (quiet : s.opensStatement = false) (inside : s ≠ .mark .rightBrace) :
    step ⟨outer, done, .statement⟩ s.token =
      step ⟨outer, done, .within (.first .expr) .operand⟩ s.token := by
  cases s with
  | mark m =>
    cases m <;> first | rfl | exact absurd rfl inside
  | keyword k =>
    cases k <;> first | rfl | cases quiet
  | _ => rfl

theorem step_leftBrace {due : Due} {blockUse : BlockUse} (awaits : Due.AwaitsBlock due blockUse) :
    step ⟨outer, done, .within place due⟩ (Terminal.mark .leftBrace).token =
      .ok ⟨⟨done, place, blockUse⟩ :: outer, [], .statement⟩ := by
  cases awaits <;> rfl

theorem step_afterConsequence (other : s ≠ .keyword .elseWord) :
    step ⟨outer, done, .within place (.afterConsequence test c)⟩ s.token =
      step ⟨outer, done, .within place (.follower (.cond test c none))⟩ s.token := by
  have other' : s.token.kind ≠ .keyword .elseWord := by
    intro h
    cases s <;> simp_all [Terminal.token]
  simp only [step, readWithin, if_neg other']
  rfl

theorem step_operator (op : BinaryOp) :
    step ⟨outer, done, .within place (.follower e)⟩ (Terminal.mark op.mark).token =
      .ok ⟨outer, done, .within ⟨place.head, place.nests,
        .binary (settle op.strength place.waiting e).1 op ::
          (settle op.strength place.waiting e).2⟩ .operand⟩ := by
  cases op <;> rfl

/-- What goes on with no operand settles every operator that waits for one. -/
theorem step_settled {nests : List Nest} (ends : s.extendsOperand = false) :
    step ⟨outer, done, .within ⟨head, nests, waiting⟩ (.follower e)⟩ s.token =
      step ⟨outer, done, .within ⟨head, nests, []⟩ (.follower (settleAll waiting e))⟩ s.token := by
  cases s with
  | mark m => cases m <;> first | rfl | cases ends
  | _ => rfl

/-- Behind a whole statement, what does not go on with it is read as the start of the next one. -/
theorem step_ended (apart : s.continues = false) :
    step ⟨outer, done, .within ⟨head, [], waiting⟩ (.follower e)⟩ s.token =
      step ⟨outer, done ++ [head.complete (settleAll waiting e)], .statement⟩ s.token := by
  cases s with
  | mark m => cases m <;> first | rfl | cases apart
  | keyword k => cases k <;> rfl
  | _ => rfl

end Deferring

/-- Taking the terminals leads to a reading with this property. -/
def Leads (r : Reading) (ss : List Terminal) (P : Reading → Prop) : Prop :=
  ∃ q, r.steps ss = some q ∧ P q

theorem Leads.nil {r : Reading} {P : Reading → Prop} (h : P r) : r.Leads [] P := ⟨r, rfl, h⟩

theorem Leads.cons {r q : Reading} {s : Terminal} {ss : List Terminal} {P : Reading → Prop}
    (taken : r.step s.token = .ok q) (h : q.Leads ss P) : r.Leads (s :: ss) P := by
  obtain ⟨last, steps, hl⟩ := h
  refine ⟨last, ?_, hl⟩
  rw [steps_cons, take_eq_some.mpr taken]
  exact steps

theorem Leads.one {r q : Reading} {s : Terminal} {P : Reading → Prop}
    (taken : r.step s.token = .ok q) (h : P q) : r.Leads [s] P := .cons taken (.nil h)

/-- The reading that the first terminal is taken by may be another one that takes it alike. -/
theorem Leads.of_step_eq {r r' : Reading} {s : Terminal} {ss : List Terminal}
    {P : Reading → Prop} (h : r'.Leads (s :: ss) P) (same : r.step s.token = r'.step s.token) :
    r.Leads (s :: ss) P := by
  obtain ⟨last, steps, hl⟩ := h
  refine ⟨last, ?_, hl⟩
  rw [steps_cons] at steps ⊢
  rwa [take, same]

theorem Leads.trans {r : Reading} {ss us : List Terminal} {P Q : Reading → Prop}
    (h : r.Leads ss P) (next : ∀ q, P q → q.Leads us Q) : r.Leads (ss ++ us) Q := by
  obtain ⟨q, steps, hq⟩ := h
  obtain ⟨last, more, hl⟩ := next q hq
  refine ⟨last, ?_, hl⟩
  rw [steps_append, steps]
  exact more

theorem Leads.weaken {r : Reading} {ss : List Terminal} {P Q : Reading → Prop}
    (h : r.Leads ss P) (le : ∀ q, P q → Q q) : r.Leads ss Q := by
  obtain ⟨q, steps, hq⟩ := h
  exact ⟨q, steps, le q hq⟩

theorem run_eq_ok_iff {r : Reading} {body : List Token} {last : Token} {p : Program}
    (only : ∀ t ∈ body, t.kind ≠ .eof) (ends : last.kind = .eof) :
    r.run (body ++ [last]) = .ok p ↔
      ∃ q, r.steps (body.map Token.terminal) = some q ∧ q.finish = .ok p := by
  induction body generalizing r with
  | nil =>
    cases h : r.finish <;> simp [run, ends, h, Except.mapError]
  | cons t rest ih =>
    have more : t.kind ≠ .eof := only t List.mem_cons_self
    have taken := r.step_toOption t
    rw [List.map_cons, steps_cons, ← taken, List.cons_append, run, if_neg more]
    cases h : r.step t with
    | error complaint => simp [Except.toOption]
    | ok next => exact ih fun u hu => only u (List.mem_cons_of_mem t hu)

end Reading

end Quasiquote
