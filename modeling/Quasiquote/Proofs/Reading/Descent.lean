import Quasiquote.Proofs.Reading.Refusal

/-!
# Reading by descent

Another way to read a program: each rule of the grammar is a function, which calls those of its
parts, and a cursor stands on the next token. Here a call may read where there is no token, may go
on for ever, and may find that it has no operator for a token it took for one; that it does not is
to be proved.

* `Descent.Parse`: what a rule does. `Descent.peek` and `Descent.previous` are all that reads
  tokens.
* `Descent.statement`, `Descent.expression`, `Descent.block`: the rules. `Descent.parse` reads a
  program from the first token on.
* `Descent.FirstEnd`, `Descent.On`: where the first end token is, and which token the cursor is on,
  up to there. No step with the cursor finds anything missing then.
-/

namespace Quasiquote

/-- How tightly a token binds what is in front of it to what is behind it; not at all if zero. -/
def TokenKind.precedence : TokenKind → Nat
  | .mark .equalEqual => 1
  | .mark .bangEqual => 1
  | .mark .less => 2
  | .mark .lessEqual => 2
  | .mark .greater => 2
  | .mark .greaterEqual => 2
  | .mark .plus => 3
  | .mark .minus => 3
  | .mark .star => 4
  | .mark .slash => 4
  | .mark .leftParen => 6
  | _ => 0

theorem TokenKind.precedence_of_binaryOp? {kind : TokenKind} {op : BinaryOp}
    (h : kind.binaryOp? = some op) : kind.precedence = op.strength := by
  rw [eq_mark_of_binaryOp? h]
  cases op <;> rfl

theorem TokenKind.quiet_of_precedence {kind : TokenKind} (h : kind.precedence = 0) :
    kind ≠ .mark .leftParen ∧ kind.binaryOp? = none := by
  constructor
  · rintro rfl
    cases h
  · rw [Option.eq_none_iff_forall_ne_some]
    intro op isOp
    rw [precedence_of_binaryOp? isOp] at h
    cases op <;> cases h

theorem TokenKind.binaryOp?_of_precedence {kind : TokenKind} (h : 0 < kind.precedence)
    (other : kind ≠ .mark .leftParen) : ∃ op, kind.binaryOp? = some op := by
  cases kind with
  | mark m => cases m <;> first | exact ⟨_, rfl⟩ | exact absurd rfl other | cases h
  | _ => cases h

inductive Start
  | literal (e : Expr)
  | sign (op : UnaryOp)
  | group
  | condition
  | routine (role : Role)

/-- What an operand is that starts with this token; none does if it is nothing. -/
def Token.start? (t : Token) : Option Start :=
  match t.kind with
  | .identifier => some (.literal (.name t.lexeme))
  | .integer n => some (.literal (.int n))
  | .keyword .trueWord => some (.literal (.bool true))
  | .keyword .falseWord => some (.literal (.bool false))
  | .mark .bang => some (.sign .not)
  | .mark .minus => some (.sign .neg)
  | .mark .leftParen => some .group
  | .keyword .ifWord => some .condition
  | .keyword .fnWord => some (.routine .function)
  | .keyword .macroWord => some (.routine .transformer)
  | _ => none

/-- Tokens, as they are read by descent. -/
abbrev Descent := List Token

namespace Descent

/-- Why a rule gives nothing. -/
inductive Stop
  | refused (error : SyntaxError)
  /-- A token that was taken for an operator is none. -/
  | noOperator (t : Token)
  /-- There is no token at this place. -/
  | outside

/-- A rule: from a cursor it goes on for ever, or stops, or gives something and a cursor. -/
abbrev Parse (α : Type) := StateT Nat (ExceptT Stop Option) α

/-! ## The cursor -/

section

variable (tokens : Descent)

def tokenAt (i : Nat) : Parse Token :=
  match tokens[i]? with
  | some t => pure t
  | none => throw .outside

def peek : Parse Token := do tokenAt tokens (← get)

def previous : Parse Token := do
  match ← get with
  | 0 => throw .outside
  | i + 1 => tokenAt tokens i

def isAtEnd : Parse Bool := return (← peek tokens).kind == .eof

/-- Moves the cursor on, unless it is on an end token, and gives the token in front of it. -/
def advance : Parse Token := do
  if ← isAtEnd tokens then previous tokens
  else
    modify (· + 1)
    previous tokens

/-- Whether the cursor is on a token of this kind, which is no end token. -/
def check (kind : TokenKind) : Parse Bool := do
  if ← isAtEnd tokens then return false
  else return (← peek tokens).kind == kind

/-- Moves the cursor on if it is on a token of this kind; whether it was. -/
def accept (kind : TokenKind) : Parse Bool := do
  if ← check tokens kind then
    let _ ← advance tokens
    return true
  else return false

/-- Takes a token of this kind, or complains. -/
def consume (kind : TokenKind) (complaint : Complaint) : Parse Token := do
  if ← check tokens kind then advance tokens
  else throw (.refused ⟨(← peek tokens).line, complaint⟩)

end

/-! ## The rules -/

/-- One parameter, and others as long as commas follow. -/
def params (tokens : Descent) (done : List String) : Parse (List String) := do
  let t ← consume tokens .identifier .noParamName
  if ← accept tokens (.mark .comma) then tokens |>.params (done ++ [t.lexeme])
  else return done ++ [t.lexeme]
partial_fixpoint

def optionalParams (tokens : Descent) : Parse (List String) := do
  if ← check tokens (.mark .rightParen) then return []
  else params tokens []

mutual

def statement (tokens : Descent) : Parse Stmt := do
  let _ ← peek tokens
  if ← accept tokens (.keyword .letWord) then tokens |>.binding
  else if ← accept tokens (.keyword .returnWord) then tokens |>.valueOf .ret
  else tokens |>.valueOf .expr
partial_fixpoint

/-- A binding, behind its keyword. -/
def binding (tokens : Descent) : Parse Stmt := do
  let name ← consume tokens .identifier .noBindingName
  let _ ← consume tokens (.mark .equal) .noBindingSign
  tokens |>.valueOf (.bind name.lexeme)
partial_fixpoint

/-- The expression of a statement, with or without a semicolon behind it. -/
def valueOf (tokens : Descent) (head : Head) : Parse Stmt := do
  let value ← tokens |>.expression 0
  let _ ← accept tokens (.mark .semicolon)
  return head.complete value
partial_fixpoint

/-- The rest of a block, of which these statements are read, with its closing brace. -/
def block (tokens : Descent) (done : List Stmt) : Parse Block := do
  if (← check tokens (.mark .rightBrace)) || (← isAtEnd tokens) then
    let _ ← consume tokens (.mark .rightBrace) .unclosedBlock
    return done
  else
    let s ← tokens |>.statement
    tokens |>.block (done ++ [s])
partial_fixpoint

/-- An expression, up to the first token that binds no tighter. -/
def expression (tokens : Descent) (precedence : Nat) : Parse Expr := do
  let left ← tokens |>.operand
  tokens |>.continuations precedence left
partial_fixpoint

/-- What goes on with an operand, up to the first token that binds no tighter. -/
def continuations (tokens : Descent) (precedence : Nat) (left : Expr) : Parse Expr := do
  if (← check tokens (.mark .semicolon)) || (← isAtEnd tokens) then return left
  else if precedence < (← peek tokens).kind.precedence then
    let operator ← advance tokens
    let left ← tokens |>.continuation left operator
    tokens |>.continuations precedence left
  else return left
partial_fixpoint

/-- What goes on with an operand behind this token. -/
def continuation (tokens : Descent) (left : Expr) (operator : Token) : Parse Expr := do
  if operator.kind = .mark .leftParen then tokens |>.call left
  else
    match operator.kind.binaryOp? with
    | none => throw (.noOperator operator)
    | some op => return .binary left op (← tokens |>.expression operator.kind.precedence)
partial_fixpoint

def operand (tokens : Descent) : Parse Expr := do
  if ← isAtEnd tokens then throw (.refused ⟨(← peek tokens).line, .noExpression none⟩)
  else tokens |>.operandFrom (← advance tokens)
partial_fixpoint

def operandFrom (tokens : Descent) (t : Token) : Parse Expr := do
  match t.start? with
  | none => throw (.refused ⟨t.line, .noExpression (some t.lexeme)⟩)
  | some (.literal e) => return e
  | some (.sign op) => return .unary op (← tokens |>.expression op.strength)
  | some .group =>
    let inner ← tokens |>.expression 0
    let _ ← consume tokens (.mark .rightParen) .unclosedGroup
    return inner
  | some .condition => tokens |>.condition
  | some (.routine role) => tokens |>.routine role
partial_fixpoint

/-- A condition, behind its keyword. -/
def condition (tokens : Descent) : Parse Expr := do
  let _ ← consume tokens (.mark .leftParen) .noCondition
  let test ← tokens |>.expression 0
  let _ ← consume tokens (.mark .rightParen) .unclosedCondition
  let _ ← consume tokens (.mark .leftBrace) .noConsequence
  let consequence ← tokens |>.block []
  if ← accept tokens (.keyword .elseWord) then
    let _ ← consume tokens (.mark .leftBrace) .noAlternative
    let alternative ← tokens |>.block []
    return .cond test consequence (some alternative)
  else return .cond test consequence none
partial_fixpoint

/-- A routine, behind its keyword. -/
def routine (tokens : Descent) (role : Role) : Parse Expr := do
  let _ ← consume tokens (.mark .leftParen) (.noParams role)
  let names ← optionalParams tokens
  let _ ← consume tokens (.mark .rightParen) .unclosedParams
  let _ ← consume tokens (.mark .leftBrace) (.noBody role)
  let body ← tokens |>.block []
  return .routine role names body
partial_fixpoint

/-- A call, behind the opening parenthesis. -/
def call (tokens : Descent) (callee : Expr) : Parse Expr := do
  let args ← tokens |>.optionalArgs
  let _ ← consume tokens (.mark .rightParen) .unclosedArgs
  return .call callee args
partial_fixpoint

def optionalArgs (tokens : Descent) : Parse (List Expr) := do
  if ← check tokens (.mark .rightParen) then return []
  else tokens |>.args []
partial_fixpoint

/-- One argument, and others as long as commas follow. -/
def args (tokens : Descent) (done : List Expr) : Parse (List Expr) := do
  let x ← tokens |>.expression 0
  if ← accept tokens (.mark .comma) then tokens |>.args (done ++ [x])
  else return done ++ [x]
partial_fixpoint

end

/-- The rest of a program, of which these statements are read. -/
def statements (tokens : Descent) (done : List Stmt) : Parse Program := do
  if ← isAtEnd tokens then return done
  else
    let s ← statement tokens
    tokens |>.statements (done ++ [s])
partial_fixpoint

def parse (tokens : Descent) : Parse Program := statements tokens []

/-! ## Where the cursor is -/

structure FirstEnd (tokens : List Token) (stop : Nat) : Prop where
  here : ∃ t, tokens[stop]? = some t ∧ t.kind = .eof
  before : ∀ i t, i < stop → tokens[i]? = some t → t.kind ≠ .eof

/-- The cursor is on this token, which is the first end token or stands before it. -/
structure On (tokens : List Token) (stop i : Nat) (t : Token) : Prop where
  first : FirstEnd tokens stop
  le : i ≤ stop
  token : tokens[i]? = some t

theorem FirstEnd.on {tokens : List Token} {stop i : Nat} (first : FirstEnd tokens stop)
    (le : i ≤ stop) : ∃ t, On tokens stop i t := by
  obtain ⟨last, here, -⟩ := first.here
  have bound : i < tokens.length :=
    Nat.lt_of_le_of_lt le (List.getElem?_eq_some_iff.mp here).1
  exact ⟨tokens[i], first, le, List.getElem?_eq_getElem bound⟩

theorem FirstEnd.of_mem {tokens : List Token} (h : ∃ t ∈ tokens, t.kind = .eof) :
    ∃ stop, FirstEnd tokens stop := by
  have bound : tokens.findIdx (·.kind = .eof) < tokens.length :=
    List.findIdx_lt_length_of_exists (by simpa using h)
  refine ⟨tokens.findIdx (·.kind = .eof), ⟨_, List.getElem?_eq_getElem bound, ?_⟩, ?_⟩
  · simpa using List.findIdx_getElem (w := bound)
  · intro i t earlier token
    obtain ⟨_, rfl⟩ := List.getElem?_eq_some_iff.mp token
    simpa using List.not_of_lt_findIdx earlier

section

variable {α β : Type} {x : Parse α} {f : α → Parse β} {a : α} {i j : Nat}

theorem bind_of_returned (h : x i = some (.ok (a, j))) : (x >>= f) i = f a j := by
  show ExceptT.bind (x i) _ = _
  rw [h]
  rfl

theorem bind_of_stopped {stop : Stop} (h : x i = some (.error stop)) :
    (x >>= f) i = some (.error stop) := by
  show ExceptT.bind (x i) _ = _
  rw [h]
  rfl

end

namespace On

variable {tokens : List Token} {stop i : Nat} {t : Token} {kind : TokenKind}

theorem eof_iff (on : On tokens stop i t) : t.kind = .eof ↔ i = stop := by
  constructor
  · intro eof
    obtain earlier | same := Nat.lt_or_eq_of_le on.le
    · exact absurd eof (on.first.before i t earlier on.token)
    · exact same
  · rintro rfl
    obtain ⟨last, here, eof⟩ := on.first.here
    cases here.symm.trans on.token
    exact eof

theorem next (on : On tokens stop i t) (more : t.kind ≠ .eof) : ∃ u, On tokens stop (i + 1) u :=
  on.first.on (Nat.lt_of_le_of_ne on.le fun last => more (on.eof_iff.mpr last))

theorem drop (on : On tokens stop i t) : tokens.drop i = t :: tokens.drop (i + 1) := by
  obtain ⟨bound, token⟩ := List.getElem?_eq_some_iff.mp on.token
  rw [List.drop_eq_getElem_cons bound, token]

theorem tokenAt_eq (on : On tokens stop i t) (j : Nat) :
    tokenAt tokens i j = some (.ok (t, j)) := by
  rw [tokenAt, on.token]
  rfl

theorem peek_eq (on : On tokens stop i t) : peek tokens i = some (.ok (t, i)) :=
  on.tokenAt_eq i

theorem isAtEnd_eq (on : On tokens stop i t) :
    isAtEnd tokens i = some (.ok (t.kind == .eof, i)) := bind_of_returned on.peek_eq

theorem advance_eq (on : On tokens stop i t) (more : t.kind ≠ .eof) :
    advance tokens i = some (.ok (t, i + 1)) := by
  rw [advance, bind_of_returned on.isAtEnd_eq, if_neg (by simpa using more)]
  exact on.tokenAt_eq (i + 1)

theorem check_eq (on : On tokens stop i t) (real : kind ≠ .eof) :
    check tokens kind i = some (.ok (t.kind == kind, i)) := by
  rw [check, bind_of_returned on.isAtEnd_eq]
  split
  · next last =>
    have other : (t.kind == kind) = false := by
      rw [beq_iff_eq.mp last]
      exact beq_false_of_ne real.symm
    rw [other]
    rfl
  · exact bind_of_returned on.peek_eq

theorem accept_eq (on : On tokens stop i t) (real : t.kind ≠ .eof) :
    accept tokens t.kind i = some (.ok (true, i + 1)) := by
  rw [accept, bind_of_returned (on.check_eq real), if_pos (beq_self_eq_true _),
    bind_of_returned (on.advance_eq real)]
  rfl

theorem accept_other (on : On tokens stop i t) (real : kind ≠ .eof) (other : t.kind ≠ kind) :
    accept tokens kind i = some (.ok (false, i)) := by
  rw [accept, bind_of_returned (on.check_eq real), if_neg (by simpa using other)]
  rfl

theorem consume_eq (on : On tokens stop i t) (real : t.kind ≠ .eof) (complaint : Complaint) :
    consume tokens t.kind complaint i = some (.ok (t, i + 1)) := by
  rw [consume, bind_of_returned (on.check_eq real), if_pos (beq_self_eq_true _)]
  exact on.advance_eq real

theorem consume_other (on : On tokens stop i t) (real : kind ≠ .eof) (other : t.kind ≠ kind)
    (complaint : Complaint) :
    consume tokens kind complaint i = some (.error (.refused ⟨t.line, complaint⟩)) := by
  rw [consume, bind_of_returned (on.check_eq real), if_neg (by simpa using other)]
  exact bind_of_returned on.peek_eq

end On

end Descent

end Quasiquote
