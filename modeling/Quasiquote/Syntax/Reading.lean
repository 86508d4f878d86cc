import Quasiquote.Source
import Quasiquote.Syntax.Error

/-!
# Reading a program from tokens

A `Reading` is what the tokens so far have come to: the finished statements, the blocks and brackets
that are still open, and what is due next. `Reading.step` takes one token, and every token is taken
or refused at once, so that a complaint is always about the first token that cannot go on.

* Operators that wait for an operand are settled as soon as a token comes that does not bind
  tighter: comparisons bind tighter than equality, sums than comparisons, products than sums,
  one-operand operators than products, and calls than all of them. Operators of one strength are
  settled from the left.
* A semicolon behind a statement is optional. Without one, a statement ends where the next token
  cannot go on with it.
* Nothing behind the first end token is read.
-/

namespace Quasiquote

/-- How tightly a two-operand operator binds. -/
def BinaryOp.strength : BinaryOp → Nat
  | .eq => 1
  | .ne => 1
  | .lt => 2
  | .le => 2
  | .gt => 2
  | .ge => 2
  | .add => 3
  | .sub => 3
  | .mul => 4
  | .div => 4

/-- How tightly one-operand operators bind: tighter than any with two operands. -/
def UnaryOp.strength : UnaryOp → Nat := fun _ => 5

def Mark.binaryOp? : Mark → Option BinaryOp
  | .plus => some .add
  | .minus => some .sub
  | .star => some .mul
  | .slash => some .div
  | .less => some .lt
  | .lessEqual => some .le
  | .greater => some .gt
  | .greaterEqual => some .ge
  | .equalEqual => some .eq
  | .bangEqual => some .ne
  | _ => none

def TokenKind.binaryOp? : TokenKind → Option BinaryOp
  | .mark m => m.binaryOp?
  | _ => none

/-- An operator that waits for its only or its right operand. -/
inductive Pending
  | unary (op : UnaryOp)
  | binary (left : Expr) (op : BinaryOp)

def Pending.strength : Pending → Nat
  | .unary op => op.strength
  | .binary _ op => op.strength

def Pending.complete : Pending → Expr → Expr
  | .unary op, operand => .unary op operand
  | .binary left op, right => .binary left op right

/-- Gives an operand to the innermost waiting operators, as long as they bind at least so tightly;
the operand that results, and the operators that go on waiting. -/
def settle (strength : Nat) : List Pending → Expr → Expr × List Pending
  | [], e => (e, [])
  | p :: rest, e =>
    if strength ≤ p.strength then settle strength rest (p.complete e) else (e, p :: rest)

/-- Gives an operand to every waiting operator, the innermost first. -/
def settleAll (waiting : List Pending) (e : Expr) : Expr :=
  waiting.foldl (fun operand p => p.complete operand) e

inductive Bracket
  | group
  | args (callee : Expr) (done : List Expr)
  | condition

/-- The complaint when an open parenthesis is not closed where it has to be. -/
def Bracket.unclosed : Bracket → Complaint
  | .group => .unclosedGroup
  | .args _ _ => .unclosedArgs
  | .condition => .unclosedCondition

/-- An open parenthesis and the operators that wait for what it becomes part of. -/
structure Nest where
  bracket : Bracket
  waiting : List Pending

/-- The start of a statement that waits for its expression. -/
inductive Head
  | bind (name : String)
  | ret
  | expr

def Head.complete : Head → Expr → Stmt
  | .bind name, e => .bind name e
  | .ret, e => .ret e
  | .expr, e => .expr e

/-- Where in a statement an operand stands: the statement's head, the parentheses open in it, and
the operators that wait inside the innermost of them. -/
structure Place where
  head : Head
  nests : List Nest
  waiting : List Pending

/-- Where the expression of a statement starts. -/
def Place.first (head : Head) : Place := ⟨head, [], []⟩

/-- The place behind one more operator. -/
def Place.await (place : Place) (p : Pending) : Place :=
  { place with waiting := p :: place.waiting }

/-- The place behind one more open parenthesis. -/
def Place.enter (place : Place) (bracket : Bracket) : Place :=
  ⟨place.head, ⟨bracket, place.waiting⟩ :: place.nests, []⟩

/-- What an open block is for. -/
inductive BlockUse
  | consequence (test : Expr)
  | alternative (test : Expr) (consequence : Block)
  | body (role : Role) (params : List String)

/-- What is due next inside an expression. -/
inductive Due
  | operand
  /-- An argument or the end of an empty argument list. -/
  | firstArg (callee : Expr)
  /-- Whatever may follow this operand. -/
  | follower (operand : Expr)
  | conditionStart
  | consequenceStart (test : Expr)
  /-- An `else`, or whatever may follow a condition without alternative. -/
  | afterConsequence (test : Expr) (consequence : Block)
  | alternativeStart (test : Expr) (consequence : Block)
  | paramsStart (role : Role)
  /-- A parameter or the end of an empty parameter list. -/
  | firstParam (role : Role)
  | nextParam (role : Role) (done : List String)
  | afterParam (role : Role) (done : List String)
  | bodyStart (role : Role) (params : List String)

/-- What follows a block of this use. -/
def BlockUse.complete : BlockUse → Block → Due
  | .consequence test, block => .afterConsequence test block
  | .alternative test first, block => .follower (.cond test first (some block))
  | .body role params, block => .follower (.routine role params block)

/-- A statement that waits for a block inside it, with the finished statements before it. -/
structure Suspended where
  done : List Stmt
  place : Place
  blockUse : BlockUse

/-- What is due next. -/
inductive Phase
  | statement
  | bindingName
  | bindingSign (name : String)
  | within (place : Place) (due : Due)

/-- What the tokens so far have come to: the statements that wait for an open block, the innermost
first, the finished statements of the innermost block, and what is due in it. -/
structure Reading where
  outer : List Suspended
  done : List Stmt
  phase : Phase

namespace Reading

def empty : Reading := ⟨[], [], .statement⟩

/-- Goes on inside an expression. -/
def await (r : Reading) (place : Place) (due : Due) : Reading :=
  { r with phase := .within place due }

def openBlock (r : Reading) (place : Place) (blockUse : BlockUse) : Reading :=
  ⟨⟨r.done, place, blockUse⟩ :: r.outer, [], .statement⟩

def endStatement (r : Reading) (s : Stmt) : Reading :=
  { r with done := r.done ++ [s], phase := .statement }

/-- Takes a token where an operand is due. -/
def readOperand (r : Reading) (place : Place) (t : Token) : Except Complaint Reading :=
  match t.kind with
  | .identifier => .ok (r.await place (.follower (.name t.lexeme)))
  | .integer n => .ok (r.await place (.follower (.int n)))
  | .keyword .trueWord => .ok (r.await place (.follower (.bool true)))
  | .keyword .falseWord => .ok (r.await place (.follower (.bool false)))
  | .mark .bang => .ok (r.await (place.await (.unary .not)) .operand)
  | .mark .minus => .ok (r.await (place.await (.unary .neg)) .operand)
  | .mark .leftParen => .ok (r.await (place.enter .group) .operand)
  | .keyword .ifWord => .ok (r.await place .conditionStart)
  | .keyword .fnWord => .ok (r.await place (.paramsStart .function))
  | .keyword .macroWord => .ok (r.await place (.paramsStart .transformer))
  | _ => .error (.noExpression (some t.lexeme))

/-- Takes a token where a statement or the end of a block is due. -/
def readStatement (r : Reading) (t : Token) : Except Complaint Reading :=
  match t.kind with
  | .keyword .letWord => .ok { r with phase := .bindingName }
  | .keyword .returnWord => .ok (r.await (.first .ret) .operand)
  | .mark .rightBrace =>
    match r.outer with
    | [] => r.readOperand (.first .expr) t
    | s :: outer => .ok ⟨outer, s.done, .within s.place (s.blockUse.complete r.done)⟩
  | _ => r.readOperand (.first .expr) t

/-- Takes a token that goes on with no operand: it closes the innermost parenthesis or ends the
statement. -/
def readEnd (r : Reading) (place : Place) (operand : Expr) (t : Token) :
    Except Complaint Reading :=
  let value := settleAll place.waiting operand
  match place.nests with
  | [] =>
    let ended := r.endStatement (place.head.complete value)
    if t.kind = .mark .semicolon then .ok ended else ended.readStatement t
  | ⟨bracket, waiting⟩ :: nests =>
    let outside : Place := ⟨place.head, nests, waiting⟩
    match bracket, t.kind with
    | .group, .mark .rightParen => .ok (r.await outside (.follower value))
    | .args callee done, .mark .rightParen =>
      .ok (r.await outside (.follower (.call callee (done ++ [value]))))
    | .args callee done, .mark .comma =>
      .ok (r.await (outside.enter (.args callee (done ++ [value]))) .operand)
    | .condition, .mark .rightParen => .ok (r.await outside (.consequenceStart value))
    | _, _ => .error bracket.unclosed

/-- Takes a token behind an operand. -/
def readFollower (r : Reading) (place : Place) (operand : Expr) (t : Token) :
    Except Complaint Reading :=
  if t.kind = .mark .leftParen then .ok (r.await place (.firstArg operand))
  else
    match t.kind.binaryOp? with
    | some op =>
      let settled := settle op.strength place.waiting operand
      .ok (r.await ⟨place.head, place.nests, .binary settled.1 op :: settled.2⟩ .operand)
    | none => r.readEnd place operand t

/-- Takes a token inside an expression. -/
def readWithin (r : Reading) (place : Place) (t : Token) : Due → Except Complaint Reading
  | .operand => r.readOperand place t
  | .firstArg callee =>
    if t.kind = .mark .rightParen then .ok (r.await place (.follower (.call callee [])))
    else r.readOperand (place.enter (.args callee [])) t
  | .follower operand => r.readFollower place operand t
  | .conditionStart =>
    if t.kind = .mark .leftParen then .ok (r.await (place.enter .condition) .operand)
    else .error .noCondition
  | .consequenceStart test =>
    if t.kind = .mark .leftBrace then .ok (r.openBlock place (.consequence test))
    else .error .noConsequence
  | .afterConsequence test consequence =>
    if t.kind = .keyword .elseWord then .ok (r.await place (.alternativeStart test consequence))
    else r.readFollower place (.cond test consequence none) t
  | .alternativeStart test consequence =>
    if t.kind = .mark .leftBrace then .ok (r.openBlock place (.alternative test consequence))
    else .error .noAlternative
  | .paramsStart role =>
    if t.kind = .mark .leftParen then .ok (r.await place (.firstParam role))
    else .error (.noParams role)
  | .firstParam role =>
    if t.kind = .mark .rightParen then .ok (r.await place (.bodyStart role []))
    else if t.kind = .identifier then .ok (r.await place (.afterParam role [t.lexeme]))
    else .error .noParamName
  | .nextParam role done =>
    if t.kind = .identifier then .ok (r.await place (.afterParam role (done ++ [t.lexeme])))
    else .error .noParamName
  | .afterParam role done =>
    if t.kind = .mark .comma then .ok (r.await place (.nextParam role done))
    else if t.kind = .mark .rightParen then .ok (r.await place (.bodyStart role done))
    else .error .unclosedParams
  | .bodyStart role params =>
    if t.kind = .mark .leftBrace then .ok (r.openBlock place (.body role params))
    else .error (.noBody role)

/-- Takes one token that is not the end. -/
def step (r : Reading) (t : Token) : Except Complaint Reading :=
  match r.phase with
  | .statement => r.readStatement t
  | .bindingName =>
    if t.kind = .identifier then .ok { r with phase := .bindingSign t.lexeme }
    else .error .noBindingName
  | .bindingSign name =>
    if t.kind = .mark .equal then .ok (r.await (.first (.bind name)) .operand)
    else .error .noBindingSign
  | .within place due => r.readWithin place t due

/-- The program, if no block is open when its statements are finished. -/
def finishStatements (r : Reading) : Except Complaint Program :=
  match r.outer with
  | [] => .ok r.done
  | _ :: _ => .error .unclosedBlock

/-- The program, if it may end behind an operand. -/
def finishFollower (r : Reading) (place : Place) (operand : Expr) : Except Complaint Program :=
  match place.nests with
  | [] => (r.endStatement (place.head.complete (settleAll place.waiting operand))).finishStatements
  | nest :: _ => .error nest.bracket.unclosed

/-- The program, if it may end inside an expression. -/
def finishWithin (r : Reading) (place : Place) : Due → Except Complaint Program
  | .operand => .error (.noExpression none)
  | .firstArg _ => .error (.noExpression none)
  | .follower operand => r.finishFollower place operand
  | .conditionStart => .error .noCondition
  | .consequenceStart _ => .error .noConsequence
  | .afterConsequence test consequence => r.finishFollower place (.cond test consequence none)
  | .alternativeStart _ _ => .error .noAlternative
  | .paramsStart role => .error (.noParams role)
  | .firstParam _ => .error .noParamName
  | .nextParam _ _ => .error .noParamName
  | .afterParam _ _ => .error .unclosedParams
  | .bodyStart role _ => .error (.noBody role)

/-- The program, if it may end here. -/
def finish (r : Reading) : Except Complaint Program :=
  match r.phase with
  | .statement => r.finishStatements
  | .bindingName => .error .noBindingName
  | .bindingSign _ => .error .noBindingSign
  | .within place due => r.finishWithin place due

/-- Takes tokens up to the first end token, or to the end of the list, which is on no line. -/
def run (r : Reading) : List Token → Except SyntaxError Program
  | [] => r.finish.mapError (SyntaxError.mk 0)
  | t :: rest =>
    if t.kind = .eof then r.finish.mapError (SyntaxError.mk t.line)
    else
      match r.step t with
      | .error complaint => .error ⟨t.line, complaint⟩
      | .ok next => next.run rest

end Reading

/-- The program that tokens spell. -/
def Program.ofTokens (tokens : List Token) : Except SyntaxError Program :=
  Reading.empty.run tokens

end Quasiquote
