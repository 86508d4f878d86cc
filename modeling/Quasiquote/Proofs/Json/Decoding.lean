import Quasiquote.Syntax.Json
import Quasiquote.Proofs.Json.Reading

/-!
# Programs from their JSON form

* `Expr.ofJson?`, `Stmt.ofJson?`, `Program.ofJson?`: the tree of a JSON form. There is none for a
  value that is no JSON form.
* `Program.ofJson?_json`: a tree is the tree of its JSON form. There are no two trees with one form,
  nor, as a value is read from its text, with one text.
-/

namespace Quasiquote

/-! ## Tags -/

def UnaryOp.ofTag? (tag : String) : Option UnaryOp := [UnaryOp.not, .neg].find? (·.tag == tag)

def BinaryOp.all : List BinaryOp := [.add, .sub, .mul, .div, .lt, .le, .gt, .ge, .eq, .ne]

def BinaryOp.ofTag? (tag : String) : Option BinaryOp := BinaryOp.all.find? (·.tag == tag)

def Role.ofTag? (tag : String) : Option Role := [Role.function, .transformer].find? (·.tag == tag)

theorem UnaryOp.ofTag?_tag (op : UnaryOp) : UnaryOp.ofTag? op.tag = some op := by
  cases op <;> rfl

theorem BinaryOp.ofTag?_tag (op : BinaryOp) : BinaryOp.ofTag? op.tag = some op := by
  cases op <;> rfl

theorem Role.ofTag?_tag (role : Role) : Role.ofTag? role.tag = some role := by
  cases role <;> rfl

/-! ## Trees -/

def Json.string? : Json → Option String
  | .string s => some s
  | _ => none

theorem Json.mapM_string? (texts : List String) :
    (texts.map Json.string).mapM Json.string? = some texts := by
  induction texts with
  | nil => rfl
  | cons s rest ih => simp [Json.string?, ih]

mutual

def Expr.ofJson? : Json → Option Expr
  | .object [("Identifier", .string id)] => some (.name id)
  | .object [("IntegerLiteral", .int n)] =>
    if (Int64.ofInt n).toInt = n then some (.int (.ofInt n)) else none
  | .object [("BooleanLiteral", .bool b)] => some (.bool b)
  | .object [("Prefix", .object [("operator", .string op), ("right", operand)])] => do
    let op ← UnaryOp.ofTag? op
    let operand ← Expr.ofJson? operand
    some (.unary op operand)
  | .object [("Infix", .object [("left", left), ("operator", .string op), ("right", right)])] => do
    let left ← Expr.ofJson? left
    let op ← BinaryOp.ofTag? op
    let right ← Expr.ofJson? right
    some (.binary left op right)
  | .object [("If", .object [("condition", test),
      ("consequence", .object [("statements", .array consequence)]),
      ("alternative", alternative)])] => do
    let test ← Expr.ofJson? test
    let consequence ← statementsOfJson? consequence
    let alternative ← alternativeOfJson? alternative
    some (.cond test consequence alternative)
  | .object [("Call", .object [("function", callee), ("arguments", .array args)])] => do
    let callee ← Expr.ofJson? callee
    let args ← argsOfJson? args
    some (.call callee args)
  | .object [(tag, .object [("parameters", .array params),
      ("body", .object [("statements", .array body)])])] => do
    let role ← Role.ofTag? tag
    let params ← params.mapM Json.string?
    let body ← statementsOfJson? body
    some (.routine role params body)
  | _ => none

def Stmt.ofJson? : Json → Option Stmt
  | .object [("Let", .object [("name", .string name), ("value", value)])] =>
    (Expr.ofJson? value).map (.bind name)
  | .object [("Return", value)] => (Expr.ofJson? value).map .ret
  | .object [("Expression", value)] => (Expr.ofJson? value).map .expr
  | _ => none

def statementsOfJson? : List Json → Option (List Stmt)
  | [] => some []
  | s :: rest => do
    let s ← Stmt.ofJson? s
    let rest ← statementsOfJson? rest
    some (s :: rest)

def alternativeOfJson? : Json → Option (Option (List Stmt))
  | .null => some none
  | .object [("statements", .array block)] => (statementsOfJson? block).map some
  | _ => none

def argsOfJson? : List Json → Option (List Expr)
  | [] => some []
  | x :: rest => do
    let x ← Expr.ofJson? x
    let rest ← argsOfJson? rest
    some (x :: rest)

end

def Program.ofJson? : Json → Option Program
  | .object [("statements", .array statements)] => statementsOfJson? statements
  | _ => none

def Program.ofJsonText? (text : String) : Option Program := Json.ofText? text >>= Program.ofJson?

/-! ## There and back -/

mutual

theorem Expr.ofJson?_json : ∀ e : Expr, Expr.ofJson? e.json = some e
  | .name _ => rfl
  | .int n => by
    calc Expr.ofJson? (Expr.int n).json
      _ = (if (Int64.ofInt n.toInt).toInt = n.toInt then some (.int (.ofInt n.toInt)) else none) :=
        rfl
      _ = some (.int n) := by simp
  | .bool _ => rfl
  | .unary op operand => by
    calc Expr.ofJson? (Expr.unary op operand).json
      _ = (do
        let op ← UnaryOp.ofTag? op.tag
        let operand ← Expr.ofJson? operand.json
        some (.unary op operand)) := rfl
      _ = some (.unary op operand) := by simp [UnaryOp.ofTag?_tag, operand.ofJson?_json]
  | .binary left op right => by
    calc Expr.ofJson? (Expr.binary left op right).json
      _ = (do
        let left ← Expr.ofJson? left.json
        let op ← BinaryOp.ofTag? op.tag
        let right ← Expr.ofJson? right.json
        some (.binary left op right)) := rfl
      _ = some (.binary left op right) := by
        simp [BinaryOp.ofTag?_tag, left.ofJson?_json, right.ofJson?_json]
  | .cond test consequence alternative => by
    calc Expr.ofJson? (Expr.cond test consequence alternative).json
      _ = (do
        let test ← Expr.ofJson? test.json
        let consequence ← statementsOfJson? (statementsJson consequence)
        let alternative ← alternativeOfJson? (alternativeJson alternative)
        some (.cond test consequence alternative)) := rfl
      _ = some (.cond test consequence alternative) := by
        simp [test.ofJson?_json, statementsOfJson?_json, alternativeOfJson?_json]
  | .routine role params body => by
    calc Expr.ofJson? (Expr.routine role params body).json
      _ = (do
        let role ← Role.ofTag? role.tag
        let params ← (params.map Json.string).mapM Json.string?
        let body ← statementsOfJson? (statementsJson body)
        some (.routine role params body)) := by cases role <;> rfl
      _ = some (.routine role params body) := by
        rw [Role.ofTag?_tag, Json.mapM_string?, statementsOfJson?_json]
        rfl
  | .call callee args => by
    calc Expr.ofJson? (Expr.call callee args).json
      _ = (do
        let callee ← Expr.ofJson? callee.json
        let args ← argsOfJson? (argsJson args)
        some (.call callee args)) := rfl
      _ = some (.call callee args) := by simp [callee.ofJson?_json, argsOfJson?_json]

theorem Stmt.ofJson?_json : ∀ s : Stmt, Stmt.ofJson? s.json = some s
  | .bind name value => congrArg (Option.map (Stmt.bind name)) value.ofJson?_json
  | .ret value => congrArg (Option.map Stmt.ret) value.ofJson?_json
  | .expr value => congrArg (Option.map Stmt.expr) value.ofJson?_json

theorem statementsOfJson?_json : ∀ block : List Stmt,
    statementsOfJson? (statementsJson block) = some block
  | [] => rfl
  | s :: rest => by
    simp [statementsJson, statementsOfJson?, s.ofJson?_json, statementsOfJson?_json rest]

theorem alternativeOfJson?_json : ∀ alternative : Option (List Stmt),
    alternativeOfJson? (alternativeJson alternative) = some alternative
  | none => rfl
  | some block => congrArg (Option.map some) (statementsOfJson?_json block)

theorem argsOfJson?_json : ∀ args : List Expr, argsOfJson? (argsJson args) = some args
  | [] => rfl
  | x :: rest => by simp [argsJson, argsOfJson?, x.ofJson?_json, argsOfJson?_json rest]

end

theorem Program.ofJson?_json (program : Program) : Program.ofJson? program.json = some program :=
  statementsOfJson?_json program

theorem Program.ofJsonText?_text (program : Program) :
    Program.ofJsonText? program.json.text = some program := by
  rw [Program.ofJsonText?, Json.ofText?_text, Option.bind_eq_bind, Option.bind_some,
    Program.ofJson?_json]

/-- The JSON text of a program determines the program, whatever its names and its integers are: it
can be decoded, so that two programs have one text only if they are the same. -/
theorem Program.json_text_determines (p q : Program) :
    Program.ofJsonText? p.json.text = some p ∧ (p.json.text = q.json.text ↔ p = q) := by
  refine ⟨p.ofJsonText?_text, fun same => ?_, fun | rfl => rfl⟩
  have decoded : some p = some q := by
    rw [← p.ofJsonText?_text, same, q.ofJsonText?_text]
  exact Option.some_inj.mp decoded

end Quasiquote
