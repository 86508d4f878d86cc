import Quasiquote.Proofs.Reading.Terminal

/-!
# The grammar

The grammar of programs, rule by rule, with what each phrase stands for:

```text
program     = statement* ;
statement   = "let" NAME "=" expression ";"? | "return" expression ";"? | expression ";"? ;
block       = "{" statement* "}" ;
expression  = lead continuation* ;
lead        = NAME | INTEGER | "true" | "false" | ( "!" | "-" ) expression
            | "(" expression ")" | "if" "(" expression ")" block ( "else" block )?
            | ( "fn" | "macro" ) "(" params? ")" block ;
continuation = operator expression | "(" args? ")" ;
params      = NAME ( "," NAME )* ;
args        = expression ( "," expression )* ;
```

It is ambiguous: it says neither which operator binds tighter nor where a statement without a
semicolon ends. `Derives` relates a text to every phrase that it can stand for.

* `Derives.no_illegal`: no derivation has an illegal token or an end in it.
* `Derives.binary`, `Derives.call`, `Derives.unary`: the tree grows from derived parts.
-/

namespace Quasiquote

/-- A phrase of the grammar with the tree that it stands for; parentheses around an expression and
semicolons leave no trace in it. -/
inductive Phrase
  /-- Any number of statements. -/
  | program (statements : List Stmt)
  | statement (s : Stmt)
  | block (b : Block)
  | expression (e : Expr)
  /-- What an expression starts with. -/
  | lead (e : Expr)
  /-- Any number of continuations, which make one expression out of another. -/
  | continuations (left e : Expr)
  | params (ps : List String)
  | optionalParams (ps : List String)
  | args (xs : List Expr)
  | optionalArgs (xs : List Expr)

inductive OptionalSemicolon : List Terminal → Prop
  | absent : OptionalSemicolon []
  | present : OptionalSemicolon [.mark .semicolon]

/-- The terminals are derived from the phrase by the rules of the grammar. -/
inductive Derives : Phrase → List Terminal → Prop
  | noStatement : Derives (.program []) []
  | statements {s ss ts us} (first : Derives (.statement s) ts) (rest : Derives (.program ss) us) :
      Derives (.program (s :: ss)) (ts ++ us)
  | binding {id e ts semicolon} (value : Derives (.expression e) ts)
      (optional : OptionalSemicolon semicolon) :
      Derives (.statement (.bind id e))
        (.keyword .letWord :: .name id :: .mark .equal :: (ts ++ semicolon))
  | ret {e ts semicolon} (value : Derives (.expression e) ts)
      (optional : OptionalSemicolon semicolon) :
      Derives (.statement (.ret e)) (.keyword .returnWord :: (ts ++ semicolon))
  | bare {e ts semicolon} (value : Derives (.expression e) ts)
      (optional : OptionalSemicolon semicolon) :
      Derives (.statement (.expr e)) (ts ++ semicolon)
  | block {b ts} (body : Derives (.program b) ts) :
      Derives (.block b) (.mark .leftBrace :: (ts ++ [.mark .rightBrace]))
  | expression {a e ts us} (lead : Derives (.lead a) ts)
      (continuations : Derives (.continuations a e) us) : Derives (.expression e) (ts ++ us)
  | name {id} : Derives (.lead (.name id)) [.name id]
  | int {n} : Derives (.lead (.int n)) [.integer n]
  | trueLit : Derives (.lead (.bool true)) [.keyword .trueWord]
  | falseLit : Derives (.lead (.bool false)) [.keyword .falseWord]
  | signed {op e ts} (operand : Derives (.expression e) ts) :
      Derives (.lead (.unary op e)) (.mark op.mark :: ts)
  | group {e ts} (inner : Derives (.expression e) ts) :
      Derives (.lead e) (.mark .leftParen :: (ts ++ [.mark .rightParen]))
  | cond {test c ts us} (condition : Derives (.expression test) ts)
      (consequence : Derives (.block c) us) :
      Derives (.lead (.cond test c none))
        (.keyword .ifWord :: .mark .leftParen :: (ts ++ .mark .rightParen :: us))
  | condElse {test c d ts us vs} (condition : Derives (.expression test) ts)
      (consequence : Derives (.block c) us) (alternative : Derives (.block d) vs) :
      Derives (.lead (.cond test c (some d)))
        (.keyword .ifWord :: .mark .leftParen ::
          (ts ++ .mark .rightParen :: (us ++ .keyword .elseWord :: vs)))
  | routine {role ps b ts us} (parameters : Derives (.optionalParams ps) ts)
      (body : Derives (.block b) us) :
      Derives (.lead (.routine role ps b))
        (.keyword role.keyword :: .mark .leftParen :: (ts ++ .mark .rightParen :: us))
  | noContinuation {e} : Derives (.continuations e e) []
  | operator {left op right e ts us} (operand : Derives (.expression right) ts)
      (more : Derives (.continuations (.binary left op right) e) us) :
      Derives (.continuations left e) (.mark op.mark :: (ts ++ us))
  | called {callee xs e ts us} (arguments : Derives (.optionalArgs xs) ts)
      (more : Derives (.continuations (.call callee xs) e) us) :
      Derives (.continuations callee e) (.mark .leftParen :: (ts ++ .mark .rightParen :: us))
  | noParams : Derives (.optionalParams []) []
  | someParams {ps ts} (some : Derives (.params ps) ts) : Derives (.optionalParams ps) ts
  | lastParam {id} : Derives (.params [id]) [.name id]
  | moreParams {id ps ts} (more : Derives (.params ps) ts) :
      Derives (.params (id :: ps)) (.name id :: .mark .comma :: ts)
  | noArgs : Derives (.optionalArgs []) []
  | someArgs {xs ts} (some : Derives (.args xs) ts) : Derives (.optionalArgs xs) ts
  | lastArg {x ts} (last : Derives (.expression x) ts) : Derives (.args [x]) ts
  | moreArgs {x xs ts us} (first : Derives (.expression x) ts) (more : Derives (.args xs) us) :
      Derives (.args (x :: xs)) (ts ++ .mark .comma :: us)

namespace Derives

/-- Illegal characters and ends are no terminals of the grammar. -/
theorem no_illegal {phrase : Phrase} {ts : List Terminal} (h : Derives phrase ts) :
    .illegal ∉ ts ∧ .eof ∉ ts := by
  have optional {semicolon : List Terminal} (h : OptionalSemicolon semicolon) :
      .illegal ∉ semicolon ∧ .eof ∉ semicolon := by cases h <;> decide
  induction h with
  | binding _ semicolon ih => simp [ih, optional semicolon]
  | ret _ semicolon ih => simp [ih, optional semicolon]
  | bare _ semicolon ih => simp [ih, optional semicolon]
  | _ => simp_all

theorem program_append {ss ss' : List Stmt} {ts us : List Terminal}
    (h : Derives (.program ss) ts) (h' : Derives (.program ss') us) :
    Derives (.program (ss ++ ss')) (ts ++ us) := by
  induction ss generalizing ts with
  | nil => cases h; exact h'
  | cons s ss ih =>
    cases h with
    | statements first rest => simpa using statements first (ih rest)

theorem program_snoc {ss : List Stmt} {s : Stmt} {ts us : List Terminal}
    (h : Derives (.program ss) ts) (last : Derives (.statement s) us) :
    Derives (.program (ss ++ [s])) (ts ++ us) := by
  simpa using h.program_append (statements last noStatement)

theorem lead_expression {e : Expr} {ts : List Terminal} (h : Derives (.lead e) ts) :
    Derives (.expression e) ts := by
  simpa using expression h noContinuation

theorem continuations_trans {a b c : Expr} {ts us : List Terminal}
    (h : Derives (.continuations a b) ts) (h' : Derives (.continuations b c) us) :
    Derives (.continuations a c) (ts ++ us) := by
  generalize hp : Phrase.continuations a b = phrase at h
  induction h generalizing a with cases hp
  | noContinuation => exact h'
  | operator operand _ _ ih => simpa using operator operand (ih rfl)
  | called arguments _ _ ih => simpa using called arguments (ih rfl)

theorem expression_continue {a e : Expr} {ts us : List Terminal}
    (h : Derives (.expression a) ts) (more : Derives (.continuations a e) us) :
    Derives (.expression e) (ts ++ us) := by
  cases h with
  | expression lead before => simpa using expression lead (before.continuations_trans more)

theorem unary (op : UnaryOp) {e : Expr} {ts : List Terminal} (h : Derives (.expression e) ts) :
    Derives (.expression (.unary op e)) (.mark op.mark :: ts) := h.signed.lead_expression

theorem binary (op : BinaryOp) {left right : Expr} {ts us : List Terminal}
    (hl : Derives (.expression left) ts) (hr : Derives (.expression right) us) :
    Derives (.expression (.binary left op right)) (ts ++ .mark op.mark :: us) := by
  simpa using hl.expression_continue (operator hr noContinuation)

theorem call {callee : Expr} {xs : List Expr} {ts us : List Terminal}
    (hf : Derives (.expression callee) ts) (hx : Derives (.optionalArgs xs) us) :
    Derives (.expression (.call callee xs))
      (ts ++ .mark .leftParen :: (us ++ [.mark .rightParen])) :=
  hf.expression_continue (called hx noContinuation)

end Derives

end Quasiquote
