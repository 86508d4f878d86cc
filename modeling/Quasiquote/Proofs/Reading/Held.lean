import Quasiquote.Proofs.Reading.Grammar

/-!
# What a reading holds

`Reading.Reads r ts`: the reading `r` holds phrases of the grammar that the terminals `ts` are
derived from, one behind the other: finished statements, and for each block, parenthesis and
operator that is still open what stands before it.

* `Stacked`: what a stack holds, from the bottom to the top.
* `Head.Reads`, `Pending.Reads`, `Bracket.Reads`, `Due.Reads`, `BlockUse.Reads`: what the members of
  stacks and places hold.
* `Derives.settle`, `Derives.statement_complete`: operands and statements that are completed.
-/

namespace Quasiquote

/-- The terminals of a stack are those of its members, from the bottom to the top. -/
inductive Stacked {α : Type} (R : α → List Terminal → Prop) : List α → List Terminal → Prop
  | nil : Stacked R [] []
  | cons {a stack ts us} (below : Stacked R stack ts) (top : R a us) :
      Stacked R (a :: stack) (ts ++ us)

inductive Head.Reads : Head → List Terminal → Prop
  | bind {id} : Reads (.bind id) [.keyword .letWord, .name id, .mark .equal]
  | ret : Reads .ret [.keyword .returnWord]
  | expr : Reads .expr []

inductive Pending.Reads : Pending → List Terminal → Prop
  | unary (op : UnaryOp) : Reads (.unary op) [.mark op.mark]
  | binary {left ts} (op : BinaryOp) (operand : Derives (.expression left) ts) :
      Reads (.binary left op) (ts ++ [.mark op.mark])

inductive ArgsRead : List Expr → List Terminal → Prop
  | nil : ArgsRead [] []
  | snoc {xs x ts us} (before : ArgsRead xs ts) (last : Derives (.expression x) us) :
      ArgsRead (xs ++ [x]) (ts ++ us ++ [.mark .comma])

inductive ParamsRead : List String → List Terminal → Prop
  | nil : ParamsRead [] []
  | snoc {ps id ts} (before : ParamsRead ps ts) :
      ParamsRead (ps ++ [id]) (ts ++ [.name id, .mark .comma])

inductive Bracket.Reads : Bracket → List Terminal → Prop
  | group : Reads .group [.mark .leftParen]
  | args {callee done ts us} (hc : Derives (.expression callee) ts) (hd : ArgsRead done us) :
      Reads (.args callee done) (ts ++ .mark .leftParen :: us)
  | condition : Reads .condition [.keyword .ifWord, .mark .leftParen]

/-- An open parenthesis behind the operators that wait for what it becomes part of. -/
inductive Nest.Reads : Nest → List Terminal → Prop
  | mk {bracket waiting ts us} (hw : Stacked Pending.Reads waiting ts)
      (hb : Bracket.Reads bracket us) : Reads ⟨bracket, waiting⟩ (ts ++ us)

/-- Everything of a statement before an operand. -/
inductive Place.Reads : Place → List Terminal → Prop
  | mk {head nests waiting ts us vs} (hh : Head.Reads head ts) (hn : Stacked Nest.Reads nests us)
      (hw : Stacked Pending.Reads waiting vs) : Reads ⟨head, nests, waiting⟩ (ts ++ us ++ vs)

/-- The part of an expression behind which something is due. -/
inductive Due.Reads : Due → List Terminal → Prop
  | operand : Reads .operand []
  | firstArg {callee ts} (hc : Derives (.expression callee) ts) :
      Reads (.firstArg callee) (ts ++ [.mark .leftParen])
  | follower {e ts} (he : Derives (.expression e) ts) : Reads (.follower e) ts
  | conditionStart : Reads .conditionStart [.keyword .ifWord]
  | consequenceStart {test ts} (ht : Derives (.expression test) ts) :
      Reads (.consequenceStart test)
        (.keyword .ifWord :: .mark .leftParen :: (ts ++ [.mark .rightParen]))
  | afterConsequence {test c ts us} (ht : Derives (.expression test) ts)
      (hc : Derives (.block c) us) :
      Reads (.afterConsequence test c)
        (.keyword .ifWord :: .mark .leftParen :: (ts ++ .mark .rightParen :: us))
  | alternativeStart {test c ts us} (ht : Derives (.expression test) ts)
      (hc : Derives (.block c) us) :
      Reads (.alternativeStart test c)
        (.keyword .ifWord :: .mark .leftParen ::
          (ts ++ .mark .rightParen :: (us ++ [.keyword .elseWord])))
  | paramsStart (role : Role) : Reads (.paramsStart role) [.keyword role.keyword]
  | firstParam {role} : Reads (.firstParam role) [.keyword role.keyword, .mark .leftParen]
  | nextParam {role done ts} (hd : ParamsRead done ts) :
      Reads (.nextParam role done) (.keyword role.keyword :: .mark .leftParen :: ts)
  | afterParam {role done id ts} (hd : ParamsRead done ts) :
      Reads (.afterParam role (done ++ [id]))
        (.keyword role.keyword :: .mark .leftParen :: (ts ++ [.name id]))
  | bodyStart {role ps ts} (hp : Derives (.optionalParams ps) ts) :
      Reads (.bodyStart role ps)
        (.keyword role.keyword :: .mark .leftParen :: (ts ++ [.mark .rightParen]))

/-- What stands before the statements of an open block. -/
inductive BlockUse.Reads : BlockUse → List Terminal → Prop
  | mk {due : Due} {blockUse ts} (hd : Due.Reads due ts)
      (hc : ∀ b us, Derives (.block b) us → Due.Reads (blockUse.complete b) (ts ++ us)) :
      Reads blockUse (ts ++ [.mark .leftBrace])

/-- A statement up to the block that is open in it, behind the statements before it. -/
inductive Suspended.Reads : Suspended → List Terminal → Prop
  | mk {done place blockUse ts us vs} (hd : Derives (.program done) ts)
      (hp : Place.Reads place us) (hb : BlockUse.Reads blockUse vs) :
      Reads ⟨done, place, blockUse⟩ (ts ++ us ++ vs)

inductive Phase.Reads : Phase → List Terminal → Prop
  | statement : Reads .statement []
  | bindingName : Reads .bindingName [.keyword .letWord]
  | bindingSign {id} : Reads (.bindingSign id) [.keyword .letWord, .name id]
  | within {place due ts us} (hp : Place.Reads place ts) (hd : Due.Reads due us) :
      Reads (.within place due) (ts ++ us)

/-- The terminals of the finished statements, and of everything outside of their block. -/
inductive Reading.Finishes (r : Reading) : List Terminal → Prop
  | mk {ts us} (ho : Stacked Suspended.Reads r.outer ts) (hd : Derives (.program r.done) us) :
      Finishes r (ts ++ us)

/-- The terminals read so far are derived from what the reading holds. -/
inductive Reading.Reads (r : Reading) : List Terminal → Prop
  | mk {ts us} (hf : r.Finishes ts) (hp : Phase.Reads r.phase us) : Reads r (ts ++ us)

/-- The terminals of a reading up to a place in the statement that has begun. -/
inductive Reading.Reaches (r : Reading) : Place → List Terminal → Prop
  | mk {place ts us} (hf : r.Finishes ts) (hp : Place.Reads place us) : Reaches r place (ts ++ us)

namespace Derives

theorem statement_complete {head : Head} {e : Expr} {ts us semicolon : List Terminal}
    (hh : Head.Reads head ts) (he : Derives (.expression e) us)
    (optional : OptionalSemicolon semicolon) :
    Derives (.statement (head.complete e)) (ts ++ us ++ semicolon) := by
  cases hh with
  | bind => simpa [Head.complete] using binding he optional
  | ret => simpa [Head.complete] using ret he optional
  | expr => simpa [Head.complete] using bare he optional

theorem pending_complete {p : Pending} {e : Expr} {ts us : List Terminal}
    (hp : Pending.Reads p ts) (he : Derives (.expression e) us) :
    Derives (.expression (p.complete e)) (ts ++ us) := by
  cases hp with
  | unary op => exact unary op he
  | binary op hl => simpa [Pending.complete] using binary op hl he

theorem settle {ws : List Pending} {e : Expr} {ts us : List Terminal} (strength : Nat)
    (hw : Stacked Pending.Reads ws ts) (he : Derives (.expression e) us) :
    ∃ vs xs, ts ++ us = vs ++ xs ∧ Stacked Pending.Reads (settle strength ws e).2 vs ∧
      Derives (.expression (settle strength ws e).1) xs := by
  induction hw generalizing e us with
  | nil => exact ⟨[], us, rfl, .nil, he⟩
  | @cons p rest ts₁ ts₂ below top ih =>
    unfold Quasiquote.settle
    split
    · rw [List.append_assoc]
      exact ih (pending_complete top he)
    · exact ⟨ts₁ ++ ts₂, us, rfl, .cons below top, he⟩

theorem settleAll {ws : List Pending} {e : Expr} {ts us : List Terminal}
    (hw : Stacked Pending.Reads ws ts) (he : Derives (.expression e) us) :
    Derives (.expression (settleAll ws e)) (ts ++ us) := by
  induction hw generalizing e us with
  | nil => exact he
  | cons below top ih =>
    rw [List.append_assoc]
    exact ih (pending_complete top he)

theorem args_append {done xs : List Expr} {ts us : List Terminal} (hd : ArgsRead done ts)
    (hx : Derives (.args xs) us) : Derives (.args (done ++ xs)) (ts ++ us) := by
  induction hd generalizing xs us with
  | nil => exact hx
  | snoc _ last ih => simpa using ih (moreArgs last hx)

theorem params_append {done ps : List String} {ts us : List Terminal} (hd : ParamsRead done ts)
    (hp : Derives (.params ps) us) : Derives (.params (done ++ ps)) (ts ++ us) := by
  induction hd generalizing ps us with
  | nil => exact hp
  | snoc _ ih => simpa using ih (moreParams hp)

end Derives

end Quasiquote
