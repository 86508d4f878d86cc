import Quasiquote.Proofs.Likeness.Evaluation

/-!
# Expansion in stores that are alike

* `expandNode_mirrors`: expansion in stores that are alike gives syntax that is alike, or errors
  that are alike; the second expansion may go deeper than the first.
* `Expr.ExpandsTo`: what comes of expanding an expression, at some depth.
* `Expr.Match.expandsTo`: what comes of it is the same in all stores that a closed store grows to,
  and for all expressions that match but for spots of which that is so.
-/

namespace Quasiquote

open Eval Store

/-- Two macro errors are the same but for paired names and numbers. -/
inductive MacroError.Alike (naming : Naming) (p : Pairing) : MacroError → MacroError → Prop
  | arity {a b} (names : naming.pairs a b) (want got : Nat) :
      Alike naming p (.arity a want got) (.arity b want got)
  | noQuotation {a b v w} (names : naming.pairs a b) (given : v.Alike naming p w) :
      Alike naming p (.noQuotation a v) (.noQuotation b w)
  | noValue {a b} (names : naming.pairs a b) : Alike naming p (.noValue a) (.noValue b)

structure MacroCall.Alike (naming : Naming) (p : Pairing) (c d : MacroCall) : Prop where
  names : naming.pairs c.name d.name
  params : List.Forall₂ naming.Binds c.closure.params d.closure.params
  body : BlockAlike naming c.closure.body d.closure.body
  frames : p.frames c.closure.frame d.closure.frame
  args : ArgsMatch naming noSpot c.args d.args

abbrev SyntaxEnds (naming : Naming) :
    Pairing → Except MacroError Expr → Except MacroError Expr → Prop :=
  EndsAlike (MacroError.Alike naming) fun _ => Expr.Alike naming

section
variable {naming : Naming} {p : Pairing}

theorem Store.Alike.macroCall? {s t : Store} (h : s.Alike naming p t) {i j : Nat}
    (paired : p.frames i j) {x y : Expr} (like : x.Alike naming y) :
    Option.Rel (MacroCall.Alike naming p) (s.macroCall? i x) (t.macroCall? j y) := by
  cases like with
  | spot h => exact h.elim
  | call callee args =>
    cases callee with
    | spot h => exact h.elim
    | name names =>
      have found := h.find? paired names
      simp only [Store.macroCall?]
      revert found
      generalize s.find? i _ = f, t.find? j _ = g
      intro found
      cases found with
      | none => exact .none
      | some like =>
        cases like with
        | routine role _ params body frames =>
          cases role with
          | function => exact .none
          | transformer => exact .some ⟨names, params, body, frames, args⟩
        | _ => exact .none
    | _ => exact .none
  | _ => exact .none

theorem MacroCall.syntaxOf_alike {c d : MacroCall} (names : naming.pairs c.name d.name)
    {given given' : Option Value} (h : Option.Rel (Value.Alike naming p) given given') :
    SyntaxEnds naming p (c.syntaxOf given) (d.syntaxOf given') := by
  cases h with
  | none => exact .noValue names
  | some like =>
    have inner := like.unwrapped
    simp only [MacroCall.syntaxOf]
    revert inner
    generalize Value.unwrapped _ = v, Value.unwrapped _ = w
    intro inner
    have whole := inner
    cases inner with
    | quotation _ node => exact node
    | _ => exact MacroError.Alike.noQuotation names whole

variable {alike : Pairing → Store → Store → Prop} (likeness : Likeness naming alike)
include likeness

theorem quoteArgs_mirrors {xs ys : List Expr} (h : ArgsMatch naming noSpot xs ys) :
    Mirrors alike p (fun q => List.Forall₂ (Value.Alike naming q)) (quoteArgs xs)
      (quoteArgs ys) := by
  induction xs generalizing ys p with
  | nil => cases h; exact .pure .nil
  | cons x xs ih =>
    cases h with
    | cons first rest =>
      exact (Mirrors.newSerial likeness).bind fun q _ k l serials =>
        (ih rest).bind fun r le vs ws likes =>
          .pure (.cons (.quotation (le.2 _ _ serials) first) likes)

variable {depth depth' : Nat} (le : depth ≤ depth')
include le

theorem MacroCall.eval_mirrors {c d : MacroCall} (h : c.Alike naming p d) :
    Mirrors alike p (fun q => Option.Rel (Value.Alike naming q)) (c.eval depth)
      (d.eval depth') := by
  refine (quoteArgs_mirrors likeness h.args).bind fun q le' vs ws likes => ?_
  refine Mirrors.bind (.openFrame likeness ?_) fun r _ i j paired => ?_
  · exact Closure.callFrame_alike h.params (le'.1 _ _ h.frames) likes
  · exact (Block.eval_mirrors likeness le paired h.body).settled?

theorem expandNode_mirrors {i j : Nat} (paired : p.frames i j) :
    RuleMirrors alike naming noSpot (MacroError.Alike naming) (expandNode i depth)
      (expandNode j depth') p := by
  induction depth generalizing depth' p with
  | zero => exact ⟨fun _ _ _ _ _ => .exhausted, fun _ _ _ _ h => h.elim⟩
  | succ depth ih =>
    cases depth' with
    | zero => cases le
    | succ depth' =>
      refine ⟨fun q le' x y like => ?_, fun _ _ _ _ h => h.elim⟩
      rw [expandNode, expandNode]
      have paired' := le'.1 _ _ paired
      refine (Mirrors.lift .get).andThen fun r le'' s t stores => ?_
      have calls := (likeness.stores stores).macroCall? (le''.1 _ _ paired') like
      revert calls
      generalize s.macroCall? i x = c, t.macroCall? j y = d
      intro calls
      cases calls with
      | none => exact .ok like
      | @some c d call =>
        dsimp only
        rw [call.params.length_eq, call.args.length_eq]
        split
        · have deeper : depth ≤ depth' := Nat.le_of_succ_le_succ le
          refine (Mirrors.lift (c.eval_mirrors likeness deeper call)).andThen
            fun u le₃ given given' like' => ?_
          refine Mirrors.andThen (.pure (MacroCall.syntaxOf_alike call.names like')) ?_
          intro v le₄ node node' like''
          have pairedThere := le₄.1 _ _ (le₃.1 _ _ (le''.1 _ _ paired'))
          exact Expr.rewriteM_mirrors (ih deeper pairedThere) like''
        · exact .throw (.arity call.names _ _)

theorem Program.expand_mirrors {i j : Nat} (paired : p.frames i j) {b c : Program}
    (h : BlockAlike naming b c) :
    Mirrors alike p (EndsAlike (MacroError.Alike naming) fun _ => BlockAlike naming)
      (b.expand depth i).run (c.expand depth' j).run :=
  rewriteBlockM_mirrors (expandNode_mirrors likeness le paired) h

end

/-! ## What an expression expands to -/

/-- What comes of expanding an expression, at some depth: syntax, or the wording of an error. -/
def Expr.ExpandsTo (s : Store) (frame : Nat) (e : Expr) (out : Except String Expr) : Prop :=
  ∃ depth result t, e.rewriteM (expandNode frame depth) s = some (result, t) ∧
    result.mapError MacroError.message = out

theorem Fault.Alike.eq {naming : Naming} (plain : naming.Plain) {cause cause' : Fault}
    (h : cause.Alike naming cause') : cause = cause' := by
  cases h with
  | unbound names => exact congrArg Fault.unbound (plain.eq_of_pairs names)
  | other _ => rfl

theorem Value.Alike.text_eq {p : Pairing} {v w : Value} (h : v.Alike .same p w) :
    v.text = w.text := by
  induction h with
  | routine role _ params body _ =>
    simp only [Value.text, Naming.plain_same.eq_of_binds params, body.eq Naming.plain_same]
  | quotation _ node => rw [node.eq Naming.plain_same]; rfl
  | returned _ ih => exact ih
  | fault cause => rw [cause.eq Naming.plain_same]
  | _ => rfl

theorem MacroError.Alike.message_eq {p : Pairing} {e d : MacroError} (h : e.Alike .same p d) :
    e.message = d.message := by
  cases h with
  | arity names => rw [names]
  | noQuotation names given =>
    obtain rfl := names
    simp only [MacroError.message, given.kind_eq, given.text_eq]
  | noValue names => rw [names]

/-- Two stores that one store grows to. -/
def Store.BothGrow (s : Store) (_ : Unit) (t u : Store) : Prop := s.Grows t ∧ s.Grows u

/-- Two expansions end in the same syntax, or in errors of the same wording. -/
abbrev SameEnds : Unit → Except MacroError Expr → Except MacroError Expr → Prop :=
  EndsAlike (fun _ e d => e.message = d.message) fun _ => Expr.Alike .same

theorem SameEnds.message_eq {a b : Except MacroError Expr} (h : SameEnds () a b) :
    b.mapError MacroError.message = a.mapError MacroError.message := by
  cases a <;> cases b
  case ok.ok => exact congrArg Except.ok (h.eq Naming.plain_same).symm
  case error.error => exact congrArg Except.error (Eq.symm h)
  all_goals exact h.elim

theorem SameEnds.trans {a b c : Except MacroError Expr} (h : SameEnds () a b)
    (h' : SameEnds () b c) : SameEnds () a c := by
  cases a <;> cases b <;> cases c
  case ok.ok.ok => exact h.eq Naming.plain_same ▸ h'
  case error.error.error => exact Eq.trans h h'
  all_goals first | exact h.elim | exact h'.elim

section
variable {s : Store} {frame : Nat} (closed : s.Closed) (opened : frame < s.frames.size)
include closed opened

theorem expandNode_mirrors_grown {depth depth' : Nat} (le : depth ≤ depth') (e : Expr) :
    Mirrors s.BothGrow () SameEnds (expandNode frame depth e).run
      (expandNode frame depth' e).run := by
  rintro t u ⟨st, su⟩ a t' run
  have rules : RuleMirrors (Store.Alike .same) .same noSpot (MacroError.Alike .same)
      (expandNode frame depth) (expandNode frame depth') (.upTo s) :=
    expandNode_mirrors (Store.Alike.likeness .same) le ⟨rfl, opened⟩
  obtain ⟨b, u', q, run', later, stores, ended⟩ :=
    rules.node _ le_rfl e e (.same e) t u (closed.alike st su) a t' run
  -- The numbers that `s` gave out are still paired, so that both stores gave them out.
  have given (k : Nat) (h : k < s.serials) : k < t'.serials ∧ k < u'.serials :=
    stores.serials k k (later.2 k k ⟨rfl, h⟩)
  have retains := expandNode_retains frame depth e t a t' run
  have retains' := expandNode_retains frame depth' e u b u' run'
  have grown : s.Grows t' := ⟨IsTrans.trans s t t' st.retains retains,
    le_of_forall_lt fun k h => (given k h).1⟩
  have grown' : s.Grows u' := ⟨IsTrans.trans s u u' su.retains retains',
    le_of_forall_lt fun k h => (given k h).2⟩
  refine ⟨b, u', (), run', le_rfl, ⟨grown, grown'⟩, ?_⟩
  cases a <;> cases b
  case ok.ok => exact ended
  case error.error => exact MacroError.Alike.message_eq ended
  all_goals exact ended.elim

theorem Expr.Match.expands_mirrors {spot : Expr → Expr → Prop} {depth depth' : Nat}
    (le : depth ≤ depth')
    (spots : ∀ x y, spot x y → Mirrors s.BothGrow () SameEnds
      (x.rewriteM (expandNode frame depth)).run (y.rewriteM (expandNode frame depth')).run)
    {x y : Expr} (h : x.Match .same spot y) :
    Mirrors s.BothGrow () SameEnds (x.rewriteM (expandNode frame depth)).run
      (y.rewriteM (expandNode frame depth')).run := by
  refine Expr.rewriteM_mirrors ⟨fun _ _ x y like => ?_, fun _ _ => spots⟩ h
  rw [like.eq Naming.plain_same]
  exact expandNode_mirrors_grown closed opened le y

/-- Going deeper, from any store that the same store grows to, makes no difference. -/
theorem Expr.expands_mirrors {depth depth' : Nat} (le : depth ≤ depth') (e : Expr) :
    Mirrors s.BothGrow () SameEnds (e.rewriteM (expandNode frame depth)).run
      (e.rewriteM (expandNode frame depth')).run := by
  have whole : e.Alike .same e := .same e
  exact whole.expands_mirrors closed opened le fun _ _ h => h.elim

/-- What an expression expands to, it expands to from every store that the same store grows to, at
any depth that suffices. -/
theorem Expr.ExpandsTo.grown {e : Expr} {out : Except String Expr} (h : e.ExpandsTo s frame out) :
    ∃ least, ∀ depth, least ≤ depth → ∀ t, s.Grows t → ∃ result u,
      e.rewriteM (expandNode frame depth) t = some (result, u) ∧ s.Grows u ∧
        result.mapError MacroError.message = out := by
  obtain ⟨least, result, t, run, rfl⟩ := h
  refine ⟨least, fun depth le u su => ?_⟩
  obtain ⟨result', u', _, run', _, ⟨_, su'⟩, ended⟩ :=
    e.expands_mirrors closed opened le s u ⟨.refl s, su⟩ result t run
  exact ⟨result', u', run', su', SameEnds.message_eq ended⟩

/-- Expressions that match expand to the same if their spots do, the second of which may need some
more depth. -/
theorem Expr.Match.expandsTo {spot : Expr → Expr → Prop} (more : Nat)
    (spots : ∀ x y, spot x y → ∀ depth, Mirrors s.BothGrow () SameEnds
      (x.rewriteM (expandNode frame depth)).run (y.rewriteM (expandNode frame (depth + more))).run)
    {x y : Expr} (h : x.Match .same spot y) {out : Except String Expr}
    (expands : x.ExpandsTo s frame out) : y.ExpandsTo s frame out := by
  obtain ⟨depth, result, t, run, rfl⟩ := expands
  have mirrors := h.expands_mirrors closed opened (Nat.le_add_right depth more)
    fun x y related => spots x y related depth
  obtain ⟨result', u, _, run', _, _, ended⟩ := mirrors s s ⟨.refl s, .refl s⟩ result t run
  exact ⟨_, result', u, run', SameEnds.message_eq ended⟩

end

end Quasiquote
