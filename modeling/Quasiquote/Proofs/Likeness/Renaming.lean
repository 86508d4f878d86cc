import Quasiquote.Proofs.Likeness.Execution

/-!
# Names are opaque

* `Renaming`: a one-to-one renaming of names that leaves `quote` and `unquote` as they are.
  `Program.rename` applies it to all names, bindings and parameters of a program, and
  `Outcome.rename` to what an execution comes to.
* `Expr.Match.renamed` and `Expr.Match.eq_rename`: what matches under a renaming is the renamed, and
  nothing else.
* `execute_rename`: executing a renamed program comes to the renamed outcome, at every depth.
-/

namespace Quasiquote

open Eval Session

/-- A one-to-one renaming of names that leaves `quote` and `unquote` as they are. -/
structure Renaming where
  newName : String → String
  injective : Function.Injective newName
  quote : newName "quote" = "quote"
  unquote : newName "unquote" = "unquote"

/-! ## What is renamed -/

section
variable (f : Renaming)

mutual

/-- Renames all names, bindings and parameters in an expression. -/
def Expr.rename : Expr → Expr
  | .name id => .name (f.newName id)
  | .int n => .int n
  | .bool b => .bool b
  | .unary op operand => .unary op operand.rename
  | .binary left op right => .binary left.rename op right.rename
  | .cond test consequence alternative =>
    .cond test.rename (renameBlock consequence) (renameAlternative alternative)
  | .routine role params body => .routine role (params.map f.newName) (renameBlock body)
  | .call callee args => .call callee.rename (renameArgs args)

def Stmt.rename : Stmt → Stmt
  | .bind name value => .bind (f.newName name) value.rename
  | .ret value => .ret value.rename
  | .expr value => .expr value.rename

def renameBlock : List Stmt → List Stmt
  | [] => []
  | s :: rest => s.rename :: renameBlock rest

def renameAlternative : Option (List Stmt) → Option (List Stmt)
  | none => none
  | some block => some (renameBlock block)

def renameArgs : List Expr → List Expr
  | [] => []
  | x :: rest => x.rename :: renameArgs rest

end

def Program.rename (program : Program) : Program := renameBlock f program

def Fault.rename : Fault → Fault
  | .unbound name => .unbound (f.newName name)
  | cause => cause

def Value.rename : Value → Value
  | .routine role serial closure =>
    .routine role serial
      ⟨closure.params.map f.newName, renameBlock f closure.body, closure.frame⟩
  | .quotation serial node => .quotation serial (node.rename f)
  | .returned inner => .returned inner.rename
  | .fault cause => .fault (cause.rename f)
  | v => v

def MacroError.rename : MacroError → MacroError
  | .arity name want got => .arity (f.newName name) want got
  | .noQuotation name given => .noQuotation (f.newName name) (given.rename f)
  | .noValue name => .noValue (f.newName name)

abbrev Outcome := Except MacroError (Option Value)

def Outcome.rename : Outcome → Outcome
  | .ok given => .ok (given.map (Value.rename f))
  | .error e => .error (e.rename f)

end

/-! ## Renaming as a pairing of names -/

def Renaming.naming (f : Renaming) : Naming where
  pairs a b := f.newName a = b
  unique := ⟨fun _ _ _ h h' => f.injective (h.trans h'.symm), fun _ _ _ h h' => h.symm.trans h'⟩
  quote a b h := by
    subst h
    exact ⟨fun eq => eq ▸ f.quote, fun eq => f.injective (eq.trans f.quote.symm)⟩
  unquote a b h := by
    subst h
    exact ⟨fun eq => eq ▸ f.unquote, fun eq => f.injective (eq.trans f.unquote.symm)⟩

section
variable {f : Renaming}

theorem Renaming.eq_map {ps qs : List String} (h : List.Forall₂ f.naming.Binds ps qs) :
    qs = ps.map f.newName := by
  induction h with
  | nil => rfl
  | @cons a b _ _ binds _ ih =>
    have eq : f.newName a = b := (binds a _ rfl).mp rfl
    rw [ih, List.map_cons, eq]

mutual

theorem Expr.Match.renamed : ∀ e : Expr, e.Alike f.naming (e.rename f)
  | .name _ => .name rfl
  | .int n => .int n
  | .bool b => .bool b
  | .unary op operand => .unary op (.renamed operand)
  | .binary left op right => .binary op (.renamed left) (.renamed right)
  | .cond test consequence alternative =>
    .cond (.renamed test) (.renamed consequence) (.renamed alternative)
  | .routine role _ body =>
    .routine role (List.forall₂_map_right_iff.mpr (List.forall₂_same.mpr fun _ _ => rfl))
      (.renamed body)
  | .call callee args => .call (.renamed callee) (.renamed args)

theorem Stmt.Match.renamed : ∀ s : Stmt, s.Match f.naming noSpot (s.rename f)
  | .bind _ value => .bind rfl (.renamed value)
  | .ret value => .ret (.renamed value)
  | .expr value => .expr (.renamed value)

theorem BlockMatch.renamed : ∀ block : List Stmt, BlockAlike f.naming block (renameBlock f block)
  | [] => .nil
  | s :: rest => .cons (.renamed s) (.renamed rest)

theorem AlternativeMatch.renamed : ∀ alternative : Option (List Stmt),
    AlternativeMatch f.naming noSpot alternative (renameAlternative f alternative)
  | none => .none
  | some block => .some (.renamed block)

theorem ArgsMatch.renamed : ∀ args : List Expr,
    ArgsMatch f.naming noSpot args (renameArgs f args)
  | [] => .nil
  | x :: rest => .cons (.renamed x) (.renamed rest)

end

mutual

theorem Expr.Match.eq_rename : ∀ {x y : Expr}, x.Alike f.naming y → y = x.rename f
  | _, _, .spot h => h.elim
  | _, _, .name h => congrArg Expr.name h.symm
  | _, _, .int _ => rfl
  | _, _, .bool _ => rfl
  | _, _, .unary op operand => by rw [operand.eq_rename, Expr.rename]
  | _, _, .binary op left right => by rw [left.eq_rename, right.eq_rename, Expr.rename]
  | _, _, .cond test consequence alternative => by
    rw [test.eq_rename, consequence.eq_rename, alternative.eq_rename, Expr.rename]
  | _, _, .routine role params body => by
    have names := Renaming.eq_map (params.imp fun _ _ => f.naming.binds_of_pairs)
    rw [names, body.eq_rename, Expr.rename]
  | _, _, .call callee args => by rw [callee.eq_rename, args.eq_rename, Expr.rename]

theorem Stmt.Match.eq_rename : ∀ {s t : Stmt}, s.Match f.naming noSpot t → t = s.rename f
  | _, _, .bind h value => by
    have name : f.newName _ = _ := h
    rw [value.eq_rename, ← name, Stmt.rename]
  | _, _, .ret value => by rw [value.eq_rename, Stmt.rename]
  | _, _, .expr value => by rw [value.eq_rename, Stmt.rename]

theorem BlockMatch.eq_rename : ∀ {b c : List Stmt}, BlockAlike f.naming b c → c = renameBlock f b
  | _, _, .nil => rfl
  | _, _, .cons first rest => by rw [first.eq_rename, rest.eq_rename, renameBlock]

theorem AlternativeMatch.eq_rename : ∀ {b c : Option (List Stmt)},
    AlternativeMatch f.naming noSpot b c → c = renameAlternative f b
  | _, _, .none => rfl
  | _, _, .some block => by rw [block.eq_rename, renameAlternative]

theorem ArgsMatch.eq_rename : ∀ {xs ys : List Expr},
    ArgsMatch f.naming noSpot xs ys → ys = renameArgs f xs
  | _, _, .nil => rfl
  | _, _, .cons first rest => by rw [first.eq_rename, rest.eq_rename, renameArgs]

end

theorem Fault.Alike.eq_rename {cause cause' : Fault} (h : cause.Alike f.naming cause') :
    cause' = cause.rename f := by
  cases h with
  | unbound names => exact congrArg Fault.unbound names.symm
  | other bound =>
    cases cause with
    | unbound name => exact (bound name rfl).elim
    | _ => rfl

/-- In step, what is alike under a renaming is the renamed. -/
theorem Value.Alike.eq_rename {p : Pairing} (sameFrames : ∀ i j, p.frames i j → i = j)
    (sameSerials : ∀ k l, p.serials k l → k = l) {v w : Value} (h : v.Alike f.naming p w) :
    w = v.rename f := by
  induction h with
  | int | bool | null => rfl
  | routine role serials params body frames =>
    rw [Value.rename, ← sameSerials _ _ serials, ← sameFrames _ _ frames,
      ← Renaming.eq_map params, ← body.eq_rename]
  | quotation serials node => rw [Value.rename, ← sameSerials _ _ serials, ← node.eq_rename]
  | returned _ ih => rw [ih, Value.rename]
  | fault cause => rw [cause.eq_rename, Value.rename]

theorem Outcome.eq_rename {p : Pairing} (sameFrames : ∀ i j, p.frames i j → i = j)
    (sameSerials : ∀ k l, p.serials k l → k = l) {out out' : Outcome}
    (h : ExecutionEnds f.naming p out out') : out' = Outcome.rename f out := by
  cases out <;> cases out'
  case ok.ok given given' =>
    cases h with
    | none => rfl
    | some like => rw [like.eq_rename sameFrames sameSerials]; rfl
  case error.error e e' =>
    cases h with
    | arity names | noValue names => rw [← names]; rfl
    | noQuotation names given => rw [← names, given.eq_rename sameFrames sameSerials]; rfl
  all_goals exact h.elim

end

theorem Store.inStep_initial (naming : Naming) :
    Store.initial.InStep naming (.upTo .initial) .initial := by
  constructor
  · constructor
    · rintro i j ⟨rfl, opened⟩
      obtain rfl : i = 0 := Nat.lt_one_iff.mp opened
      have outermost (outer : Nat) (inside : outer ∈ (⟨[], none⟩ : Frame).enclosing) :
          outer < 0 := by
        cases inside
      exact ⟨⟨[], none⟩, ⟨[], none⟩, rfl, rfl, ⟨fun _ _ _ => .none, .none⟩, outermost, outermost⟩
    · rintro k l ⟨_, given⟩
      cases given
  · exact fun i j h => h.1
  · exact fun k l h => h.1
  · rfl
  · rfl

/-- Names are opaque. Where the macros of a program are defined, its macro calls expanded and the
rest evaluated, from the initial store and up to any depth, a renamed program comes to an outcome
exactly if the program does, and to the renamed outcome: an error about the renamed macro, no value,
the same integer, boolean or null, the renamed syntax, or the same fault but for the name that it
does not find. -/
theorem execute_rename (f : Renaming) (depth : Nat) (program : Program) :
    ((program.rename f).execute depth .initial).map Prod.fst =
      (program.execute depth .initial).map fun (out, _) => Outcome.rename f out := by
  have renamed : BlockAlike f.naming program (program.rename f) := .renamed program
  have back : BlockAlike f.naming.turned (program.rename f) program :=
    renamed.flip fun _ _ paired => paired
  have paired : (Pairing.upTo .initial).frames globals globals := ⟨rfl, by decide⟩
  have forth := Program.execute_mirrors (Store.InStep.likeness f.naming) (Nat.le_refl depth) paired
    renamed .initial .initial (Store.inStep_initial _)
  have ends := Program.execute_mirrors (Store.InStep.likeness f.naming.turned) (Nat.le_refl depth)
    paired back .initial .initial (Store.inStep_initial _)
  cases ran : program.execute depth .initial with
  | none =>
    cases ran' : (program.rename f).execute depth .initial with
    | none => rfl
    | some result =>
      obtain ⟨out, t, _, came, _⟩ := ends result.1 result.2 ran'
      cases ran.symm.trans came
  | some result =>
    obtain ⟨out, t, q, came, _, inStep, like⟩ := forth result.1 result.2 ran
    have same : (program.rename f).execute depth .initial = some (out, t) := came
    rw [same]
    exact congrArg some (Outcome.eq_rename inStep.sameFrames inStep.sameSerials like)

/-- The names `m` and `x` in place of each other. -/
def swapping : Renaming where
  newName := Equiv.swap "m" "x"
  injective := (Equiv.swap "m" "x").injective
  quote := by decide
  unquote := by decide

/-- The program `let m = macro(x) { quote(fn(x) { unquote(x) + y }) }; m(m)`. -/
def capturing : Program :=
  [.bind "m" (.routine .transformer ["x"] [.expr (.call (.name "quote")
    [.routine .function ["x"] [.expr (.binary (.call (.name "unquote") [.name "x"]) .add
      (.name "y"))]])]),
    .expr (.call (.name "m") [.name "m"])]

/-- The program gives a function that reads the macro's name. Renamed, with the macro's name and its
parameter's in each other's place, it gives the renamed function. -/
theorem execute_rename_capturing :
    (capturing.execute 6 .initial).map Prod.fst =
        some (.ok (some (.routine .function 3
          ⟨["x"], [.expr (.binary (.name "m") .add (.name "y"))], 0⟩))) ∧
      ((capturing.rename swapping).execute 6 .initial).map Prod.fst =
        some (.ok (some (.routine .function 3
          ⟨["m"], [.expr (.binary (.name "x") .add (.name "y"))], 0⟩))) := by
  have given : (capturing.execute 6 .initial).map Prod.fst =
      some (.ok (some (.routine .function 3
        ⟨["x"], [.expr (.binary (.name "m") .add (.name "y"))], 0⟩))) := by
    cbv
  constructor
  · exact given
  · have same := execute_rename swapping 6 capturing
    have renamed := congrArg (Option.map (Outcome.rename swapping)) given
    rw [Option.map_map] at renamed
    exact same.trans renamed

end Quasiquote
