import Mathlib
import Quasiquote.Proofs.Rewriting.Rebuilding

/-!
# Syntax that matches

* `Naming`: a one-to-one pairing of names that keeps `quote` and `unquote` apart from the others.
  `Naming.Binds`: the names that may be bound for each other; paired names may.
* `Expr.Match naming spot`: two expressions are the same but for paired names, and but for parts
  that are related by `spot`. `Expr.Alike` has no such parts, and `Expr.Replaced` has one expression
  in place of another in any number of places.
* `Expr.Match.parts`: matching goes by the parts of expressions.
* `Expr.names`: the names in an expression, with those that are bound in it. `Expr.Match.self`: it
  matches itself if these stand for themselves.
-/

namespace Quasiquote

/-- A one-to-one pairing of names, in which `quote` and `unquote` stand for themselves. -/
structure Naming where
  pairs : String → String → Prop
  unique : Relator.BiUnique pairs
  quote : ∀ a b, pairs a b → (a = "quote" ↔ b = "quote")
  unquote : ∀ a b, pairs a b → (a = "unquote" ↔ b = "unquote")

/-- No pair of names tells these two apart, so that they may be bound for each other. -/
def Naming.Binds (naming : Naming) (a b : String) : Prop :=
  ∀ c d, naming.pairs c d → (c = a ↔ d = b)

theorem Naming.binds_of_pairs {naming : Naming} {a b : String} (h : naming.pairs a b) :
    naming.Binds a b := by
  intro c d paired
  constructor
  · rintro rfl
    exact naming.unique.2 paired h
  · rintro rfl
    exact naming.unique.1 paired h

def Naming.same : Naming where
  pairs := Eq
  unique := ⟨fun _ _ _ h h' => h.trans h'.symm, fun _ _ _ h h' => h.symm.trans h'⟩
  quote := by rintro a _ rfl; rfl
  unquote := by rintro a _ rfl; rfl

/-- No name is bound for another. -/
def Naming.Plain (naming : Naming) : Prop := ∀ a b, naming.Binds a b → a = b

theorem Naming.plain_same : Naming.same.Plain := fun a _ binds => (binds a a rfl).mp rfl

def Naming.turned (naming : Naming) : Naming where
  pairs a b := naming.pairs b a
  unique := ⟨fun _ _ _ h h' => naming.unique.2 h h', fun _ _ _ h h' => naming.unique.1 h h'⟩
  quote a b h := (naming.quote b a h).symm
  unquote a b h := (naming.unquote b a h).symm

mutual

/-- Two expressions are the same but for paired names and related spots. -/
inductive Expr.Match (naming : Naming) (spot : Expr → Expr → Prop) : Expr → Expr → Prop
  | spot {x y} (h : spot x y) : Expr.Match naming spot x y
  | name {a b} (h : naming.pairs a b) : Expr.Match naming spot (.name a) (.name b)
  | int (n : Int64) : Expr.Match naming spot (.int n) (.int n)
  | bool (b : Bool) : Expr.Match naming spot (.bool b) (.bool b)
  | unary (op : UnaryOp) {x y} (operand : Expr.Match naming spot x y) :
      Expr.Match naming spot (.unary op x) (.unary op y)
  | binary (op : BinaryOp) {x y z w} (left : Expr.Match naming spot x y)
      (right : Expr.Match naming spot z w) :
      Expr.Match naming spot (.binary x op z) (.binary y op w)
  | cond {x y b c d e} (test : Expr.Match naming spot x y)
      (consequence : BlockMatch naming spot b c) (alternative : AlternativeMatch naming spot d e) :
      Expr.Match naming spot (.cond x b d) (.cond y c e)
  | routine (role : Role) {ps qs b c} (params : List.Forall₂ naming.pairs ps qs)
      (body : BlockMatch naming spot b c) :
      Expr.Match naming spot (.routine role ps b) (.routine role qs c)
  | call {x y xs ys} (callee : Expr.Match naming spot x y) (args : ArgsMatch naming spot xs ys) :
      Expr.Match naming spot (.call x xs) (.call y ys)

inductive Stmt.Match (naming : Naming) (spot : Expr → Expr → Prop) : Stmt → Stmt → Prop
  | bind {a b x y} (h : naming.pairs a b) (value : Expr.Match naming spot x y) :
      Stmt.Match naming spot (.bind a x) (.bind b y)
  | ret {x y} (value : Expr.Match naming spot x y) : Stmt.Match naming spot (.ret x) (.ret y)
  | expr {x y} (value : Expr.Match naming spot x y) : Stmt.Match naming spot (.expr x) (.expr y)

inductive BlockMatch (naming : Naming) (spot : Expr → Expr → Prop) :
    List Stmt → List Stmt → Prop
  | nil : BlockMatch naming spot [] []
  | cons {s t b c} (first : Stmt.Match naming spot s t) (rest : BlockMatch naming spot b c) :
      BlockMatch naming spot (s :: b) (t :: c)

/-- Two alternatives are both missing, or the same but for paired names and related spots. -/
inductive AlternativeMatch (naming : Naming) (spot : Expr → Expr → Prop) :
    Option (List Stmt) → Option (List Stmt) → Prop
  | none : AlternativeMatch naming spot none none
  | some {b c} (block : BlockMatch naming spot b c) :
      AlternativeMatch naming spot (some b) (some c)

inductive ArgsMatch (naming : Naming) (spot : Expr → Expr → Prop) : List Expr → List Expr → Prop
  | nil : ArgsMatch naming spot [] []
  | cons {x y xs ys} (first : Expr.Match naming spot x y) (rest : ArgsMatch naming spot xs ys) :
      ArgsMatch naming spot (x :: xs) (y :: ys)

end

def noSpot (_ _ : Expr) : Prop := False

abbrev Expr.Alike (naming : Naming) : Expr → Expr → Prop := Expr.Match naming noSpot

abbrev BlockAlike (naming : Naming) : Block → Block → Prop := BlockMatch naming noSpot

/-- One expression comes of another by putting a part in place of another part, in any number of
places. -/
abbrev Expr.Replaced (old new : Expr) : Expr → Expr → Prop :=
  Expr.Match .same fun x y => x = old ∧ y = new

section
variable {naming : Naming} {spot : Expr → Expr → Prop}

theorem Expr.Match.name?_eq {x y : Expr} (h : x.Match naming noSpot y) :
    (x.name? = some "quote" ↔ y.name? = some "quote") ∧
      (x.name? = some "unquote" ↔ y.name? = some "unquote") := by
  cases h with
  | spot h => exact h.elim
  | name h => simpa [Expr.name?] using ⟨naming.quote _ _ h, naming.unquote _ _ h⟩
  | _ => simp [Expr.name?]

theorem ArgsMatch.length_eq {xs ys : List Expr} (h : ArgsMatch naming spot xs ys) :
    xs.length = ys.length := by
  induction xs generalizing ys with
  | nil => cases h; rfl
  | cons x xs ih =>
    cases h with
    | cons _ rest => simp [ih rest]

end

/-! ## Part by part -/

section
variable {naming : Naming} {spot spot' : Expr → Expr → Prop}

theorem argsMatch_iff {xs ys : List Expr} :
    ArgsMatch naming spot xs ys ↔ List.Forall₂ (Expr.Match naming spot) xs ys := by
  constructor
  · intro h
    induction xs generalizing ys with
    | nil =>
      cases h
      exact .nil
    | cons x xs ih =>
      cases h with
      | cons first rest => exact .cons first (ih rest)
  · intro h
    induction h with
    | nil => exact .nil
    | cons first _ ih => exact .cons first ih

theorem BlockMatch.values {b c : Block} (h : BlockMatch naming spot b c) :
    List.Forall₂ (Expr.Match naming spot) (b.map Stmt.value) (c.map Stmt.value) := by
  induction b generalizing c with
  | nil =>
    cases h
    exact .nil
  | cons st rest ih =>
    cases h with
    | cons first others =>
      refine .cons ?_ (ih others)
      cases first <;> assumption

theorem BlockMatch.withValues {b c : Block} (h : BlockMatch naming spot b c) {xs ys : List Expr}
    (values : List.Forall₂ (Expr.Match naming spot') xs ys) :
    BlockMatch naming spot' (withValues b xs) (withValues c ys) := by
  induction b generalizing c xs ys with
  | nil =>
    cases h
    exact .nil
  | cons st rest ih =>
    cases h with
    | cons first others =>
      cases values with
      | nil => exact .nil
      | cons value more =>
        refine .cons ?_ (ih others more)
        cases first with
        | bind paired => exact .bind paired value
        | ret => exact .ret value
        | expr => exact .expr value

theorem AlternativeMatch.values {b c : Option Block} (h : AlternativeMatch naming spot b c) :
    List.Forall₂ (Expr.Match naming spot) ((b.getD []).map Stmt.value)
      ((c.getD []).map Stmt.value) := by
  cases h with
  | none => exact .nil
  | some block => exact block.values

/-- Matching expressions are related spots, or match part by part and go on to match with other
parts that do. -/
theorem Expr.Match.parts {x y : Expr} (h : x.Match naming spot y) :
    spot x y ∨ List.Forall₂ (Expr.Match naming spot) x.parts y.parts ∧
      ∀ xs ys, xs.length = x.parts.length → List.Forall₂ (Expr.Match naming spot') xs ys →
        (x.withParts xs).Match naming spot' (y.withParts ys) := by
  cases h with
  | spot related => exact .inl related
  | name paired => exact .inr ⟨.nil, fun _ _ _ _ => .name paired⟩
  | int n => exact .inr ⟨.nil, fun _ _ _ _ => .int n⟩
  | bool b => exact .inr ⟨.nil, fun _ _ _ _ => .bool b⟩
  | unary op operand =>
    refine .inr ⟨.cons operand .nil, ?_⟩
    rintro _ _ length (_ | ⟨first, _ | _⟩) <;> cases length
    exact .unary op first
  | binary op left right =>
    refine .inr ⟨.cons left (.cons right .nil), ?_⟩
    rintro _ _ length (_ | ⟨first, _ | ⟨second, _ | _⟩⟩) <;> cases length
    exact .binary op first second
  | @cond _ _ b c _ _ test consequence alternative =>
    refine .inr ⟨.cons test (List.rel_append consequence.values alternative.values), ?_⟩
    rintro _ _ length (_ | ⟨first, others⟩)
    · cases length
    · refine .cond first (consequence.withValues others) ?_
      have same : b.length = c.length := by simpa using consequence.values.length_eq
      cases alternative with
      | none => exact .none
      | some block =>
        rw [same]
        exact .some (block.withValues (List.forall₂_drop _ others))
  | routine role params body =>
    refine .inr ⟨body.values, ?_⟩
    intro xs ys _ others
    exact .routine role params (body.withValues others)
  | call callee args =>
    refine .inr ⟨.cons callee (argsMatch_iff.mp args), ?_⟩
    rintro _ _ length (_ | ⟨first, others⟩)
    · cases length
    · exact .call first (argsMatch_iff.mpr others)

end

/-! ## With itself -/

mutual

/-- The names in an expression, with those of bindings and parameters. -/
def Expr.names : Expr → List String
  | .name id => [id]
  | .int _ => []
  | .bool _ => []
  | .unary _ operand => operand.names
  | .binary left _ right => left.names ++ right.names
  | .cond test consequence alternative =>
    test.names ++ blockNames consequence ++ alternativeNames alternative
  | .routine _ params body => params ++ blockNames body
  | .call callee args => callee.names ++ argsNames args

def Stmt.names : Stmt → List String
  | .bind name value => name :: value.names
  | .ret value => value.names
  | .expr value => value.names

def blockNames : List Stmt → List String
  | [] => []
  | s :: rest => s.names ++ blockNames rest

def alternativeNames : Option (List Stmt) → List String
  | none => []
  | some block => blockNames block

def argsNames : List Expr → List String
  | [] => []
  | x :: rest => x.names ++ argsNames rest

end

section
variable {naming : Naming} {spot : Expr → Expr → Prop}

mutual

/-- An expression matches itself if all names in it stand for themselves. -/
theorem Expr.Match.self : ∀ e : Expr, (∀ a ∈ e.names, naming.pairs a a) → e.Match naming spot e
  | .name id, h => .name (h id (List.mem_singleton_self id))
  | .int n, _ => .int n
  | .bool b, _ => .bool b
  | .unary op operand, h => .unary op (.self operand h)
  | .binary left op right, h => by
    simp only [Expr.names, List.forall_mem_append] at h
    exact .binary op (.self left h.1) (.self right h.2)
  | .cond test consequence alternative, h => by
    simp only [Expr.names, List.forall_mem_append] at h
    exact .cond (.self test h.1.1) (.self consequence h.1.2) (.self alternative h.2)
  | .routine role params body, h => by
    simp only [Expr.names, List.forall_mem_append] at h
    exact .routine role (List.forall₂_same.mpr h.1) (.self body h.2)
  | .call callee args, h => by
    simp only [Expr.names, List.forall_mem_append] at h
    exact .call (.self callee h.1) (.self args h.2)

theorem Stmt.Match.self : ∀ s : Stmt, (∀ a ∈ s.names, naming.pairs a a) → s.Match naming spot s
  | .bind name value, h => by
    simp only [Stmt.names, List.forall_mem_cons] at h
    exact .bind h.1 (.self value h.2)
  | .ret value, h => .ret (.self value h)
  | .expr value, h => .expr (.self value h)

theorem BlockMatch.self : ∀ block : List Stmt, (∀ a ∈ blockNames block, naming.pairs a a) →
    BlockMatch naming spot block block
  | [], _ => .nil
  | s :: rest, h => by
    simp only [blockNames, List.forall_mem_append] at h
    exact .cons (.self s h.1) (.self rest h.2)

theorem AlternativeMatch.self : ∀ alternative : Option (List Stmt),
    (∀ a ∈ alternativeNames alternative, naming.pairs a a) →
      AlternativeMatch naming spot alternative alternative
  | none, _ => .none
  | some block, h => .some (.self block h)

theorem ArgsMatch.self : ∀ args : List Expr, (∀ a ∈ argsNames args, naming.pairs a a) →
    ArgsMatch naming spot args args
  | [], _ => .nil
  | x :: rest, h => by
    simp only [argsNames, List.forall_mem_append] at h
    exact .cons (.self x h.1) (.self rest h.2)

end

theorem Expr.Match.same (e : Expr) : e.Match .same spot e := .self e fun _ _ => rfl

theorem BlockMatch.same (block : List Stmt) : BlockMatch .same spot block block :=
  .self block fun _ _ => rfl

end

/-! ## The other way round -/

section
variable {naming naming' : Naming} {spot : Expr → Expr → Prop}

mutual

theorem Expr.Match.flip (turn : ∀ a b, naming.pairs a b → naming'.pairs b a) :
    ∀ {x y : Expr}, x.Match naming spot y → y.Match naming' (flip spot) x
  | _, _, .spot h => .spot h
  | _, _, .name h => .name (turn _ _ h)
  | _, _, .int n => .int n
  | _, _, .bool b => .bool b
  | _, _, .unary op operand => .unary op (operand.flip turn)
  | _, _, .binary op left right => .binary op (left.flip turn) (right.flip turn)
  | _, _, .cond test consequence alternative =>
    .cond (test.flip turn) (consequence.flip turn) (alternative.flip turn)
  | _, _, .routine role params body =>
    .routine role (params.flip.imp fun b a => turn a b) (body.flip turn)
  | _, _, .call callee args => .call (callee.flip turn) (args.flip turn)

theorem Stmt.Match.flip (turn : ∀ a b, naming.pairs a b → naming'.pairs b a) :
    ∀ {s t : Stmt}, s.Match naming spot t → t.Match naming' (flip spot) s
  | _, _, .bind h value => .bind (turn _ _ h) (value.flip turn)
  | _, _, .ret value => .ret (value.flip turn)
  | _, _, .expr value => .expr (value.flip turn)

theorem BlockMatch.flip (turn : ∀ a b, naming.pairs a b → naming'.pairs b a) :
    ∀ {b c : List Stmt}, BlockMatch naming spot b c → BlockMatch naming' (flip spot) c b
  | _, _, .nil => .nil
  | _, _, .cons first rest => .cons (first.flip turn) (rest.flip turn)

theorem AlternativeMatch.flip (turn : ∀ a b, naming.pairs a b → naming'.pairs b a) :
    ∀ {b c : Option (List Stmt)},
      AlternativeMatch naming spot b c → AlternativeMatch naming' (flip spot) c b
  | _, _, .none => .none
  | _, _, .some block => .some (block.flip turn)

theorem ArgsMatch.flip (turn : ∀ a b, naming.pairs a b → naming'.pairs b a) :
    ∀ {xs ys : List Expr}, ArgsMatch naming spot xs ys → ArgsMatch naming' (flip spot) ys xs
  | _, _, .nil => .nil
  | _, _, .cons first rest => .cons (first.flip turn) (rest.flip turn)

end

theorem Expr.Replaced.flip {old new x y : Expr} (h : Expr.Replaced old new x y) :
    y.Match .same (Function.swap fun x y => x = old ∧ y = new) x :=
  Expr.Match.flip (fun _ _ => Eq.symm) h

end

/-! ## Without spots -/

section
variable {naming : Naming}

theorem Naming.Plain.eq_of_pairs (plain : naming.Plain) {a b : String} (h : naming.pairs a b) :
    a = b :=
  plain a b (naming.binds_of_pairs h)

theorem Naming.Plain.eq_of_binds (plain : naming.Plain) {ps qs : List String}
    (h : List.Forall₂ naming.Binds ps qs) : ps = qs :=
  List.forall₂_eq_eq_eq ▸ h.imp plain

mutual

theorem Expr.Match.eq (plain : naming.Plain) : ∀ {x y : Expr}, x.Match naming noSpot y → x = y
  | _, _, .spot h => h.elim
  | _, _, .name h => congrArg Expr.name (plain.eq_of_pairs h)
  | _, _, .int _ => rfl
  | _, _, .bool _ => rfl
  | _, _, .unary op operand => by rw [operand.eq plain]
  | _, _, .binary op left right => by rw [left.eq plain, right.eq plain]
  | _, _, .cond test consequence alternative => by
    rw [test.eq plain, consequence.eq plain, alternative.eq plain]
  | _, _, .routine role params body => by
    rw [plain.eq_of_binds (params.imp fun _ _ => naming.binds_of_pairs), body.eq plain]
  | _, _, .call callee args => by rw [callee.eq plain, args.eq plain]

theorem Stmt.Match.eq (plain : naming.Plain) : ∀ {s t : Stmt}, s.Match naming noSpot t → s = t
  | _, _, .bind h value => by rw [value.eq plain, plain.eq_of_pairs h]
  | _, _, .ret value => by rw [value.eq plain]
  | _, _, .expr value => by rw [value.eq plain]

theorem BlockMatch.eq (plain : naming.Plain) :
    ∀ {b c : List Stmt}, BlockMatch naming noSpot b c → b = c
  | _, _, .nil => rfl
  | _, _, .cons first rest => by rw [first.eq plain, rest.eq plain]

theorem AlternativeMatch.eq (plain : naming.Plain) :
    ∀ {b c : Option (List Stmt)}, AlternativeMatch naming noSpot b c → b = c
  | _, _, .none => rfl
  | _, _, .some block => by rw [block.eq plain]

theorem ArgsMatch.eq (plain : naming.Plain) :
    ∀ {xs ys : List Expr}, ArgsMatch naming noSpot xs ys → xs = ys
  | _, _, .nil => rfl
  | _, _, .cons first rest => by rw [first.eq plain, rest.eq plain]

end

end

end Quasiquote
