import Quasiquote.Proofs.Likeness.Mirroring
import Quasiquote.Proofs.Store.Closed

/-!
# Stores that are alike

* `Pairing`: pairs of frames and pairs of serial numbers, one to one, that stand for each other in
  two stores. More pairs may come.
* `Value.Alike`: two values are the same but for paired names and numbers. `Store.Alike`: paired
  frames bind paired names to values that are alike, and are inside paired frames.
* What the evaluator does to a store is mirrored in one that is alike: giving out a serial number,
  opening a frame, binding and looking up a name. `Likeness`: the ways for stores to be alike of
  which that is so.
-/

namespace Quasiquote

/-- Frames and serial numbers that stand for each other in two stores, one to one. -/
structure Pairing where
  frames : Nat → Nat → Prop
  serials : Nat → Nat → Prop
  frames_unique : Relator.BiUnique frames
  serials_unique : Relator.BiUnique serials

namespace Pairing

/-- A later pairing has all pairs of an earlier one. -/
instance : Preorder Pairing where
  le p q := p.frames ≤ q.frames ∧ p.serials ≤ q.serials
  le_refl _ := ⟨le_rfl, le_rfl⟩
  le_trans _ _ _ h h' := ⟨h.1.trans h'.1, h.2.trans h'.2⟩

theorem biUnique_add {r : Nat → Nat → Prop} (h : Relator.BiUnique r) {m n : Nat}
    (fresh : ∀ i j, r i j → i < m ∧ j < n) :
    Relator.BiUnique fun i j => r i j ∨ i = m ∧ j = n := by
  constructor
  · intro i k j hij hkj
    rcases hij with hij | ⟨rfl, rfl⟩ <;> rcases hkj with hkj | ⟨rfl, eq⟩
    · exact h.1 hij hkj
    · exact absurd (fresh _ _ hij).2 (eq ▸ lt_irrefl _)
    · exact absurd (fresh _ _ hkj).2 (lt_irrefl _)
    · rfl
  · intro i j k hij hik
    rcases hij with hij | ⟨rfl, rfl⟩ <;> rcases hik with hik | ⟨eq, rfl⟩
    · exact h.2 hij hik
    · exact absurd (fresh _ _ hij).1 (eq ▸ lt_irrefl _)
    · exact absurd (fresh _ _ hik).1 (lt_irrefl _)
    · rfl

def addFrame (p : Pairing) (m n : Nat) (fresh : ∀ i j, p.frames i j → i < m ∧ j < n) : Pairing where
  frames i j := p.frames i j ∨ i = m ∧ j = n
  serials := p.serials
  frames_unique := biUnique_add p.frames_unique fresh
  serials_unique := p.serials_unique

def addSerial (p : Pairing) (m n : Nat) (fresh : ∀ i j, p.serials i j → i < m ∧ j < n) :
    Pairing where
  frames := p.frames
  serials i j := p.serials i j ∨ i = m ∧ j = n
  frames_unique := p.frames_unique
  serials_unique := biUnique_add p.serials_unique fresh

theorem biUnique_same (given : Nat → Prop) : Relator.BiUnique fun i j => i = j ∧ given i :=
  ⟨fun _ _ _ h h' => h.1.trans h'.1.symm, fun _ _ _ h h' => h.1.symm.trans h'.1⟩

/-- Every frame and serial number that was given out in a store stands for itself. -/
def upTo (s : Store) : Pairing where
  frames i j := i = j ∧ i < s.frames.size
  serials i j := i = j ∧ i < s.serials
  frames_unique := biUnique_same _
  serials_unique := biUnique_same _

end Pairing

inductive Fault.Alike (naming : Naming) : Fault → Fault → Prop
  | unbound {a b} (h : naming.pairs a b) : Alike naming (.unbound a) (.unbound b)
  | other {cause} (h : ∀ name, cause ≠ .unbound name) : Alike naming cause cause

/-- Two values are the same but for paired names and numbers. -/
inductive Value.Alike (naming : Naming) (p : Pairing) : Value → Value → Prop
  | int (n : Int64) : Alike naming p (.int n) (.int n)
  | bool (b : Bool) : Alike naming p (.bool b) (.bool b)
  | null : Alike naming p .null .null
  | routine (role : Role) {k l ps qs b c i j} (serials : p.serials k l)
      (params : List.Forall₂ naming.Binds ps qs) (body : BlockAlike naming b c)
      (frames : p.frames i j) :
      Alike naming p (.routine role k ⟨ps, b, i⟩) (.routine role l ⟨qs, c, j⟩)
  | quotation {k l x y} (serials : p.serials k l) (node : x.Alike naming y) :
      Alike naming p (.quotation k x) (.quotation l y)
  | returned {v w} (inner : Alike naming p v w) : Alike naming p (.returned v) (.returned w)
  | fault {c d} (cause : c.Alike naming d) : Alike naming p (.fault c) (.fault d)

/-- Two frames bind paired names to values that are alike, and are inside paired frames. -/
structure Frame.Alike (naming : Naming) (p : Pairing) (f g : Frame) : Prop where
  bindings : ∀ a b, naming.pairs a b → Option.Rel (Value.Alike naming p) (f.find? a) (g.find? b)
  enclosing : Option.Rel p.frames f.enclosing g.enclosing

/-- Paired frames are alike, and inside frames that were opened before them. Paired serial numbers
were given out. -/
structure Store.Alike (naming : Naming) (p : Pairing) (s t : Store) : Prop where
  frames : ∀ i j, p.frames i j → ∃ f g, s.frames[i]? = some f ∧ t.frames[j]? = some g ∧
    f.Alike naming p g ∧ (∀ outer ∈ f.enclosing, outer < i) ∧ ∀ outer ∈ g.enclosing, outer < j
  serials : ∀ k l, p.serials k l → k < s.serials ∧ l < t.serials

section
variable {naming : Naming} {p q : Pairing}

/-! ## Values -/

namespace Value.Alike

theorem mono (le : p ≤ q) {v w : Value} (h : v.Alike naming p w) : v.Alike naming q w := by
  induction h with
  | int n => exact .int n
  | bool b => exact .bool b
  | null => exact .null
  | routine role serials params body frames =>
    exact .routine role (le.2 _ _ serials) params body (le.1 _ _ frames)
  | quotation serials node => exact .quotation (le.2 _ _ serials) node
  | returned _ ih => exact .returned ih
  | fault cause => exact .fault cause

variable {v w v' w' : Value}

theorem kind_eq (h : v.Alike naming p w) : v.kind = w.kind := by
  cases h <;> rfl

theorem isSignal_eq (h : v.Alike naming p w) : v.isSignal = w.isSignal := by
  cases h <;> rfl

theorem isFault_eq (h : v.Alike naming p w) : v.isFault = w.isFault := by
  cases h <;> rfl

theorem isTruthy_eq (h : v.Alike naming p w) : v.isTruthy = w.isTruthy := by
  cases h <;> rfl

theorem unwrapped (h : v.Alike naming p w) : v.unwrapped.Alike naming p w.unwrapped := by
  cases h with
  | returned inner => exact inner
  | int n => exact .int n
  | bool b => exact .bool b
  | null => exact .null
  | routine role serials params body frames => exact .routine role serials params body frames
  | quotation serials node => exact .quotation serials node
  | fault cause => exact .fault cause

theorem syntax? (h : v.Alike naming p w) :
    Option.Rel (Expr.Alike naming) v.syntax? w.syntax? := by
  cases h with
  | int n => exact .some (.int n)
  | bool b => exact .some (.bool b)
  | quotation _ node => exact .some node
  | _ => exact .none

theorem serial_eq_iff {k l m n : Nat} (h : p.serials k l) (h' : p.serials m n) :
    k = m ↔ l = n := by
  constructor
  · rintro rfl
    exact p.serials_unique.2 h h'
  · rintro rfl
    exact p.serials_unique.1 h h'

/-- Paired values are the same under the same conditions, since serial numbers are paired one to
one. -/
theorem identical_eq (h : v.Alike naming p w) (h' : v'.Alike naming p w') :
    v.identical v' = w.identical w' := by
  cases h with
  | routine role serials =>
    cases h' with
    | routine role' serials' =>
      exact Bool.eq_iff_iff.mpr (by simp [identical, serial_eq_iff serials serials'])
    | _ => rfl
  | quotation serials =>
    cases h' with
    | quotation serials' =>
      exact Bool.eq_iff_iff.mpr (by simp [identical, serial_eq_iff serials serials'])
    | _ => rfl
  | _ => cases h' <;> rfl

end Value.Alike

theorem exactOr_alike {cause : Fault} (same : cause.Alike naming cause) (n : Int) :
    (exactOr cause n).Alike naming p (exactOr cause n) := by
  unfold exactOr
  split
  · exact .int _
  · exact .fault same

theorem UnaryOp.apply_alike (op : UnaryOp) {v w : Value} (h : v.Alike naming p w) :
    (op.apply v).Alike naming p (op.apply w) := by
  cases op with
  | not =>
    simp only [UnaryOp.apply, h.isTruthy_eq]
    exact .bool _
  | neg =>
    have kinds := h.kind_eq
    cases h with
    | int n => exact exactOr_alike (.other (by simp)) _
    | _ =>
      simp only [UnaryOp.apply, kinds]
      exact .fault (.other (by simp))

theorem BinaryOp.applyInt_alike (op : BinaryOp) (a b : Int64) :
    (op.applyInt a b).Alike naming p (op.applyInt a b) := by
  cases op with
  | add | sub | mul => exact exactOr_alike (.other (by simp)) _
  | div =>
    unfold BinaryOp.applyInt
    dsimp only
    split
    · exact .fault (.other (by simp))
    · exact exactOr_alike (.other (by simp)) _
  | lt | le | gt | ge | eq | ne => exact .bool _

/-- On anything but two integers, an operator depends on kinds and identity alone. -/
theorem BinaryOp.apply_eq (op : BinaryOp) {v w : Value}
    (h : ∀ a b, v = .int a → w = .int b → False) :
    op.apply v w =
      if v.kind ≠ w.kind then .fault (.mismatch v.kind op w.kind)
      else
        match op with
        | .eq => .bool (v.identical w)
        | .ne => .bool (!v.identical w)
        | _ => .fault (.noOperation v.kind op w.kind) := by
  unfold BinaryOp.apply
  split
  · exact (h _ _ rfl rfl).elim
  · rfl

theorem BinaryOp.apply_alike (op : BinaryOp) {v w v' w' : Value} (h : v.Alike naming p w)
    (h' : v'.Alike naming p w') : (op.apply v v').Alike naming p (op.apply w w') := by
  by_cases ints : ∃ a b, v = .int a ∧ v' = .int b
  · obtain ⟨a, b, rfl, rfl⟩ := ints
    cases h
    cases h'
    exact op.applyInt_alike a b
  · have left : ∀ a b, v = .int a → v' = .int b → False := fun a b e e' => ints ⟨a, b, e, e'⟩
    have right : ∀ a b, w = .int a → w' = .int b → False := by
      rintro a b rfl rfl
      cases h
      cases h'
      exact left a b rfl rfl
    rw [op.apply_eq left, op.apply_eq right, h.kind_eq, h'.kind_eq, h.identical_eq h']
    split
    · exact .fault (.other (by simp))
    · split
      · exact .bool _
      · exact .bool _
      · exact .fault (.other (by simp))

/-! ## Frames and stores -/

theorem optionRel_imp {α β : Type} {r r' : α → β → Prop} (sub : ∀ a b, r a b → r' a b)
    {x : Option α} {y : Option β} (h : Option.Rel r x y) : Option.Rel r' x y := by
  cases h with
  | some h => exact .some (sub _ _ h)
  | none => exact .none

theorem Frame.Alike.mono (le : p ≤ q) {f g : Frame} (h : f.Alike naming p g) :
    f.Alike naming q g :=
  ⟨fun a b paired => optionRel_imp (fun _ _ like => like.mono le) (h.bindings a b paired),
    optionRel_imp le.1 h.enclosing⟩

theorem Frame.Alike.insert {f g : Frame} (h : f.Alike naming p g) {a b : String}
    (binds : naming.Binds a b) {v w : Value} (like : v.Alike naming p w) :
    (f.insert a v).Alike naming p (g.insert b w) := by
  refine ⟨fun c d paired => ?_, h.enclosing⟩
  rw [Frame.find?_insert, Frame.find?_insert]
  by_cases eq : c = a
  · have eq' : d = b := (binds c d paired).mp eq
    simpa [eq, eq'] using Option.Rel.some like
  · have ne : d ≠ b := mt (binds c d paired).mpr eq
    simpa [eq, ne] using h.bindings c d paired

theorem Frame.Alike.insertAll {f g : Frame} (h : f.Alike naming p g) {ps qs : List String}
    (params : List.Forall₂ naming.Binds ps qs) {vs ws : List Value}
    (values : List.Forall₂ (Value.Alike naming p) vs ws) :
    (f.insertAll ps vs).Alike naming p (g.insertAll qs ws) := by
  induction params generalizing f g vs ws with
  | nil => exact h
  | cons binds _ ih =>
    cases values with
    | nil => exact h
    | cons like values => exact ih (h.insert binds like) values

theorem Closure.callFrame_alike {closure closure' : Closure}
    (params : List.Forall₂ naming.Binds closure.params closure'.params)
    (frames : p.frames closure.frame closure'.frame) {vs ws : List Value}
    (values : List.Forall₂ (Value.Alike naming p) vs ws) :
    (closure.callFrame vs).Alike naming p (closure'.callFrame ws) :=
  Frame.Alike.insertAll ⟨fun _ _ _ => .none, .some frames⟩ params values

namespace Pairing

variable {m n : Nat}

theorem le_addFrame {fresh : ∀ i j, p.frames i j → i < m ∧ j < n} : p ≤ p.addFrame m n fresh :=
  ⟨fun _ _ => .inl, le_rfl⟩

theorem le_addSerial {fresh : ∀ i j, p.serials i j → i < m ∧ j < n} : p ≤ p.addSerial m n fresh :=
  ⟨le_rfl, fun _ _ => .inl⟩

end Pairing

namespace Store.Alike

variable {s t : Store} (h : s.Alike naming p t)
include h

theorem opened (i j : Nat) (paired : p.frames i j) : i < s.frames.size ∧ j < t.frames.size := by
  obtain ⟨f, g, hf, hg, _⟩ := h.frames i j paired
  exact ⟨(Array.getElem?_eq_some_iff.mp hf).1, (Array.getElem?_eq_some_iff.mp hg).1⟩

theorem find? {i j : Nat} (paired : p.frames i j) {a b : String} (names : naming.pairs a b) :
    Option.Rel (Value.Alike naming p) (s.find? i a) (t.find? j b) := by
  induction i using Nat.strongRecOn generalizing j with
  | ind i ih =>
    obtain ⟨f, g, hf, hg, like, below, below'⟩ := h.frames i j paired
    rw [find?_eq hf, find?_eq hg]
    have bound := like.bindings a b names
    revert bound
    generalize f.find? a = x, g.find? b = y
    intro bound
    cases bound with
    | some like => exact .some like
    | none =>
      have around := like.enclosing
      cases outward : f.enclosing <;> cases outward' : g.enclosing <;>
        rw [outward, outward'] at around <;> cases around
      · exact .none
      · next outer outer' paired' =>
        simp only [Option.none_or, Option.bind_some, if_pos (below outer outward),
          if_pos (below' outer' outward')]
        exact ih outer (below outer outward) paired'

theorem newSerial :
    Store.Alike naming (p.addSerial s.serials t.serials h.serials)
      { s with serials := s.serials + 1 } { t with serials := t.serials + 1 } where
  frames i j paired := by
    obtain ⟨f, g, hf, hg, like, below⟩ := h.frames i j paired
    exact ⟨f, g, hf, hg, like.mono Pairing.le_addSerial, below⟩
  serials k l paired := by
    rcases paired with old | ⟨rfl, rfl⟩
    · have fresh := h.serials k l old
      exact ⟨fresh.1.trans (Nat.lt_succ_self _), fresh.2.trans (Nat.lt_succ_self _)⟩
    · exact ⟨Nat.lt_succ_self _, Nat.lt_succ_self _⟩

theorem openFrame {f g : Frame} (like : f.Alike naming p g) :
    (s.openFrame f).Alike naming (p.addFrame s.frames.size t.frames.size h.opened)
      (t.openFrame g) where
  frames i j paired := by
    rcases paired with old | ⟨rfl, rfl⟩
    · obtain ⟨f', g', hf, hg, like', below⟩ := h.frames i j old
      exact ⟨f', g', retains_openFrame s f i f' hf, retains_openFrame t g j g' hg,
        like'.mono Pairing.le_addFrame, below⟩
    · have around := like.enclosing
      refine ⟨f, g, by simp [Store.openFrame], by simp [Store.openFrame],
        like.mono Pairing.le_addFrame, fun outer inside => ?_, fun outer inside => ?_⟩
      · rw [Option.mem_def.mp inside] at around
        cases outward : g.enclosing <;> rw [outward] at around <;> cases around
        next paired => exact (h.opened _ _ paired).1
      · rw [Option.mem_def.mp inside] at around
        cases outward : f.enclosing <;> rw [outward] at around <;> cases around
        next paired => exact (h.opened _ _ paired).2
  serials := h.serials

theorem insert {i j : Nat} (paired : p.frames i j) {a b : String} (names : naming.Binds a b)
    {v w : Value} (like : v.Alike naming p w) :
    (s.insert i a v).Alike naming p (t.insert j b w) where
  frames k l paired' := by
    obtain ⟨f, g, hf, hg, like', below⟩ := h.frames k l paired'
    by_cases eq : i = k
    · obtain rfl : j = l := p.frames_unique.2 paired (eq ▸ paired')
      subst eq
      exact ⟨f.insert a v, g.insert b w, by simp [Store.insert, Array.getElem?_modify, hf],
        by simp [Store.insert, Array.getElem?_modify, hg], like'.insert names like, below⟩
    · have ne : j ≠ l := fun eq' => eq (p.frames_unique.1 paired (eq' ▸ paired'))
      exact ⟨f, g, by simpa [Store.insert, Array.getElem?_modify, eq] using hf,
        by simpa [Store.insert, Array.getElem?_modify, ne] using hg, like', below⟩
  serials := h.serials

end Store.Alike

/-! ## What the evaluator does to a store -/

/-- A way for stores to be alike, at least as `Store.Alike` has it, that the effects of evaluation
keep. -/
structure Likeness (naming : Naming) (alike : Pairing → Store → Store → Prop) : Prop where
  stores : ∀ {p s t}, alike p s t → s.Alike naming p t
  newSerial : ∀ {p s t} (h : alike p s t),
    alike (p.addSerial s.serials t.serials (stores h).serials)
      { s with serials := s.serials + 1 } { t with serials := t.serials + 1 }
  openFrame : ∀ {p s t} (h : alike p s t) {f g : Frame}, f.Alike naming p g →
    alike (p.addFrame s.frames.size t.frames.size (stores h).opened) (s.openFrame f) (t.openFrame g)
  insert : ∀ {p s t}, alike p s t → ∀ {i j}, p.frames i j → ∀ {a b}, naming.Binds a b →
    ∀ {v w}, v.Alike naming p w → alike p (s.insert i a v) (t.insert j b w)

theorem Store.Alike.likeness (naming : Naming) : Likeness naming (Store.Alike naming) where
  stores h := h
  newSerial h := h.newSerial
  openFrame h _ _ like := h.openFrame like
  insert h _ _ paired _ _ names _ _ like := h.insert paired names like

namespace Eval.Mirrors

variable {alike : Pairing → Store → Store → Prop} (likeness : Likeness naming alike)
include likeness

theorem newSerial : Mirrors alike p (fun q => q.serials) Eval.newSerial Eval.newSerial := by
  intro s t like a s' run
  cases run
  exact ⟨_, _, _, rfl, Pairing.le_addSerial, likeness.newSerial like, .inr ⟨rfl, rfl⟩⟩

theorem openFrame {f g : Frame} (h : f.Alike naming p g) :
    Mirrors alike p (fun q => q.frames) (Eval.openFrame f) (Eval.openFrame g) := by
  intro s t like a s' run
  cases run
  exact ⟨_, _, _, rfl, Pairing.le_addFrame, likeness.openFrame like h, .inr ⟨rfl, rfl⟩⟩

theorem insert {i j : Nat} (paired : p.frames i j) {a b : String} (names : naming.Binds a b)
    {v w : Value} (h : v.Alike naming p w) :
    Mirrors alike p (fun _ _ _ => True) (Eval.insert i a v) (Eval.insert j b w) := by
  intro s t like a s' run
  cases run
  exact ⟨_, _, p, rfl, le_rfl, likeness.insert like paired names h, trivial⟩

theorem find? {i j : Nat} (paired : p.frames i j) {a b : String} (names : naming.pairs a b) :
    Mirrors alike p (fun q => Option.Rel (Value.Alike naming q)) (Eval.find? i a)
      (Eval.find? j b) :=
  get.bind fun _ le _ _ like => pure ((likeness.stores like).find? (le.1 _ _ paired) names)

end Eval.Mirrors

end

/-! ## A store and what it grows to -/

/-- Every frame and every serial number is still given out as it was. -/
structure Store.Grows (s t : Store) : Prop where
  retains : s.Retains t
  serials : s.serials ≤ t.serials

theorem Store.Grows.refl (s : Store) : s.Grows s := ⟨fun _ _ h => h, le_rfl⟩

theorem Value.Within.alike {s : Store} {v : Value} (h : v.Within s) :
    v.Alike .same (.upTo s) v := by
  induction v with
  | int n => exact .int n
  | bool b => exact .bool b
  | null => exact .null
  | routine role serial closure =>
    have params := List.forall₂_same.mpr fun name (_ : name ∈ closure.params) =>
      Naming.same.binds_of_pairs rfl
    exact .routine role ⟨rfl, h.1⟩ params (.same _) ⟨rfl, h.2⟩
  | quotation serial node => exact .quotation ⟨rfl, h⟩ (.same node)
  | returned inner ih => exact .returned (ih h)
  | fault cause =>
    cases cause with
    | unbound name => exact .fault (.unbound rfl)
    | _ => exact .fault (.other (by simp))

theorem Store.Closed.frame_alike {s : Store} (closed : s.Closed) {i : Nat} {f : Frame}
    (here : s.frames[i]? = some f) : f.Alike .same (.upTo s) f := by
  constructor
  · intro a b eq
    obtain rfl : a = b := eq
    cases bound : f.find? a with
    | none => exact .none
    | some v => exact .some (closed.bindings _ _ _ _ here (Frame.mem_of_find? bound)).alike
  · cases around : f.enclosing with
    | none => exact .none
    | some outer =>
      have opened := (Array.getElem?_eq_some_iff.mp here).1
      exact .some ⟨rfl, (closed.enclosing _ _ _ here around).trans opened⟩

/-- Two stores that a closed store grows to are alike in what was there before. -/
theorem Store.Closed.alike {s t u : Store} (closed : s.Closed) (st : s.Grows t) (su : s.Grows u) :
    t.Alike .same (.upTo s) u where
  frames i j paired := by
    obtain ⟨rfl, opened⟩ := paired
    have here : s.frames[i]? = some s.frames[i] := Array.getElem?_eq_getElem opened
    exact ⟨_, _, st.retains _ _ here, su.retains _ _ here, closed.frame_alike here,
      fun outer inside => closed.enclosing _ _ _ here inside,
      fun outer inside => closed.enclosing _ _ _ here inside⟩
  serials k l paired := by
    obtain ⟨rfl, given⟩ := paired
    exact ⟨given.trans_le st.serials, given.trans_le su.serials⟩

end Quasiquote
