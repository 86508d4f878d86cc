import Quasiquote.Proofs.Likeness.Execution
import Quasiquote.Proofs.Session.Signals
import Quasiquote.Proofs.Store.Difference

/-!
# Bindings that nothing mentions

* `Store.Sees`: the frames that can be reached from the global one. `Store.Unmentioned`: no syntax
  that can be reached from the global frame has a name in it.
* `Store.InStepBut`: two stores are in step and differ in what one name is bound to.
* `run_unmentioned`: a run of a source does not depend on what is bound to a name that neither its
  program nor any syntax within reach has in it.
-/

namespace Quasiquote

open Eval Session

/-! ## Programs that do not mention a name -/

def Program.names (program : Program) : List String := blockNames program

/-- Every name but one stands for itself. -/
def Naming.besides (x : String) : Naming where
  pairs a b := a = b ∧ a ≠ x
  unique := ⟨fun _ _ _ h h' => h.1.trans h'.1.symm, fun _ _ _ h h' => h.1.symm.trans h'.1⟩
  quote _ _ h := h.1 ▸ Iff.rfl
  unquote _ _ h := h.1 ▸ Iff.rfl

section
variable {x : String}

/-- Every name may be bound for itself, the one that is left out too. -/
theorem Naming.binds_besides (a : String) : (Naming.besides x).Binds a a := by
  rintro c d ⟨rfl, _⟩
  rfl

theorem Naming.plain_besides : (Naming.besides x).Plain := by
  intro a b binds
  by_cases left : a = x
  · by_contra ne
    have other : b ≠ x := fun eq => ne (left.trans eq.symm)
    exact ne ((binds b b ⟨rfl, other⟩).mpr rfl).symm
  · exact (binds a a ⟨rfl, left⟩).mp rfl

theorem Naming.pairs_besides_of_not_mem {names : List String} (h : x ∉ names) :
    ∀ a ∈ names, (Naming.besides x).pairs a a := by
  intro a inside
  exact ⟨rfl, fun eq => h (eq ▸ inside)⟩

theorem Expr.Match.besides (e : Expr) (h : x ∉ e.names) : e.Alike (.besides x) e :=
  .self e (Naming.pairs_besides_of_not_mem h)

theorem BlockMatch.besides (block : Block) (h : x ∉ blockNames block) :
    BlockAlike (.besides x) block block :=
  .self block (Naming.pairs_besides_of_not_mem h)

end

/-! ## What is within reach -/

/-- The syntax in a value has a name in it: the body of a routine, or a quoted node. -/
def Value.Mentions (x : String) : Value → Prop
  | .routine _ _ closure => x ∈ blockNames closure.body
  | .quotation _ node => x ∈ node.names
  | _ => False

namespace Store

/-- The frames that can be reached from the global one: the frame around one that is, and the frame
that a routine bound in one closes over. -/
inductive Sees (s : Store) : Nat → Prop
  | globals : s.Sees globals
  | outward {i outer f} (inner : s.Sees i) (here : s.frames[i]? = some f)
      (around : f.enclosing = some outer) : s.Sees outer
  | captured {i f name role serial closure} (holder : s.Sees i) (here : s.frames[i]? = some f)
      (bound : f.find? name = some (.routine role serial closure)) : s.Sees closure.frame

/-- No syntax that can be reached from the global frame has a name in it. -/
def Unmentioned (s : Store) (x : String) : Prop :=
  ∀ (i : Nat) (f : Frame) (name : String) (v : Value), s.Sees i → s.frames[i]? = some f →
    f.find? name = some v → ¬ v.Mentions x

end Store

/-! ## Runs that differ in one binding -/

section
variable {x : String}

/-- In step under a plain naming, values that are alike are the same. -/
theorem Value.Alike.eq_of_inStep {naming : Naming} (plain : naming.Plain) {p : Pairing}
    {s t : Store} (h : s.InStep naming p t) {v w : Value} (like : v.Alike naming p w) : v = w := by
  induction like with
  | int | bool | null => rfl
  | routine role serials params body frames =>
    rw [h.sameSerials _ _ serials, h.sameFrames _ _ frames, plain.eq_of_binds params, body.eq plain]
  | quotation serials node => rw [h.sameSerials _ _ serials, node.eq plain]
  | returned _ ih => rw [ih]
  | fault cause => rw [cause.eq plain]

theorem eq_of_optionRel {α : Type} {r : α → α → Prop} (sub : ∀ a b, r a b → a = b)
    {y z : Option α} (h : Option.Rel r y z) : y = z := by
  cases h with
  | none => rfl
  | some related => rw [sub _ _ related]

/-- Two stores are in step and have the same but for what is bound to one name. -/
structure Store.InStepBut (x : String) (p : Pairing) (s t : Store) : Prop where
  inStep : s.InStep (.besides x) p t
  sameBut : s.SameBut x t

theorem Store.InStepBut.eq {p : Pairing} {s t : Store} (h : s.InStepBut x p t) (v w : Value)
    (like : v.Alike (.besides x) p w) : v = w :=
  like.eq_of_inStep Naming.plain_besides h.inStep

theorem Store.InStepBut.likeness (x : String) : Likeness (.besides x) (Store.InStepBut x) where
  stores h := h.inStep.toAlike
  newSerial h := by
    constructor
    · exact (Store.InStep.likeness _).newSerial h.inStep
    · exact h.sameBut.newSerial
  openFrame h f g like := by
    constructor
    · exact (Store.InStep.likeness _).openFrame h.inStep like
    · apply h.sameBut.openFrame h.inStep.opened_eq
      constructor
      · exact eq_of_optionRel h.inStep.sameFrames like.enclosing
      · intro name ne
        exact eq_of_optionRel h.eq (like.bindings name name ⟨rfl, ne⟩)
  insert h i j paired a b names v w like := by
    constructor
    · exact (Store.InStep.likeness _).insert h.inStep paired names like
    · rw [← h.inStep.sameFrames _ _ paired, ← Naming.plain_besides _ _ names, ← h.eq _ _ like]
      exact h.sameBut.insert i a v

/-- Every frame within reach and every serial number that was given out stands for itself. -/
def Pairing.reached (s : Store) : Pairing where
  __ := Pairing.upTo s
  frames i j := i = j ∧ s.Sees i
  frames_unique := biUnique_same _

theorem Store.Sees.opened {s : Store} (sound : s.Sound) {i : Nat} (h : s.Sees i) :
    i < s.frames.size := by
  cases h with
  | globals => exact sound.opened
  | outward _ here around =>
    exact (sound.enclosing _ _ _ here around).trans (Array.getElem?_eq_some_iff.mp here).1
  | captured _ here bound => exact (sound.bindings _ _ _ _ here (Frame.mem_of_find? bound)).within.2

theorem Value.Sound.alike_besides {s : Store} {v : Value} (sound : v.Sound s)
    (unmentioned : ¬ v.Mentions x)
    (captured : ∀ role serial closure, v = .routine role serial closure → s.Sees closure.frame) :
    v.Alike (.besides x) (.reached s) v := by
  have within := sound.within
  have ordinary := sound.ordinary
  cases v with
  | int n => exact .int n
  | bool b => exact .bool b
  | null => exact .null
  | routine role serial closure =>
    have params := List.forall₂_same.mpr fun name (_ : name ∈ closure.params) =>
      Naming.binds_besides (x := x) name
    exact .routine role ⟨rfl, within.1⟩ params (.besides closure.body unmentioned)
      ⟨rfl, captured role serial closure rfl⟩
  | quotation serial node => exact .quotation ⟨rfl, within⟩ (.besides node unmentioned)
  | returned inner => cases ordinary
  | fault cause => cases ordinary

namespace Store.Unmentioned

variable {s t u : Store} (h : s.Unmentioned x) (sound : s.Sound)
include h sound

theorem frame_alike {i : Nat} {k f g : Frame} (seen : s.Sees i) (here : s.frames[i]? = some k)
    (kf : k.SameBut x f) (kg : k.SameBut x g) : f.Alike (.besides x) (.reached s) g := by
  constructor
  · rintro a b ⟨rfl, ne⟩
    rw [← kf.bindings a ne, ← kg.bindings a ne]
    cases bound : k.find? a with
    | none => exact .none
    | some v =>
      apply Option.Rel.some
      apply (sound.bindings i k a v here (Frame.mem_of_find? bound)).alike_besides
      · exact h i k a v seen here bound
      · rintro role serial closure rfl
        exact .captured seen here bound
  · rw [← kf.enclosing, ← kg.enclosing]
    cases around : k.enclosing with
    | none => exact .none
    | some outer => exact .some ⟨rfl, .outward seen here around⟩

/-- Two stores that have the same as a sound one, but for what is bound to a name that nothing
within reach mentions, are in step. -/
theorem inStepBut (st : s.SameBut x t) (su : s.SameBut x u) : t.InStepBut x (.reached s) u := by
  have same : t.SameBut x u := st.symm.trans su
  have alike : t.Alike (.besides x) (.reached s) u := by
    constructor
    · rintro i j ⟨rfl, seen⟩
      obtain ⟨k, here⟩ : ∃ k, s.frames[i]? = some k :=
        ⟨_, Array.getElem?_eq_getElem (seen.opened sound)⟩
      obtain ⟨f, hf, kf⟩ := st.frame here
      obtain ⟨g, hg, kg⟩ := su.frame here
      have below (outer : Nat) (around : k.enclosing = some outer) : outer < i :=
        sound.enclosing i k outer here around
      exact ⟨f, g, hf, hg, h.frame_alike sound seen here kf kg,
        fun outer around => below outer (kf.enclosing.trans around),
        fun outer around => below outer (kg.enclosing.trans around)⟩
    · rintro k l ⟨rfl, given⟩
      exact ⟨given.trans_eq st.serials, given.trans_eq su.serials⟩
  exact ⟨⟨alike, fun _ _ paired => paired.1, fun _ _ paired => paired.1, same.opened_eq,
    same.serials⟩, same⟩

end Store.Unmentioned

theorem executionEnds_eq {p : Pairing} {s t : Store} (h : s.InStepBut x p t)
    {out out' : Except MacroError (Option Value)} (ends : ExecutionEnds (.besides x) p out out') :
    out = out' := by
  cases out <;> cases out'
  case ok.ok => exact congrArg Except.ok (eq_of_optionRel h.eq ends)
  case error.error =>
    cases ends with
    | arity names | noValue names => rw [names.1]
    | noQuotation names given => rw [names.1, h.eq _ _ given]
  all_goals exact ends.elim

/-- What a program comes to in one of two such stores, it comes to in the other. -/
theorem Store.Unmentioned.execute {s t u t' : Store} (h : s.Unmentioned x) (sound : s.Sound)
    (st : s.SameBut x t) (su : s.SameBut x u) {program : Program} (names : x ∉ program.names)
    {depth : Nat} {out : Except MacroError (Option Value)}
    (ran : program.execute depth t = some (out, t')) :
    ∃ u', program.execute depth u = some (out, u') ∧ t'.SameBut x u' := by
  have whole : BlockAlike (.besides x) program program := .besides program names
  have mirrors := Program.execute_mirrors (Store.InStepBut.likeness x) (Nat.le_refl depth)
    (p := .reached s) ⟨rfl, .globals⟩ whole
  obtain ⟨out', u', q, ran', _, inStep, ends⟩ :=
    mirrors t u (h.inStepBut sound st su) out t' ran
  obtain rfl := executionEnds_eq inStep ends
  exact ⟨u', ran', inStep.sameBut⟩

/-- Bindings that nothing mentions do not matter. In a store that runs lead to, let a name be bound
to any value in the global frame, a macro or anything else, while neither the program of a source
nor any syntax that can be reached from the global frame has the name in it. Up to any depth, a run
of the source then comes to a result exactly if it does without that binding; it is rejected alike
or gives the same, and every frame binds the same to all other names. -/
theorem run_unmentioned {s : Store} (runs : Reachable s) {source : String}
    (absent : ∀ program, Program.ofSource source = .ok program → x ∉ Program.names program)
    (unmentioned : s.Unmentioned x) (v : Value) (depth : Nat) :
    Option.Rel (fun (out, t) (out', u) => out = out' ∧ t.SameBut x u)
      (run depth source s) (run depth source (s.insert globals x v)) := by
  have same : s.SameBut x (s.insert globals x v) := .insert_left s globals v
  cases read : Program.ofSource source with
  | error rejection =>
    rw [run_of_unreadable read, run_of_unreadable read]
    exact .some ⟨rfl, same⟩
  | ok program =>
    rw [run_of_execute read, run_of_execute read]
    have names := absent program read
    cases ran : program.execute depth s with
    | some result =>
      obtain ⟨u, ran', differ⟩ := unmentioned.execute runs.sound (.refl s) same names ran
      rw [ran']
      exact .some ⟨rfl, differ⟩
    | none =>
      cases ran' : program.execute depth (s.insert globals x v) with
      | none => exact .none
      | some result =>
        obtain ⟨t, came, _⟩ := unmentioned.execute runs.sound same (.refl s) names ran'
        cases ran.symm.trans came

end

/-- A function that gives a function that reads its parameter. -/
def holding : Closure := ⟨["y"], [.expr (.routine .function [] [.expr (.name "y")])], 0⟩

/-- What `let f = fn(y) { fn() { y } }` leaves. -/
def holdingStore : Store := ⟨#[⟨[("f", .routine .function 0 holding)], none⟩], 1⟩

/-- A source that defines a macro, calls it and binds what comes of that. -/
def calling : String := "let n = macro(a) \x7b quote(unquote(a) + 1) \x7d; let g = f(n(2)); g()"

/-- What is bound to `m` is a macro that mentions `m`. The source does not, so it comes to the same
as without. -/
theorem run_unmentioned_holding :
    Reachable holdingStore ∧ holdingStore.Unmentioned "m" ∧
    ∃ t u, run 7 calling holdingStore = some (.ok (some (.int 3)), t) ∧
      run 7 calling (holdingStore.insert globals "m"
        (.routine .transformer 0 ⟨[], [.expr (.name "m")], 0⟩)) =
          some (.ok (some (.int 3)), u) ∧
      t.SameBut "m" u := by
  have reached : Reachable holdingStore := by
    have ran : (run 5 "let f = fn(y) \x7b fn() \x7b y \x7d \x7d" .initial).map
        (fun r => (r.1.toOption, r.2)) = some (some none, holdingStore) := by
      decide +kernel
    exact .run .initial (run_of_toOption ran)
  have unmentioned : holdingStore.Unmentioned "m" := by
    intro i f name v _ here bound
    obtain rfl : i = 0 := Nat.lt_one_iff.mp (Array.getElem?_eq_some_iff.mp here).1
    cases here
    have only : (name, v) ∈ [("f", Value.routine .function 0 holding)] :=
      Frame.mem_of_find? bound
    obtain ⟨rfl, rfl⟩ := Prod.mk.inj (List.mem_singleton.mp only)
    change ¬ "m" ∈ blockNames holding.body
    decide
  have absent : ∀ program, Program.ofSource calling = .ok program →
      "m" ∉ Program.names program := by
    intro program read
    have names : (Program.ofSource calling).toOption.map (fun p => decide ("m" ∈ Program.names p)) =
        some false := by
      decide +kernel
    rw [read] at names
    exact of_decide_eq_false (Option.some.inj names)
  have given : (run 7 calling holdingStore).map (fun r => r.1.toOption) =
      some (some (some (.int 3))) := by
    decide +kernel
  obtain ⟨⟨out, t⟩, ran, same⟩ := Option.map_eq_some_iff.mp given
  obtain rfl : out = .ok (some (.int 3)) := eq_ok_of_toOption same
  have both := run_unmentioned reached absent unmentioned
    (.routine .transformer 0 ⟨[], [.expr (.name "m")], 0⟩) 7
  rw [ran] at both
  generalize there : run 7 calling _ = ran' at both
  cases both with
  | @some _ result related =>
    obtain ⟨out', u⟩ := result
    obtain ⟨rfl, differ⟩ := related
    exact ⟨reached, unmentioned, t, u, ran, rfl, differ⟩

end Quasiquote
