import Quasiquote.Proofs.Expansion.Definition
import Quasiquote.Proofs.Likeness.Execution
import Quasiquote.Proofs.Session.Signals

/-!
# Where macro definitions stand

* `Program.Rearranged`: two programs differ only in where their macro definitions stand.
* `Store.Closed.bindMacros_alike`: such programs define the same macros in a closed store, but for
  the serial numbers that these are given.
* `outcomeText`: what can be read off an execution, of which serial numbers are no part.
* `definitions_exact_anywhere`: what the definitions of a program do, and that the program comes to
  the same wherever they stand.
-/

namespace Quasiquote

open Store Session

/-- Two programs differ only in where their macro definitions stand: the other statements are the
same in the same order, and so are the definitions of each name. -/
structure Program.Rearranged (b c : Program) : Prop where
  others : b.withoutMacros = c.withoutMacros
  definitions : ∀ name, b.definitions name = c.definitions name

section
variable {b c : Program}

theorem Program.Rearranged.symm (h : b.Rearranged c) : c.Rearranged b :=
  ⟨h.others.symm, fun name => (h.definitions name).symm⟩

theorem Program.Rearranged.lastDefinition?_eq (h : b.Rearranged c) (name : String) :
    b.lastDefinition? name = c.lastDefinition? name := by
  rw [Program.lastDefinition?_eq, Program.lastDefinition?_eq, h.definitions name]

/-! ## The same macros under other numbers -/

variable {frame : Nat} {s t u : Store}

/-- What was given out in a store stands for itself, and new macros stand for each other if a frame
binds them to the same name. -/
def Pairing.byName (s : Store) (apart : MacrosApart s.serials frame t)
    (apart' : MacrosApart s.serials frame u) : Pairing where
  __ := Pairing.upTo s
  serials k l := (Pairing.upTo s).serials k l ∨
    ∃ name, t.BindsNew s.serials frame name k ∧ u.BindsNew s.serials frame name l
  -- Old numbers are below `s.serials` and new ones are not, and two new ones share their name.
  serials_unique := by
    constructor
    · rintro i j k (old | ⟨name, new, new'⟩) (old' | ⟨name', other, other'⟩)
      · exact (Pairing.upTo s).serials_unique.1 old old'
      · exact absurd (old.1 ▸ old.2) other'.new.not_gt
      · exact absurd (old'.1 ▸ old'.2) new'.new.not_gt
      · obtain rfl := apart'.apart name name' _ new' other'
        exact new.serial_unique other
    · rintro i j k (old | ⟨name, new, new'⟩) (old' | ⟨name', other, other'⟩)
      · exact (Pairing.upTo s).serials_unique.2 old old'
      · exact absurd old.2 other.new.not_gt
      · exact absurd old'.2 new.new.not_gt
      · obtain rfl := apart.apart name name' _ new other
        exact new'.serial_unique other'

theorem Pairing.le_byName (apart : MacrosApart s.serials frame t)
    (apart' : MacrosApart s.serials frame u) : Pairing.upTo s ≤ Pairing.byName s apart apart' :=
  ⟨le_rfl, fun _ _ => .inl⟩

section
variable (same : ∀ name, b.lastDefinition? name = c.lastDefinition? name) (closed : s.Closed)
variable (only : s.DefinesOnly frame b t) (only' : s.DefinesOnly frame c u)
variable (apart : MacrosApart s.serials frame t) (apart' : MacrosApart s.serials frame u)
include same closed only only'

/-- The frame that macros are defined in is the same but for their numbers. -/
theorem Store.DefinesOnly.frame_alike {f : Frame} (here : s.frames[frame]? = some f) :
    ∃ g g', t.frames[frame]? = some g ∧ u.frames[frame]? = some g' ∧
      g.enclosing = f.enclosing ∧ g'.enclosing = f.enclosing ∧
      g.Alike .same (.byName s apart apart') g' := by
  have itself := (closed.frame_alike here).mono (Pairing.le_byName apart apart')
  obtain ⟨g, hg, around, bound⟩ := only.here f here
  obtain ⟨g', hg', around', bound'⟩ := only'.here f here
  refine ⟨g, g', hg, hg', around, around', ?_, ?_⟩
  · intro name _ eq
    obtain rfl : name = _ := eq
    have binding := bound name
    have binding' := bound' name
    rw [same name] at binding
    cases last : c.lastDefinition? name with
    | none =>
      rw [last] at binding binding'
      rw [binding, binding']
      exact itself.bindings name name rfl
    | some definition =>
      rw [last] at binding binding'
      obtain ⟨k, new, found⟩ := binding
      obtain ⟨l, new', found'⟩ := binding'
      rw [found, found']
      have params := List.forall₂_same.mpr fun param (_ : param ∈ definition.1) =>
        Naming.same.binds_of_pairs rfl
      have opened := (Array.getElem?_eq_some_iff.mp here).1
      refine .some (.routine .transformer ?_ params (.same _) ⟨rfl, opened⟩)
      exact .inr ⟨name, ⟨new, g, _, hg, found⟩, ⟨new', g', _, hg', found'⟩⟩
  · rw [around, around']
    exact itself.enclosing

/-- Stores that programs with the same last definitions leave are alike. -/
theorem Store.DefinesOnly.alike : t.Alike .same (.byName s apart apart') u where
  frames i j paired := by
    obtain ⟨rfl, opened⟩ := paired
    have here : s.frames[i]? = some s.frames[i] := Array.getElem?_eq_getElem opened
    have below (outer : Nat) (around : s.frames[i].enclosing = some outer) : outer < i :=
      closed.enclosing i s.frames[i] outer here around
    by_cases eq : i = frame
    · subst eq
      obtain ⟨g, g', hg, hg', around, around', like⟩ :=
        only.frame_alike same closed only' apart apart' here
      exact ⟨g, g', hg, hg', like, fun outer inside => below outer (around ▸ inside),
        fun outer inside => below outer (around' ▸ inside)⟩
    · exact ⟨_, _, only.others i _ eq here, only'.others i _ eq here,
        (closed.frame_alike here).mono (Pairing.le_byName apart apart'), below, below⟩
  serials k l paired := by
    rcases paired with ⟨rfl, given⟩ | ⟨name, new, new'⟩
    · exact ⟨given.trans_le only.serials, given.trans_le only'.serials⟩
    · exact ⟨apart.given name k new, apart'.given name l new'⟩

end

/-- Programs that differ only in where their macro definitions stand define the same macros, but for
the numbers that these are given. -/
theorem Store.Closed.bindMacros_alike (closed : s.Closed) (h : b.Rearranged c)
    (opened : frame < s.frames.size) :
    ∃ p : Pairing, p.frames frame frame ∧
      (s.bindMacros frame b).Alike .same p (s.bindMacros frame c) := by
  have apart := (closed.macrosApart frame).bindMacros b
  have apart' := (closed.macrosApart frame).bindMacros c
  refine ⟨.byName s apart apart', ⟨rfl, opened⟩, ?_⟩
  exact (bindMacros_definesOnly frame s b).alike h.lastDefinition?_eq closed
    (bindMacros_definesOnly frame s c) apart apart'

/-! ## The same executions -/

/-- What can be read off an execution: the text of what it gives, if anything, or the message of the
error that it is rejected with. -/
def outcomeText : Except MacroError (Option Value) → Except String (Option String)
  | .ok given => .ok (given.map Value.text)
  | .error e => .error (Rejection.expansion e).message

theorem ExecutionEnds.outcomeText_eq {p : Pairing} {out out' : Except MacroError (Option Value)}
    (h : ExecutionEnds .same p out out') : outcomeText out = outcomeText out' := by
  cases out <;> cases out'
  case ok.ok =>
    cases h with
    | none => rfl
    | some like => simp only [outcomeText, Option.map_some, like.text_eq]
  case error.error =>
    have message := MacroError.Alike.message_eq h
    simp only [outcomeText, Rejection.message, message]
  all_goals exact h.elim

section
variable (h : b.Rearranged c) (closed : s.Closed) (opened : globals < s.frames.size)
variable {depth depth' : Nat} {out out' : Except MacroError (Option Value)}
include h closed opened

/-- What a program comes to, a program that differs only in where its macro definitions stand comes
to at the same depth and all greater ones. -/
theorem Program.Rearranged.execute (le : depth ≤ depth')
    (ran : b.execute depth s = some (out, t)) :
    ∃ out' u, c.execute depth' s = some (out', u) ∧ outcomeText out = outcomeText out' := by
  obtain ⟨p, paired, like⟩ := closed.bindMacros_alike h opened
  -- Without their definitions the two are one program, which starts in stores that are alike.
  have rest : BlockAlike .same b.withoutMacros c.withoutMacros := h.others ▸ .same _
  have mirrors := Program.expand_eval_mirrors (Store.Alike.likeness .same) le paired rest
  obtain ⟨out', u, q, ran', _, _, ends⟩ := mirrors _ _ like out t ran
  exact ⟨out', u, ran', ExecutionEnds.outcomeText_eq ends⟩

theorem Program.Rearranged.isSome_of_isSome (ends : (b.execute depth s).isSome) :
    (c.execute depth s).isSome := by
  obtain ⟨⟨out, t⟩, ran⟩ := Option.isSome_iff_exists.mp ends
  obtain ⟨out', u, ran', _⟩ := h.execute closed opened le_rfl ran
  rw [ran']
  rfl

theorem Program.Rearranged.outcomeText_eq (le : depth ≤ depth')
    (ran : b.execute depth s = some (out, t)) (ran' : c.execute depth' s = some (out', u)) :
    outcomeText out = outcomeText out' := by
  obtain ⟨_, _, came, same⟩ := h.execute closed opened le ran
  cases came.symm.trans ran'
  exact same

end

end

/-- The definitions of a program are exact, and may stand anywhere. Exactly the bindings of macro
literals at its top are taken out; all other statements are left as they are, in order. In the frame
that they are defined in, each of their names is bound to a new macro that has the parameters and
the body of its last definition and closes over that frame; nothing else is bound, in that frame or
any other, and no frame is opened. Two programs that differ only in where these definitions stand,
among the other statements and among the definitions of other names, come to a result at the same
depths from every store that runs lead to. Whatever depths they are executed at, the same text is
given, or none by both, or the same error is reported. -/
theorem definitions_exact_anywhere :
    (∀ (program : Program) (frame : Nat) (s : Store),
      (∀ rest, program.Leaves rest ↔ rest = program.withoutMacros) ∧
      s.DefinesOnly frame program (s.bindMacros frame program) ∧
      (s.bindMacros frame program).frames.size = s.frames.size) ∧
    ∀ (b c : Program), b.Rearranged c → ∀ s, Session.Reachable s →
      (∀ depth, (b.execute depth s).isSome = (c.execute depth s).isSome) ∧
      ∀ depth depth' out out' t u, b.execute depth s = some (out, t) →
        c.execute depth' s = some (out', u) → outcomeText out = outcomeText out' := by
  constructor
  · intro program frame s
    exact ⟨fun rest => Program.leaves_iff, bindMacros_definesOnly frame s program,
      bindMacros_opened frame s program⟩
  · intro b c h s reached
    have closed := reached.sound.closed
    have opened := reached.sound.opened
    constructor
    · intro depth
      exact Bool.eq_iff_iff.mpr ⟨h.isSome_of_isSome closed opened,
        h.symm.isSome_of_isSome closed opened⟩
    · intro depth depth' out out' t u ran ran'
      rcases le_total depth depth' with le | le
      · exact h.outcomeText_eq closed opened le ran ran'
      · exact (h.symm.outcomeText_eq closed opened le ran' ran).symm

/-- The statement `let name = macro(params) { quote(node) }`. -/
def templating (name : String) (params : List String) (node : Expr) : Stmt :=
  .bind name (.routine .transformer params [.expr (.call (.name "quote") [node])])

/-- The statement `let sum = macro(x) { quote(unquote(x) + a()) }`. -/
def sumDefinition : Stmt :=
  templating "sum" ["x"]
    (.binary (.call (.name "unquote") [.name "x"]) .add (.call (.name "a") []))

/-- The statement `if (a == sum) { 0 } else { c }`. -/
def toldApart : Stmt :=
  .expr (.cond (.binary (.name "a") .eq (.name "sum")) [.expr (.int 0)] (some [.expr (.name "c")]))

/-- A program with two macros `a`, of which the second counts, and a macro that calls it. The call
`sum(n)` and what tells the macros apart come behind them. -/
def definedAbove : Program :=
  [templating "a" [] (.int 1), sumDefinition, templating "a" [] (.int 2),
    .bind "c" (.call (.name "sum") [.name "n"]), toldApart]

/-- The same program with its definitions between the other statements and behind them. -/
def definedBelow : Program :=
  [.bind "c" (.call (.name "sum") [.name "n"]), sumDefinition, templating "a" [] (.int 1),
    toldApart, templating "a" [] (.int 2)]

/-- What `let n = 40` leaves. -/
def fortyStore : Store := ⟨#[⟨[("n", .int 40)], none⟩], 0⟩

/-- In a store that binds `n`, both programs give `40 + 2`. -/
theorem definitions_exact_anywhere_below :
    Session.Reachable fortyStore ∧ Program.Rearranged definedAbove definedBelow ∧
    ∃ out out' t u, Program.execute 7 definedAbove fortyStore = some (out, t) ∧
      Program.execute 7 definedBelow fortyStore = some (out', u) ∧
      outcomeText out = .ok (some "42") ∧ outcomeText out' = .ok (some "42") := by
  have reached : Session.Reachable fortyStore := by
    have ran : (Session.run 3 "let n = 40" .initial).map (fun r => (r.1.toOption, r.2)) =
        some (some none, fortyStore) := by
      decide +kernel
    exact .run .initial (Session.run_of_toOption ran)
  have rearranged : Program.Rearranged definedAbove definedBelow := by
    refine ⟨rfl, fun name => ?_⟩
    by_cases a : "a" = name
    · subst a
      rfl
    · by_cases sum : "sum" = name
      · subst sum
        rfl
      · simp only [Program.definitions, definedAbove, definedBelow, sumDefinition, toldApart,
          templating, List.filterMap_cons, List.filterMap_nil, Stmt.definition?, if_neg a,
          if_neg sum]
  have given : (Program.execute 7 definedAbove fortyStore).map Prod.fst =
      some (.ok (some (.int 42))) := by
    cbv
  obtain ⟨⟨out, t⟩, ran, eq⟩ := Option.map_eq_some_iff.mp given
  obtain rfl : out = .ok (some (.int 42)) := eq
  have text : outcomeText (.ok (some (.int 42))) = .ok (some "42") := by cbv
  obtain ⟨ends, same⟩ := definitions_exact_anywhere.2 _ _ rearranged fortyStore reached
  have ended := ends 7
  rw [ran] at ended
  obtain ⟨⟨out', u⟩, ran'⟩ := Option.isSome_iff_exists.mp ended.symm
  exact ⟨reached, rearranged, _, out', t, u, ran, ran', text,
    (same 7 7 _ _ _ _ ran ran').symm.trans text⟩

end Quasiquote
