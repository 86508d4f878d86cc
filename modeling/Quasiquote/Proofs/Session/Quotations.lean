import Quasiquote.Proofs.Evaluation.Invariant
import Quasiquote.Proofs.Likeness.Unmentioned
import Quasiquote.Proofs.Quotation.Unquoting

/-!
# Quotations that a session keeps

The frames in which macros are evaluated bind the syntax of their arguments as it stands, with calls
of `unquote` in it. Nothing that a session can get at leads to these frames.

* `Value.Spliced`: a value leads to no hidden frame, and no `unquote` is left in the syntax that it
  quotes. `Store.Spliced`: that is so of whatever other frames bind.
* `Store.spliced_invariant`: evaluation in such a frame keeps this up.
* `Session.run_spliced`: a run hides the frames that its expansion opened, and no others.
* `quotations_spliced`: so no quotation that a session can get at has an `unquote` left in it.
-/

namespace Quasiquote

open Eval Session Store

/-- The value leads to no hidden frame, and no `unquote` is left in what it quotes. -/
def Value.Spliced (hidden : Nat → Prop) : Value → Prop
  | .routine _ _ closure => ¬ hidden closure.frame
  | .quotation _ node => node.everywhere .noUnquote
  | .returned inner => inner.Spliced hidden
  | _ => True

/-- Frames that are not hidden are inside of such frames, and bind such values. -/
structure Store.Spliced (hidden : Nat → Prop) (s : Store) : Prop where
  opened : ∀ i, hidden i → i < s.frames.size
  enclosing : ∀ (i : Nat) (f : Frame) (outer : Nat), ¬ hidden i → s.frames[i]? = some f →
    f.enclosing = some outer → ¬ hidden outer
  bindings : ∀ (i : Nat) (f : Frame) (name : String) (v : Value), ¬ hidden i →
    s.frames[i]? = some f → (name, v) ∈ f.bindings → v.Spliced hidden

section
variable {hidden : Nat → Prop} {s t : Store}

theorem Value.spliced_of_isPlain {v : Value} (h : v.isPlain) : v.Spliced hidden := by
  cases v with
  | int | bool | null | fault => trivial
  | _ => cases h

theorem Value.Spliced.fits {v : Value} (h : v.Spliced hidden) :
    v.Fits (fun v _ => v.Spliced hidden) (fun v _ => v.Spliced hidden) s :=
  ⟨fun _ => h, fun _ => h⟩

theorem Value.Spliced.unwrapped {v : Value} (h : v.Spliced hidden) :
    v.unwrapped.Spliced hidden := by
  cases v <;> exact h

theorem Value.Spliced.syntax? {v : Value} {node : Expr} (h : v.Spliced hidden)
    (stands : v.syntax? = some node) : node.everywhere .noUnquote := by
  cases v with
  | int n =>
    cases stands
    rfl
  | bool b =>
    cases stands
    rfl
  | quotation serial node' =>
    cases stands
    exact h
  | _ => cases stands

theorem Expr.noUnquote_of_parts {e : Expr}
    (other : ∀ callee arg, e = .call callee [arg] → callee.name? ≠ some "unquote")
    (parts : ∀ part ∈ e.parts, part.everywhere .noUnquote) : e.everywhere .noUnquote := by
  refine (Expr.everywhere_iff e).mpr ⟨?_, parts⟩
  split
  · next callee arg => simpa using other callee arg rfl
  · rfl

namespace Store.Spliced

theorem find? (h : s.Spliced hidden) {frame : Nat} {name : String} {v : Value}
    (seen : ¬ hidden frame) (found : s.find? frame name = some v) : v.Spliced hidden := by
  induction frame using Nat.strongRecOn with
  | ind frame ih =>
    cases here : s.frames[frame]? with
    | none =>
      rw [Store.find?, here] at found
      cases found
    | some f =>
      rw [find?_eq here] at found
      cases bound : f.find? name with
      | some w =>
        rw [bound] at found
        cases found
        exact h.bindings frame f name v seen here (Frame.mem_of_find? bound)
      | none =>
        rw [bound, Option.none_or] at found
        obtain ⟨outer, around, found⟩ := Option.bind_eq_some_iff.mp found
        split at found
        · next below => exact ih outer below (h.enclosing frame f outer seen here around) found
        · cases found

theorem openFrame (h : s.Spliced hidden) {closure : Closure} {args : List Value}
    (captured : ¬ hidden closure.frame) (given : ∀ v ∈ args, v.Spliced hidden) :
    (s.openFrame (closure.callFrame args)).Spliced hidden := by
  constructor
  · intro i hi
    simpa [Store.openFrame] using Nat.lt_succ_of_lt (h.opened i hi)
  · intro i g outer seen hg around
    obtain old | ⟨_, rfl⟩ := frame_of_openFrame hg
    · exact h.enclosing i g outer seen old around
    · obtain rfl : closure.frame = outer := by simpa using around
      exact captured
  · intro i g name v seen hg bound
    obtain old | ⟨_, rfl⟩ := frame_of_openFrame hg
    · exact h.bindings i g name v seen old bound
    · exact given v (Closure.mem_callFrame bound)

theorem insert (h : s.Spliced hidden) (frame : Nat) (name : String) {v : Value}
    (given : v.Spliced hidden) : (s.insert frame name v).Spliced hidden := by
  constructor
  · intro i hi
    simpa [Store.insert] using h.opened i hi
  · intro i g outer seen hg around
    obtain ⟨f, hf, rfl | rfl⟩ := frame_of_insert hg
    · exact h.enclosing i g outer seen hf around
    · exact h.enclosing i f outer seen hf around
  · intro i g other w seen hg bound
    obtain ⟨f, hf, rfl | rfl⟩ := frame_of_insert hg
    · exact h.bindings i g other w seen hf bound
    · rcases Frame.mem_insert bound with rfl | old
      · exact given
      · exact h.bindings i f other w seen hf old

theorem newSerial (h : s.Spliced hidden) :
    Store.Spliced hidden { s with serials := s.serials + 1 } :=
  ⟨h.opened, h.enclosing, h.bindings⟩

end Store.Spliced

/-- A later store, in which frames that are not hidden still bind such values. -/
def Store.StaysSpliced (hidden : Nat → Prop) (s t : Store) : Prop :=
  s.Spliced hidden → t.Spliced hidden

instance : IsPreorder Store (Store.StaysSpliced hidden) where
  refl _ h := h
  trans _ _ _ st tu h := tu (st h)

theorem Store.spliced_invariant (hidden : Nat → Prop) :
    Eval.Invariant (fun _ => StaysSpliced hidden) (StaysSpliced hidden) (Store.Spliced hidden)
      (fun frame s => s.Spliced hidden ∧ ¬ hidden frame) (fun v _ => v.Spliced hidden)
      (fun v _ => v.Spliced hidden) fun node => node.everywhere .noUnquote where
  outside _ step := step
  ready hosts := hosts.1
  hosts hosts step := ⟨step hosts.1, hosts.2⟩
  later spliced _ := spliced
  plain _ plain := (Value.spliced_of_isPlain plain).fits
  wrapped spliced := spliced
  inner spliced := Value.Spliced.fits spliced
  found hosts found := (hosts.1.find? hosts.2 found).fits
  newSerial _ h := h.newSerial
  insert name _ spliced h := h.insert _ name spliced
  enter ready callee args := by
    have inside := ready.openFrame callee args
    exact ⟨⟨inside, fun h => (ready.opened _ h).false⟩, fun _ step _ => step inside⟩
  routine _ _ hosts := hosts.2
  quotation pass := pass
  spliced given stands := given.elim (fun h => h.syntax? stands) fun h => h.syntax? stands
  kept other parts := Expr.noUnquote_of_parts other parts

theorem Program.eval_spliced (depth : Nat) (program : Program) {frame : Nat}
    (h : s.Spliced hidden) (seen : ¬ hidden frame) :
    (program.eval depth frame).Gives (StaysSpliced hidden)
      (fun given _ => ∀ v ∈ given, v.Spliced hidden) s := by
  have block := (spliced_invariant hidden).block_eval depth program ⟨h, seen⟩
  refine Gives.bind block.settled? fun given t _ spliced => .pure ?_
  intro v hv
  obtain ⟨w, rfl, rfl⟩ := Option.map_eq_some_iff.mp hv
  exact (or_self_iff.mp (spliced w rfl)).unwrapped

/-! ## Runs -/

theorem Store.Spliced.bindMacro (h : s.Spliced hidden) {frame : Nat} (seen : ¬ hidden frame)
    (st : Stmt) : (s.bindMacro frame st).Spliced hidden := by
  unfold Store.bindMacro
  split
  · exact h.newSerial.insert _ _ seen
  · exact h

theorem Store.Spliced.bindMacros (h : s.Spliced hidden) {frame : Nat} (seen : ¬ hidden frame)
    (program : Program) : (s.bindMacros frame program).Spliced hidden := by
  induction program generalizing s with
  | nil => exact h
  | cons st rest ih => exact ih (h.bindMacro seen st)

theorem Value.Spliced.hideMore {v : Value} (h : v.Spliced hidden) (within : v.Within s)
    {more : Nat → Prop} (new : ∀ i, more i → s.frames.size ≤ i) :
    v.Spliced fun i => hidden i ∨ more i := by
  induction v with
  | routine role serial closure =>
    rintro (old | later)
    · exact h old
    · exact (new _ later).not_gt within.2
  | returned inner ih => exact ih h within
  | quotation => exact h
  | _ => trivial

/-- Frames that were opened since may be hidden too. -/
theorem Store.Spliced.hideNew (h : s.Spliced hidden) (closed : s.Closed) (kept : s.Retains t) :
    t.Spliced fun i => hidden i ∨ s.frames.size ≤ i ∧ i < t.frames.size := by
  have old (i : Nat) (g : Frame) (seen : ¬ (hidden i ∨ s.frames.size ≤ i ∧ i < t.frames.size))
      (hg : t.frames[i]? = some g) : ¬ hidden i ∧ s.frames[i]? = some g := by
    obtain ⟨unhidden, opened⟩ := not_or.mp seen
    have present : i < t.frames.size := (Array.getElem?_eq_some_iff.mp hg).1
    have before : i < s.frames.size := by omega
    have here : s.frames[i]? = some s.frames[i] := Array.getElem?_eq_getElem before
    obtain rfl := Option.some.inj ((kept i _ here).symm.trans hg)
    exact ⟨unhidden, here⟩
  constructor
  · rintro i (hi | new)
    · have opened := h.opened i hi
      have here : s.frames[i]? = some s.frames[i] := Array.getElem?_eq_getElem opened
      exact (Array.getElem?_eq_some_iff.mp (kept i _ here)).1
    · exact new.2
  · intro i g outer seen hg around
    obtain ⟨unhidden, here⟩ := old i g seen hg
    have present : i < s.frames.size := (Array.getElem?_eq_some_iff.mp here).1
    have below := closed.enclosing i g outer here around
    rintro (hi | new)
    · exact h.enclosing i g outer unhidden here around hi
    · omega
  · intro i g name v seen hg bound
    obtain ⟨unhidden, here⟩ := old i g seen hg
    exact (h.bindings i g name v unhidden here bound).hideMore
      (closed.bindings i g name v here bound) fun _ new => new.1

/-- A run hides the frames that its expansion opened, and those that were hidden before. What it
gives leads to none of them. -/
theorem Session.run_spliced {depth : Nat} {source : String}
    {out : Except Rejection (Option Value)} (sound : s.Sound) (h : s.Spliced hidden)
    (seen : ¬ hidden globals) (run : Session.run depth source s = some (out, t)) :
    ∃ hidden' : Nat → Prop, ¬ hidden' globals ∧ t.Spliced hidden' ∧
      ∀ v, out = .ok (some v) → v.Spliced hidden' := by
  cases read : Program.ofSource source with
  | error rejection =>
    rw [run_of_unreadable read] at run
    cases run
    exact ⟨hidden, seen, h, nofun⟩
  | ok program =>
    have defined := h.bindMacros seen program
    have ready : (s.bindMacros globals program).Sound :=
      (bindMacros_advances program sound).sound sound
    have outside (u : Store) : ¬ (hidden globals ∨
        (s.bindMacros globals program).frames.size ≤ globals ∧ globals < u.frames.size) := by
      have opened := ready.opened
      rintro (old | new)
      · exact seen old
      · omega
    rw [run_of_program read] at run
    split at run
    · cases run
    · next expansion =>
      cases run
      have kept := Program.expand_retains _ _ _ _ _ _ expansion
      exact ⟨_, outside t, defined.hideNew ready.closed kept, nofun⟩
    · next expanded u expansion =>
      obtain ⟨⟨given, u'⟩, evaluated, same⟩ := Option.map_eq_some_iff.mp run
      cases same
      have kept := Program.expand_retains _ _ _ _ _ _ expansion
      have hosts := defined.hideNew ready.closed kept
      obtain ⟨step, good⟩ := Program.eval_spliced depth expanded hosts (outside u) given t evaluated
      refine ⟨_, outside u, step hosts, ?_⟩
      intro v hv
      exact good v (Except.ok.inj hv)

/-- Some frames of a store that runs lead to are hidden, and the global one is none of them. -/
theorem Session.Reachable.spliced (reached : Reachable s) :
    ∃ hidden : Nat → Prop, ¬ hidden globals ∧ s.Spliced hidden := by
  induction reached with
  | initial =>
    refine ⟨fun _ => False, id, ?_, ?_, ?_⟩
    · exact fun _ none => none.elim
    · intro i f outer _ here around
      obtain ⟨rfl, rfl⟩ := eq_of_initial here
      cases around
    · intro i f name v _ here bound
      obtain ⟨rfl, rfl⟩ := eq_of_initial here
      cases bound
  | run before run ih =>
    obtain ⟨hidden, seen, h⟩ := ih
    obtain ⟨hidden', seen', h', _⟩ := run_spliced before.sound h seen run
    exact ⟨hidden', seen', h'⟩

theorem Store.Spliced.not_hidden (h : s.Spliced hidden) (seen : ¬ hidden globals) {i : Nat}
    (sees : s.Sees i) : ¬ hidden i := by
  induction sees with
  | globals => exact seen
  | @outward i outer f _ here around ih => exact h.enclosing i f outer ih here around
  | @captured i f name role serial closure _ here bound ih =>
    exact h.bindings i f name _ ih here (Frame.mem_of_find? bound)

end

/-- No `unquote` is left in what a session quotes. In the store that any runs lead to, no quotation
bound in a frame that can be reached from the global one has a call of `unquote` with one argument
anywhere in its syntax, and neither has a quotation that a run from there gives. -/
theorem quotations_spliced {s : Store} (reached : Reachable s) :
    (∀ (i : Nat) (f : Frame) (name : String) (serial : Nat) (node : Expr), s.Sees i →
      s.frames[i]? = some f → (name, .quotation serial node) ∈ f.bindings →
      node.everywhere .noUnquote) ∧
    ∀ depth source serial node t,
      Session.run depth source s = some (.ok (some (.quotation serial node)), t) →
      node.everywhere .noUnquote := by
  obtain ⟨hidden, seen, h⟩ := reached.spliced
  constructor
  · intro i f name serial node sees here bound
    exact h.bindings i f name _ (h.not_hidden seen sees) here bound
  · intro depth source serial node t run
    obtain ⟨hidden', _, _, good⟩ := run_spliced reached.sound h seen run
    exact good _ rfl

/-- A macro that expands to a quotation of its argument. -/
def requoting : Closure := ⟨["a"], [.expr (.call (.name "quote") [.call (.name "quote")
  [.call (.name "unquote") [.name "a"]]])], 0⟩

/-- What `let m = macro(a) { quote(quote(unquote(a))) }; let q = m(unquote(7))` leaves. The second
frame is the one that the macro was evaluated in. -/
def requotingStore : Store :=
  ⟨#[⟨[("q", .quotation 3 (.int 7)), ("m", .routine .transformer 0 requoting)], none⟩,
    ⟨[("a", .quotation 1 (.call (.name "unquote") [.int 7]))], some 0⟩], 4⟩

/-- The macro's frame binds an `unquote` as it stands. What is bound to `q` has none, nor has what
another run makes of it. -/
theorem quotations_spliced_requoting :
    Session.Reachable requotingStore ∧
    (∃ f, requotingStore.frames[1]? = some f ∧
      ("a", .quotation 1 (.call (.name "unquote") [.int 7])) ∈ f.bindings ∧
      ¬ (Expr.call (.name "unquote") [.int 7]).everywhere .noUnquote) ∧
    (∃ f, requotingStore.Sees globals ∧ requotingStore.frames[globals]? = some f ∧
      ("q", .quotation 3 (.int 7)) ∈ f.bindings ∧ (Expr.int 7).everywhere .noUnquote) ∧
    ∃ node t,
      Session.run 6 "quote(unquote(q) + 1)" requotingStore =
        some (.ok (some (.quotation 4 node)), t) ∧
      node.everywhere .noUnquote := by
  have reached : Session.Reachable requotingStore := by
    have ran : (Session.run 6
        "let m = macro(a) \x7b quote(quote(unquote(a))) \x7d; let q = m(unquote(7))"
        .initial).map (fun r => (r.1.toOption, r.2)) = some (some none, requotingStore) := by
      decide +kernel
    exact .run .initial (run_of_toOption ran)
  have ran : (Session.run 6 "quote(unquote(q) + 1)" requotingStore).map
      (fun r => (r.1.toOption, r.2)) =
      some (some (some (.quotation 4 (.binary (.int 7) .add (.int 1)))),
        { requotingStore with serials := 5 }) := by
    decide +kernel
  obtain ⟨kept, given⟩ := quotations_spliced reached
  refine ⟨reached, ⟨_, rfl, List.mem_singleton_self _, by decide⟩, ?_, ?_⟩
  · exact ⟨_, .globals, rfl, List.mem_cons_self,
      kept _ _ "q" 3 (.int 7) .globals rfl List.mem_cons_self⟩
  · exact ⟨_, _, run_of_toOption ran, given 6 _ 4 _ _ (run_of_toOption ran)⟩

end Quasiquote
