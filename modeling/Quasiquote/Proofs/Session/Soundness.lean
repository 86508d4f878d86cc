import Quasiquote.Proofs.Evaluation.Invariant
import Quasiquote.Proofs.Store.Closed

/-!
# What a session keeps of its store

* `Value.Sound`: a value that may be bound: no signal, and no macro of another frame than the global
  one. `Value.SoundSignal`: a fault, or a sound value on its way out.
* `Store.Sound`: only sound values are bound, and all frames are inside the global one.
* `Expr.eval_sound` and the statements beside it: from a sound store, what is evaluated gives a
  sound value or a sound signal, and leaves a sound store. A call gives no value that is still on
  its way out (`Value.call_sound`).
-/

namespace Quasiquote

/-- What may be bound and operated on. -/
structure Value.Sound (v : Value) (s : Store) : Prop where
  within : v.Within s
  ordinary : v.isSignal = false
  globalMacro : ∀ serial closure, v = .routine .transformer serial closure →
    closure.frame = Session.globals

/-- What may be passed outward. -/
def Value.SoundSignal (v : Value) (s : Store) : Prop :=
  match v with
  | .returned inner => inner.Sound s
  | .fault _ => True
  | _ => False

/-- Only sound values are bound, and only the global frame is inside no other, which all others are
opened after. -/
structure Store.Sound (s : Store) : Prop where
  opened : Session.globals < s.frames.size
  outermost : ∀ (i : Nat) (f : Frame), s.frames[i]? = some f →
    (f.enclosing = none ↔ i = Session.globals)
  enclosing : ∀ (i : Nat) (f : Frame) (outer : Nat), s.frames[i]? = some f →
    f.enclosing = some outer → outer < i
  bindings : ∀ (i : Nat) (f : Frame) (name : String) (v : Value), s.frames[i]? = some f →
    (name, v) ∈ f.bindings → v.Sound s

/-- A later store: more frames and serial numbers may have been given out, and it is sound if the
former was. -/
structure Store.Advances (s t : Store) : Prop where
  frames : s.frames.size ≤ t.frames.size
  serials : s.serials ≤ t.serials
  sound : s.Sound → t.Sound

/-- A sound store with a frame to work in. -/
structure Store.Hosts (frame : Nat) (s : Store) : Prop where
  sound : s.Sound
  opened : frame < s.frames.size

theorem Store.Sound.closed {s : Store} (h : s.Sound) : s.Closed :=
  ⟨h.enclosing, fun i f name v hf bound => (h.bindings i f name v hf bound).within⟩

instance : IsPreorder Store Store.Advances where
  refl _ := ⟨le_rfl, le_rfl, id⟩
  trans _ _ _ st tu := ⟨st.frames.trans tu.frames, st.serials.trans tu.serials, tu.sound ∘ st.sound⟩

namespace Value

section
variable {s t : Store} {v : Value}

theorem Sound.mono (frames : s.frames.size ≤ t.frames.size) (serials : s.serials ≤ t.serials)
    (h : v.Sound s) : v.Sound t :=
  ⟨h.within.mono frames serials, h.ordinary, h.globalMacro⟩

theorem Sound.advance (h : v.Sound s) (st : s.Advances t) : v.Sound t :=
  h.mono st.frames st.serials

theorem sound_int (n : Int64) : (Value.int n).Sound s := ⟨trivial, rfl, nofun⟩

theorem sound_bool (b : Bool) : (Value.bool b).Sound s := ⟨trivial, rfl, nofun⟩

theorem sound_null : Value.null.Sound s := ⟨trivial, rfl, nofun⟩

theorem sound_quotation {serial : Nat} (h : serial < s.serials) (node : Expr) :
    (Value.quotation serial node).Sound s :=
  ⟨h, rfl, nofun⟩

/-- Outside of what it leaves, a value is sound or a fault. -/
theorem unwrapped_sound (h : v.Sound s ∨ v.SoundSignal s) :
    v.unwrapped.Sound s ∨ v.unwrapped.isFault := by
  cases v with
  | returned inner =>
    rcases h with sound | signal
    · cases sound.ordinary
    · exact .inl signal
  | fault cause => exact .inr rfl
  | _ => exact .inl (h.resolve_right id)

end

end Value

namespace Store

variable {s t : Store}

theorem Hosts.advance {frame : Nat} (h : Hosts frame s) (st : s.Advances t) : Hosts frame t :=
  ⟨st.sound h.sound, h.opened.trans_le st.frames⟩

theorem Sound.globals (h : s.Sound) : Hosts Session.globals s := ⟨h, h.opened⟩

theorem eq_of_initial {i : Nat} {f : Frame} (h : initial.frames[i]? = some f) :
    i = Session.globals ∧ f = ⟨[], none⟩ := by
  cases i with
  | zero => exact ⟨rfl, (Option.some.inj h).symm⟩
  | succ i => cases h

theorem sound_initial : initial.Sound where
  opened := by decide
  outermost i f h := by
    obtain ⟨rfl, rfl⟩ := eq_of_initial h
    simp
  enclosing i f outer h inside := by
    obtain ⟨rfl, rfl⟩ := eq_of_initial h
    cases inside
  bindings i f name v h bound := by
    obtain ⟨rfl, rfl⟩ := eq_of_initial h
    cases bound

theorem Sound.find? (h : s.Sound) {frame : Nat} {name : String} {v : Value}
    (found : s.find? frame name = some v) : v.Sound s := by
  obtain ⟨i, f, hf, bound⟩ := find?_mem found
  exact h.bindings i f name v hf bound

theorem advances_newSerial (s : Store) : s.Advances { s with serials := s.serials + 1 } := by
  have grows : s.serials ≤ s.serials + 1 := Nat.le_succ _
  exact ⟨le_rfl, grows, fun h => ⟨h.opened, h.outermost, h.enclosing, fun i f name v hf bound =>
    Value.Sound.mono (s := s) le_rfl grows (h.bindings i f name v hf bound)⟩⟩

theorem advances_openFrame {f : Frame} {outer : Nat} (inside : f.enclosing = some outer)
    (opened : outer < s.frames.size) (sound : ∀ name v, (name, v) ∈ f.bindings → v.Sound s) :
    s.Advances (s.openFrame f) := by
  have grows : s.frames.size ≤ (s.openFrame f).frames.size := by simp [openFrame]
  refine ⟨grows, le_rfl, fun h => ?_⟩
  refine ⟨h.opened.trans_le grows, fun i g hg => ?_, fun i g around hg => ?_,
    fun i g name v hg bound => ?_⟩
  · rcases frame_of_openFrame hg with old | ⟨rfl, rfl⟩
    · exact h.outermost i g old
    · simp [inside, h.opened.ne']
  · rcases frame_of_openFrame hg with old | ⟨rfl, rfl⟩
    · exact h.enclosing i g around old
    · intro eq
      obtain rfl : outer = around := Option.some.inj (inside.symm.trans eq)
      exact opened
  · rcases frame_of_openFrame hg with old | ⟨rfl, rfl⟩
    · exact (h.bindings i g name v old bound).mono grows le_rfl
    · exact (sound name v bound).mono grows le_rfl

theorem advances_insert (frame : Nat) (name : String) {v : Value} (sound : v.Sound s) :
    s.Advances (s.insert frame name v) := by
  have size : (s.insert frame name v).frames.size = s.frames.size := by simp [insert]
  refine ⟨size.ge, le_rfl, fun h => ?_⟩
  refine ⟨size ▸ h.opened, fun i g hg => ?_, fun i g around hg => ?_,
    fun i g other w hg bound => ?_⟩
  · obtain ⟨f, hf, rfl | rfl⟩ := frame_of_insert hg
    · exact h.outermost i g hf
    · exact h.outermost i f hf
  · obtain ⟨f, hf, rfl | rfl⟩ := frame_of_insert hg
    · exact h.enclosing i g around hf
    · exact h.enclosing i f around hf
  · obtain ⟨f, hf, rfl | rfl⟩ := frame_of_insert hg
    · exact (h.bindings i g other w hf bound).mono size.ge le_rfl
    · rcases Frame.mem_insert bound with rfl | old
      · exact sound.mono size.ge le_rfl
      · exact (h.bindings i f other w hf old).mono size.ge le_rfl

theorem advances_callFrame {closure : Closure} {args : List Value}
    (opened : closure.frame < s.frames.size) (sound : ∀ v ∈ args, v.Sound s) :
    s.Advances (s.openFrame (closure.callFrame args)) :=
  advances_openFrame (closure.callFrame_enclosing args) opened fun _ v bound =>
    sound v (Closure.mem_callFrame bound)

end Store

/-! ## Evaluation -/

open Eval Store

theorem Value.fits_of_isPlain {v : Value} (s : Store) (plain : v.isPlain) :
    v.Fits Sound SoundSignal s := by
  cases v with
  | int n => exact ⟨fun _ => sound_int n, nofun⟩
  | bool b => exact ⟨fun _ => sound_bool b, nofun⟩
  | null => exact ⟨fun _ => sound_null, nofun⟩
  | fault cause => exact ⟨nofun, fun _ => trivial⟩
  | _ => cases plain

theorem Value.Sound.fits {v : Value} {s : Store} (h : v.Sound s) : v.Fits Sound SoundSignal s where
  result _ := h
  signal raised := by cases h.ordinary.symm.trans raised

theorem Store.sound_invariant :
    Eval.Invariant (fun _ => Advances) Advances Store.Sound Hosts Value.Sound Value.SoundSignal
      fun _ => True where
  outside _ step := step
  ready hosts := hosts.sound
  hosts hosts step := hosts.advance step
  later sound step := sound.advance step
  plain := Value.fits_of_isPlain
  wrapped sound := sound
  inner sound := Value.Sound.fits sound
  found hosts found := (hosts.sound.find? found).fits
  newSerial := advances_newSerial
  insert name _ sound := advances_insert _ name sound
  enter ready callee args := by
    have step := advances_callFrame callee.within.2 args
    exact ⟨⟨step.sound ready, by simp [openFrame]⟩, fun _ => IsTrans.trans _ _ _ step⟩
  routine _ _ hosts := ⟨⟨Nat.lt_succ_self _, hosts.opened⟩, rfl, nofun⟩
  quotation _ := Value.sound_quotation (Nat.lt_succ_self _) _
  spliced _ _ := trivial
  kept _ _ := trivial

namespace Eval.Gives

variable {s : Store}

theorem newSerial : Eval.newSerial.Gives Advances (fun serial t => serial < t.serials) s :=
  modifyGet s.advances_newSerial (Nat.lt_succ_self _)

theorem callFrame (sound : s.Sound) {closure : Closure} {args : List Value}
    (opened : closure.frame < s.frames.size) (args_sound : ∀ v ∈ args, v.Sound s) :
    (Eval.openFrame (closure.callFrame args)).Gives Advances Hosts s := by
  have step := advances_callFrame opened args_sound
  exact modifyGet step ⟨step.sound sound, by simp [Store.openFrame]⟩

end Eval.Gives

/-- What evaluation gives: a sound value or a sound signal. -/
abbrev Value.SoundEnd : Except Value Value → Store → Prop := Ended Value.Sound Value.SoundSignal

abbrev Value.SoundEnd? : Except Value (Option Value) → Store → Prop :=
  Ended (fun given t => ∀ v ∈ given, v.Sound t) Value.SoundSignal

def Evaluator.Sound (eval : Evaluator) : Prop :=
  ∀ frame e s, Hosts frame s → (eval frame e).run.Gives Advances Value.SoundEnd s

theorem Expr.eval_sound (depth : Nat) : Evaluator.Sound (Expr.eval depth) :=
  sound_invariant.expr_eval depth

section
variable {eval : Evaluator} {frame : Nat} {s : Store}

theorem Stmt.evalWith_sound (sound : eval.Sound) (st : Stmt) (hosts : Hosts frame s) :
    (st.evalWith eval frame).run.Gives Advances Value.SoundEnd? s :=
  sound_invariant.stmt_evalWith sound st hosts

theorem Expr.quoteWith_sound (sound : eval.Sound) (node : Expr) (hosts : Hosts frame s) :
    (node.quoteWith eval frame).run.Gives Advances Value.SoundEnd s :=
  sound_invariant.quoteWith sound node hosts

theorem Block.eval_sound (depth : Nat) (block : Block) (hosts : Hosts frame s) :
    (Block.eval depth frame block).run.Gives Advances Value.SoundEnd? s :=
  sound_invariant.block_eval depth block hosts

/-- A call gives a sound value or a fault. -/
theorem Value.call_sound (depth : Nat) (ready : s.Sound) {callee : Value} (hc : callee.Sound s)
    {args : List Value} (ha : ∀ v ∈ args, v.Sound s) :
    (callee.call depth args).run.Gives Advances (Ended Value.Sound fun v _ => v.isFault) s := by
  have called := sound_invariant.callWith (Expr.eval_sound depth) ready hc ha
  refine called.weakenEnds (fun _ _ _ sound => sound) ?_
  rintro v t _ ⟨signal, wrapped⟩
  cases v with
  | returned inner =>
    have sound : (Value.returned inner).Sound t := wrapped inner rfl
    cases sound.ordinary
  | fault cause => rfl
  | _ => exact signal.elim

theorem Program.eval_sound (depth : Nat) (program : Program) (hosts : Hosts frame s) :
    (Program.eval depth frame program).Gives Advances
      (fun given t => ∀ v ∈ given, v.Sound t ∨ v.isFault) s := by
  refine Gives.bind (Block.eval_sound depth program hosts).settled? fun given t _ hg => .pure ?_
  intro v hv
  obtain ⟨w, rfl, rfl⟩ := Option.map_eq_some_iff.mp hv
  exact Value.unwrapped_sound (hg w rfl)

/-! ## Definition and expansion -/

theorem quoteArgs_sound (args : List Expr) :
    (quoteArgs args).Gives Advances (fun vs t => ∀ v ∈ vs, v.Sound t) s := by
  induction args generalizing s with
  | nil => exact .pure (by simp)
  | cons x rest ih =>
    refine Gives.newSerial.bind fun serial t _ given => ih.bind fun vs u tu hvs => .pure ?_
    have sound := (Value.sound_quotation given x).advance tu
    exact List.forall_mem_cons.mpr ⟨sound, hvs⟩

theorem MacroCall.eval_advances (depth : Nat) {call : MacroCall} (ready : s.Sound)
    (opened : call.closure.frame < s.frames.size) :
    (call.eval depth).Gives Advances (fun _ _ => True) s := by
  refine (quoteArgs_sound call.args).bind fun values t st hvs => ?_
  refine (Gives.callFrame (st.sound ready) (opened.trans_le st.frames) hvs).bind
    fun frame u _ hosts => ?_
  exact (Block.eval_sound depth call.closure.body hosts).settled?.weaken fun _ _ _ _ => trivial

theorem expandNode_advances (frame depth : Nat) :
    RuleGives Advances Store.Sound (fun _ => True) (fun _ _ => True) (expandNode frame depth) := by
  apply RuleGives.expandNode
  · exact fun _ _ sound step => step.sound sound
  · exact fun _ _ _ _ _ => trivial
  · intro depth e s call sound seen
    obtain ⟨_, serial, found⟩ := macroCall?_eq_some seen
    exact call.eval_advances depth sound (sound.find? found).within.2

theorem bindMacro_advances (st : Stmt) (sound : s.Sound) :
    s.Advances (s.bindMacro Session.globals st) := by
  unfold bindMacro
  split
  · have step := s.advances_newSerial
    refine IsTrans.trans s _ _ step (advances_insert _ _ ⟨⟨Nat.lt_succ_self _, ?_⟩, rfl, ?_⟩)
    · exact sound.opened
    · intro serial closure eq
      cases eq
      rfl
  · exact refl s

theorem bindMacros_advances (program : Program) (sound : s.Sound) :
    s.Advances (s.bindMacros Session.globals program) := by
  induction program generalizing s with
  | nil => exact refl s
  | cons st rest ih =>
    have step := bindMacro_advances st sound
    exact IsTrans.trans s _ _ step (ih (step.sound sound))

/-- A run leaves a sound store, and what it gives is a sound value or a fault. -/
theorem Session.run_sound (depth : Nat) (source : String) (sound : s.Sound) :
    (Session.run depth source).run.Gives Advances
      (Ended (fun given t => ∀ v ∈ given, v.Sound t ∨ v.isFault) fun _ _ => True) s := by
  refine Gives.andThen (Q := fun _ t => t.Sound) ?_ fun program t _ ready => ?_
  · cases Program.ofSource source with
    | ok program => exact .ok sound
    | error e => exact .throw trivial
  refine Gives.andThen (Q := fun _ t => t.Sound) ?_ fun expanded u _ hosts =>
    Gives.lift (Program.eval_sound depth expanded hosts.globals)
  refine Gives.adapt (E := fun _ _ => True) ?_ fun _ _ _ => trivial
  have step := bindMacros_advances program ready
  refine Gives.andThen (Q := fun _ u => u.Sound) ?_ fun _ u _ defined => ?_
  · exact Gives.lift (.modifyGet step (step.sound ready))
  · exact (rewriteBlockM_gives (expandNode_advances _ depth) _ u defined).weakenEnds
      (fun _ _ uv _ => uv.sound defined) fun _ _ _ _ => trivial

end

end Quasiquote
