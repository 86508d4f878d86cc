import Quasiquote.Proofs.Evaluation.Outcome
import Quasiquote.Proofs.Expansion.Completeness
import Quasiquote.Proofs.Expansion.Definition
import Quasiquote.Proofs.Reading.Sequence
import Quasiquote.Proofs.Session.Running
import Quasiquote.Proofs.Session.Signals
import Quasiquote.Proofs.Source.Seam

/-!
# Running a source line by line

* `Session.KeptApart`: no token of a source goes on with what stands in another one before it.
* `Program.ofSource_newline`: sources that are kept apart have one program together, a line end
  between them.
* `Session.run_of_plain`: a source without macros and macro calls is only evaluated.
* `run_line_by_line`: running two sources as one is running one after the other.
-/

namespace Quasiquote

open Eval Store

/-- No token of the second source goes on with what stands in the first. -/
def Session.KeptApart (first rest : String) : Prop :=
  ∃ tokens last others end', Token.ofText first = .ok (tokens ++ [last]) ∧
    Token.ofText rest = .ok (others ++ [end']) ∧
    Terminal.KeptApart (tokens.map Token.terminal) (others.map Token.terminal)

/-! ## Reading -/

theorem Program.ofSource_eq_ok_iff {source : String} {p : Program} :
    Program.ofSource source = .ok p ↔
      ∃ tokens, Token.ofText source = .ok tokens ∧ Program.ofTokens tokens = .ok p := by
  unfold Program.ofSource
  cases Token.ofText source with
  | error e => simp
  | ok tokens =>
    cases parsed : Program.ofTokens tokens <;> simp [Except.mapError, parsed]

theorem Program.ofTokens_eq_ok_iff {body : List Token} {last : Token} {p : Program}
    (only : ∀ t ∈ body, t.kind ≠ .eof) (ends : last.kind = .eof) :
    Program.ofTokens (body ++ [last]) = .ok p ↔ Reading.Spells (body.map Token.terminal) p := by
  unfold Program.ofTokens Reading.Spells Reading.Leads
  rw [Reading.run_eq_ok_iff only ends]
  simp only [Reading.finish_eq_ok_iff]

/-- The tokens of a source, of which only the last is an end. -/
theorem Token.only_of_ofText {source : String} {body : List Token} {last : Token}
    (scanned : Token.ofText source = .ok (body ++ [last])) :
    (∀ t ∈ body, t.kind ≠ .eof) ∧ last.kind = .eof := by
  obtain ⟨body', last', eq, ends, proper⟩ := Token.ofText_proper scanned
  obtain ⟨rfl, same⟩ := List.append_inj' eq rfl
  obtain rfl := List.singleton_inj.mp same
  refine ⟨fun t inside eof => ?_, ends⟩
  have improper := proper t inside
  rw [Token.terminal, eof] at improper
  cases improper

/-- Sources that are kept apart, a line end between them, have the statements of the first and then
those of the second. -/
theorem Program.ofSource_newline {first rest : String} {p p' : Program}
    (read : Program.ofSource first = .ok p) (behind : Program.ofSource rest = .ok p')
    (apart : Session.KeptApart first rest) :
    Program.ofSource (first ++ "\n" ++ rest) = .ok (p ++ p') := by
  obtain ⟨tokens, last, others, end', scanned, scanned', apart⟩ := apart
  obtain ⟨only, ends⟩ := Token.only_of_ofText scanned
  obtain ⟨only', ends'⟩ := Token.only_of_ofText scanned'
  rw [Program.ofSource_eq_ok_iff] at read behind ⊢
  obtain ⟨_, same, parsed⟩ := read
  obtain ⟨_, same', parsed'⟩ := behind
  cases scanned.symm.trans same
  cases scanned'.symm.trans same'
  rw [Program.ofTokens_eq_ok_iff only ends] at parsed
  rw [Program.ofTokens_eq_ok_iff only' ends'] at parsed'
  have joint := parsed.append parsed' apart
  let lines := first.toList.count '\n' + 1
  refine ⟨_, Token.ofText_newline scanned scanned', ?_⟩
  have split : tokens ++ (others ++ [end']).map (Token.below lines) =
      (tokens ++ others.map (Token.below lines)) ++ [end'.below lines] := by simp
  rw [split, Program.ofTokens_eq_ok_iff]
  · simpa [Function.comp_def] using joint
  · intro t inside
    rcases List.mem_append.mp inside with inside | inside
    · exact only t inside
    · obtain ⟨u, member, rfl⟩ := List.mem_map.mp inside
      exact only' u member
  · exact ends'

/-! ## Evaluation -/

theorem Session.run_of_plain {source : String} {program : Program} {s : Store}
    (read : Program.ofSource source = .ok program) (plain : program.withoutMacros = program)
    (opened : globals < s.frames.size) (free : program.everywhere (s.noMacroCall globals))
    (depth : Nat) :
    run (depth + 1) source s = (program.eval (depth + 1) globals s).map fun (given, t) =>
      (.ok given, t) := by
  have kept := Program.expand_eq_self opened free depth (refl s)
  rw [run_of_program read, plain, bindMacros_eq_self plain, kept]

/-- Behind statements that give no signal, a program gives what it gives on its own, or what was
given before if it has no statement. -/
theorem Block.eval_append {depth frame : Nat} {first rest : Block} {given : Option Value}
    {s t : Store} (passed : Block.eval depth frame first s = some (.ok given, t)) :
    Block.eval depth frame (first ++ rest) s =
      if rest.isEmpty then some (.ok given, t) else Block.eval depth frame rest t := by
  have joint : Block.eval depth frame (first ++ rest) s =
      Block.evalFrom (Expr.eval depth) frame given rest t := by
    rw [Block.eval, Block.evalWith, Block.evalFrom_append]
    exact andThen_of_ok passed
  rw [joint]
  cases rest <;> rfl

theorem Program.eval_congr {depth frame : Nat} {program program' : Program} {s t : Store}
    (same : Block.eval depth frame program s = Block.eval depth frame program' t) :
    program.eval depth frame s = program'.eval depth frame t := by
  have runs : (Block.eval depth frame program).run s = (Block.eval depth frame program').run t :=
    same
  unfold Program.eval Signalling.settled?
  rw [Eval.bind_apply, Eval.bind_apply, Eval.bind_apply, Eval.bind_apply, runs]

theorem Program.eval_of_ok {depth frame : Nat} {program : Program} {given : Option Value}
    {s t : Store} (passed : Block.eval depth frame program s = some (.ok given, t)) :
    program.eval depth frame s = some (given.map Value.unwrapped, t) := by
  have run : (Block.eval depth frame program).run s = some (.ok given, t) := passed
  unfold Program.eval Signalling.settled?
  rw [Eval.bind_apply, Eval.bind_apply, run]
  rfl

/-- Where a frame sees no macro, there is no macro call. -/
theorem Store.everywhere_noMacroCall {s : Store} {frame : Nat}
    (noMacro : ∀ name v, s.find? frame name = some v → v.isMacro = false) (program : Program) :
    program.everywhere (s.noMacroCall frame) := by
  refine Program.everywhere_of_forall (fun e => ?_) program
  cases called : e.calledName? with
  | none => rfl
  | some name =>
    cases found : s.find? frame name with
    | none => simp [found]
    | some v => simp [found, noMacro name v found]

section
variable {first rest : String} {p p' : Program} {s t : Store}
variable (read : Program.ofSource first = .ok p) (plain : p.withoutMacros = p)
variable (behind : Program.ofSource rest = .ok p') (plain' : p'.withoutMacros = p')
variable (apart : Session.KeptApart first rest)
variable (free : p'.everywhere (t.noMacroCall Session.globals))
include read plain behind plain' apart free

/-- At a depth at which the first part gets through, running both parts as one comes to what running
the second one comes to. -/
theorem Session.run_newline (reached : Reachable s) (later : Reachable t)
    (noMacro : ∀ name v, s.find? globals name = some v → v.isMacro = false)
    {depth : Nat} {given : Option Value}
    (passed : Block.eval (depth + 1) globals p s = some (.ok given, t)) :
    run (depth + 1) (first ++ "\n" ++ rest) s =
      if p'.isEmpty then some (.ok (given.map Value.unwrapped), t)
      else run (depth + 1) rest t := by
  have joint := Program.ofSource_newline read behind apart
  have plainBoth : Program.withoutMacros (p ++ p') = p ++ p' := by
    rw [Program.withoutMacros, List.filter_append]
    exact congrArg₂ (· ++ ·) plain plain'
  have both := run_of_plain joint plainBoth reached.sound.opened
    (everywhere_noMacroCall noMacro _) depth
  have second := run_of_plain behind plain' later.sound.opened free depth
  have evaluated := @Block.eval_append _ _ _ p' _ _ _ passed
  rw [both, second]
  cases p' with
  | nil =>
    rw [Program.eval_of_ok evaluated]
    rfl
  | cons st others =>
    rw [Program.eval_congr evaluated]
    rfl

end

/-- Running a source with two parts is running one part after the other, line by line. It holds for
parts that are kept apart, define no macros and call none, where no statement of the first part
gives a signal. What is given is what the second part gives, or the first if the second has no
statement, and the same store is left. -/
theorem run_line_by_line {first rest : String} {p p' : Program} {s t : Store}
    (reached : Session.Reachable s)
    (noMacro : ∀ name v, s.find? Session.globals name = some v → v.isMacro = false)
    (read : Program.ofSource first = .ok p) (plain : p.withoutMacros = p)
    (behind : Program.ofSource rest = .ok p') (plain' : p'.withoutMacros = p')
    (apart : Session.KeptApart first rest) (passes : Block.Passes Session.globals p s t)
    (free : p'.everywhere (t.noMacroCall Session.globals)) :
    ∃ given, Session.Runs first s (.ok given) t ∧ ∀ out u,
      Session.Runs (first ++ "\n" ++ rest) s out u ↔
        ∃ out', Session.Runs rest t out' u ∧ out = if p'.isEmpty then .ok given else out' := by
  -- The first part comes to the same at every depth from some on.
  obtain ⟨least, passed⟩ := passes.eventually.exists
  obtain ⟨given, passed⟩ := passed none
  have passed (depth : Nat) (le : least ≤ depth) :
      Block.eval (depth + 1) Session.globals p s = some (.ok given, t) :=
    Block.eval_deepens (Nat.le_succ_of_le le) Session.globals p s _ passed
  have alone : Session.Runs first s (.ok (given.map Value.unwrapped)) t := by
    refine ⟨least + 1, ?_⟩
    rw [Session.run_of_plain read plain reached.sound.opened (everywhere_noMacroCall noMacro p),
      Program.eval_of_ok (passed least le_rfl)]
    rfl
  obtain ⟨_, ran⟩ := alone
  have later : Session.Reachable t := reached.run ran
  have joint (depth : Nat) (le : least ≤ depth) := Session.run_newline read plain behind plain'
    apart free reached later noMacro (passed depth le)
  refine ⟨_, ⟨_, ran⟩, fun out u => ⟨fun both => ?_, ?_⟩⟩
  · obtain ⟨depth, le, both⟩ := both.beyond least
    rw [joint depth le] at both
    cases p' with
    | nil =>
      have nothing := Session.run_of_plain behind plain' later.sound.opened free depth
      cases both
      exact ⟨.ok none, ⟨depth + 1, nothing⟩, rfl⟩
    | cons st others => exact ⟨out, ⟨depth + 1, both⟩, rfl⟩
  · rintro ⟨out', second, rfl⟩
    obtain ⟨depth, le, second⟩ := second.beyond least
    refine ⟨depth + 1, ?_⟩
    rw [joint depth le]
    cases p' with
    | nil =>
      have nothing := Session.run_of_plain behind plain' later.sound.opened free depth
      cases nothing.symm.trans second
      rfl
    | cons st others => exact second

/-- What `let x = 2` leaves. -/
def twoStore : Store := ⟨#[⟨[("x", .int 2)], none⟩], 0⟩

/-- Two sources, of which the first ends in a comment and leaves its last statement open. -/
theorem run_line_by_line_comment :
    ∃ given, Session.Runs "let x = 2 x // two" .initial (.ok given) twoStore ∧
      Session.Runs "if (x == 2) { x + 1 }" twoStore (.ok (some (.int 3))) twoStore ∧
      Session.Runs ("let x = 2 x // two" ++ "\n" ++ "if (x == 2) { x + 1 }") .initial
        (.ok (some (.int 3))) twoStore := by
  have noMacro : ∀ name v, Store.initial.find? Session.globals name = some v →
      v.isMacro = false := by
    intro name v found
    have none : Store.initial.find? Session.globals name = none := by
      rw [Session.globals, Store.find?]
      rfl
    cases none.symm.trans found
  have read : Program.ofSource "let x = 2 x // two" =
      .ok [.bind "x" (.int 2), .expr (.name "x")] := Session.eq_ok_of_toOption (by decide +kernel)
  have behind : Program.ofSource "if (x == 2) { x + 1 }" =
      .ok [.expr (.cond (.binary (.name "x") .eq (.int 2))
        [.expr (.binary (.name "x") .add (.int 1))] none)] :=
    Session.eq_ok_of_toOption (by decide +kernel)
  have scanned : Token.ofText "let x = 2 x // two" = .ok
      ([⟨.keyword .letWord, "let", 1⟩, ⟨.identifier, "x", 1⟩, ⟨.mark .equal, "=", 1⟩,
        ⟨.integer 2, "2", 1⟩, ⟨.identifier, "x", 1⟩] ++ [⟨.eof, "", 1⟩]) :=
    Session.eq_ok_of_toOption (by decide +kernel)
  have scanned' : Token.ofText "if (x == 2) { x + 1 }" = .ok
      ([⟨.keyword .ifWord, "if", 1⟩, ⟨.mark .leftParen, "(", 1⟩, ⟨.identifier, "x", 1⟩,
        ⟨.mark .equalEqual, "==", 1⟩, ⟨.integer 2, "2", 1⟩, ⟨.mark .rightParen, ")", 1⟩,
        ⟨.mark .leftBrace, "\x7b", 1⟩, ⟨.identifier, "x", 1⟩, ⟨.mark .plus, "+", 1⟩,
        ⟨.integer 1, "1", 1⟩, ⟨.mark .rightBrace, "\x7d", 1⟩] ++ [⟨.eof, "", 1⟩]) :=
    Session.eq_ok_of_toOption (by decide +kernel)
  have apart : Session.KeptApart "let x = 2 x // two" "if (x == 2) { x + 1 }" :=
    ⟨_, _, _, _, scanned, scanned',
      .inr (.inr (.inr ⟨.keyword .ifWord, rfl, by decide, by decide⟩))⟩
  have passes : Block.Passes Session.globals [.bind "x" (.int 2), .expr (.name "x")] .initial
      twoStore := by
    have first : Stmt.Evaluates Session.globals (.bind "x" (.int 2)) .initial none twoStore :=
      ⟨1, rfl⟩
    have second : Stmt.Evaluates Session.globals (.expr (.name "x")) twoStore (some (.int 2))
      twoStore := ⟨1, by cbv⟩
    exact .cons first (by simp) (.cons second (by simp [Value.isSignal]) .nil)
  have free : Program.everywhere (twoStore.noMacroCall Session.globals)
      [.expr (.cond (.binary (.name "x") .eq (.int 2))
        [.expr (.binary (.name "x") .add (.int 1))] none)] := rfl
  obtain ⟨given, alone, same⟩ := run_line_by_line .initial noMacro read rfl behind rfl apart passes
    free
  have second : Session.Runs "if (x == 2) { x + 1 }" twoStore (.ok (some (.int 3))) twoStore :=
    ⟨4, Session.run_of_toOption (by decide +kernel)⟩
  exact ⟨given, alone, second, (same _ _).mpr ⟨_, second, rfl⟩⟩

/-- What `let m = macro() { quote(1) }; let f = fn(y) { fn() { y } }(m); let m = 1;` leaves: no
macro in the global frame, but one in the frame that `f` closes over. -/
def hidingStore : Store :=
  ⟨#[⟨[("m", .int 1), ("f", .routine .function 2 ⟨[], [.expr (.name "y")], 1⟩)], none⟩,
    ⟨[("y", .routine .transformer 0 ⟨[], [.expr (.call (.name "quote") [.int 1])], 0⟩)], some 0⟩],
    3⟩

/-- What `let k = f();` leaves then: the macro is in the global frame. -/
def unhiddenStore : Store :=
  ⟨#[⟨[("k", .routine .transformer 0 ⟨[], [.expr (.call (.name "quote") [.int 1])], 0⟩),
      ("m", .int 1), ("f", .routine .function 2 ⟨[], [.expr (.name "y")], 1⟩)], none⟩,
    ⟨[("y", .routine .transformer 0 ⟨[], [.expr (.call (.name "quote") [.int 1])], 0⟩)], some 0⟩,
    ⟨[], some 1⟩], 3⟩

/-- A macro that the first part binds is called in the second part, if that runs on its own. In the
whole source, which is expanded before the first part is evaluated, that call is none of a macro. -/
theorem run_line_by_line_hidden :
    ¬ ∀ (first rest : String) (p p' : Program) (s t : Store), Session.Reachable s →
      (∀ name v, s.find? Session.globals name = some v → v.isMacro = false) →
      Program.ofSource first = .ok p → p.withoutMacros = p →
      Program.ofSource rest = .ok p' → p'.withoutMacros = p' →
      Session.KeptApart first rest → Block.Passes Session.globals p s t →
      ∃ given, Session.Runs first s (.ok given) t ∧ ∀ out u,
        Session.Runs (first ++ "\n" ++ rest) s out u ↔
          ∃ out', Session.Runs rest t out' u ∧ out = if p'.isEmpty then .ok given else out' := by
  intro claim
  have setup : Session.run 6
      "let m = macro() { quote(1) }; let f = fn(y) { fn() { y } }(m); let m = 1;" .initial =
      some (.ok none, hidingStore) := Session.run_of_toOption (by decide +kernel)
  have reached : Session.Reachable hidingStore := .run .initial setup
  have noMacro : ∀ name v, hidingStore.find? Session.globals name = some v →
      v.isMacro = false := by
    intro name v found
    have here : hidingStore.frames[Session.globals]? = some hidingStore.frames[0] := rfl
    rw [Store.find?_eq here] at found
    have bound : (name, v) ∈ hidingStore.frames[0].bindings :=
      Frame.mem_of_find? (by simpa [hidingStore] using found)
    simp only [hidingStore, List.getElem_toArray, List.getElem_cons_zero, List.mem_cons,
      Prod.mk.injEq, List.not_mem_nil, or_false] at bound
    rcases bound with ⟨_, rfl⟩ | ⟨_, rfl⟩ <;> rfl
  have read : Program.ofSource "let k = f();" = .ok [.bind "k" (.call (.name "f") [])] :=
    Session.eq_ok_of_toOption (by decide +kernel)
  have behind : Program.ofSource "k()" = .ok [.expr (.call (.name "k") [])] :=
    Session.eq_ok_of_toOption (by decide +kernel)
  have scanned : Token.ofText "let k = f();" = .ok
      ([⟨.keyword .letWord, "let", 1⟩, ⟨.identifier, "k", 1⟩, ⟨.mark .equal, "=", 1⟩,
        ⟨.identifier, "f", 1⟩, ⟨.mark .leftParen, "(", 1⟩, ⟨.mark .rightParen, ")", 1⟩,
        ⟨.mark .semicolon, ";", 1⟩] ++ [⟨.eof, "", 1⟩]) :=
    Session.eq_ok_of_toOption (by decide +kernel)
  have scanned' : Token.ofText "k()" = .ok
      ([⟨.identifier, "k", 1⟩, ⟨.mark .leftParen, "(", 1⟩, ⟨.mark .rightParen, ")", 1⟩] ++
        [⟨.eof, "", 1⟩]) :=
    Session.eq_ok_of_toOption (by decide +kernel)
  have apart : Session.KeptApart "let k = f();" "k()" :=
    ⟨_, _, _, _, scanned, scanned', .inr (.inr (.inl rfl))⟩
  have passes : Block.Passes Session.globals [.bind "k" (.call (.name "f") [])] hidingStore
      unhiddenStore := by
    have binding : Stmt.Evaluates Session.globals (.bind "k" (.call (.name "f") [])) hidingStore
      none unhiddenStore := ⟨4, by cbv⟩
    exact .cons binding (by simp) .nil
  obtain ⟨_, _, same⟩ := claim _ _ _ _ _ _ reached noMacro read rfl behind rfl apart passes
  -- On its own the call gives one, but in the whole source it is a fault.
  have alone : (Session.run 6 "k()" unhiddenStore).map (fun r => r.1.toOption) =
      some (some (some (.int 1))) := by decide +kernel
  have whole : (Session.run 6 ("let k = f();" ++ "\n" ++ "k()") hidingStore).map
      (fun r => r.1.toOption) = some (some (some (.fault (.notFunction .transformer)))) := by
    decide +kernel
  obtain ⟨⟨out, u⟩, alone, gives⟩ := Option.map_eq_some_iff.mp alone
  obtain ⟨⟨out', u'⟩, whole, gives'⟩ := Option.map_eq_some_iff.mp whole
  have both : Session.Runs ("let k = f();" ++ "\n" ++ "k()") hidingStore out u :=
    (same out u).mpr ⟨out, ⟨6, alone⟩, rfl⟩
  obtain ⟨rfl, _⟩ := both.unique ⟨6, whole⟩
  cases gives.symm.trans gives'

end Quasiquote
