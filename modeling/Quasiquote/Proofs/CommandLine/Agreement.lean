import Quasiquote.Command
import Quasiquote.Proofs.Likeness.Expansion
import Quasiquote.Proofs.Session.Rejection
import Quasiquote.Proofs.Source.Covering

/-!
# The commands on one file

Listing the tokens of a file goes on behind an error in them, while the other commands stop at the
first one; showing the expansion stops where running the file goes on. `commands_agree`: they
agree, for every file, on whether it is refused, at which stage and in which words.

* `Token.ofText_eq`: collecting the tokens of a text and listing them see the same items.
* `firstLine_asLines`: a lexical error is told on one line.
* `Program.eval_grown`: an expanded program is evaluated alike in the store that the macros'
  definitions left and in the one that its expansion left.
-/

namespace Quasiquote

open Eval Session Store

/-! ## Tokens and lexical errors -/

def failure? {ε α : Type} : Except ε α → Option ε
  | .ok _ => none
  | .error e => some e

/-- The tokens of a source in order, those behind an error too. -/
def Source.tokens (s : Source) : List Token := s.items.filterMap Except.toOption

def Source.errors (s : Source) : List LexicalError := s.items.filterMap failure?

theorem Source.mem_errors {s : Source} {e : LexicalError} : e ∈ s.errors ↔ .error e ∈ s.items := by
  constructor
  · intro inside
    obtain ⟨item, here, same⟩ := List.mem_filterMap.mp inside
    cases item with
    | ok t => cases same
    | error e' =>
      cases same
      exact here
  · intro inside
    exact List.mem_filterMap.mpr ⟨_, inside, rfl⟩

theorem allOrFirstError_eq {ε α : Type} (outcomes : List (Except ε α)) :
    allOrFirstError outcomes =
      (outcomes.filterMap failure?).head?.elim (.ok (outcomes.filterMap Except.toOption))
        Except.error := by
  induction outcomes with
  | nil => rfl
  | cons outcome rest ih =>
    cases outcome with
    | error e => rfl
    | ok x =>
      rw [allOrFirstError, ih]
      simp only [List.filterMap_cons, failure?, Except.toOption]
      cases (rest.filterMap failure?).head? <;> rfl

/-- Collecting the tokens of a text stops at the first error among its items. -/
theorem Token.ofText_eq (text : String) :
    Token.ofText text = (Source.ofString text).errors.head?.elim
      (.ok (Source.ofString text).tokens) Except.error :=
  allOrFirstError_eq (Source.ofString text).items

theorem Covers.digits {before text : List Char} {items : List (Except LexicalError Token)}
    (h : Covers before text items) {e : LexicalError} (inside : .error e ∈ items) :
    ∀ c ∈ e.digits.toList, c.isDigit := by
  induction h with
  | ending => simp at inside
  | item _ lexeme _ _ ih =>
    rcases List.mem_cons.mp inside with rfl | later
    · exact lexeme.digits e rfl
    · exact ih later

theorem isDigit_ne_lineEnd {c : Char} (digit : c.isDigit) : c ≠ '\n' := by
  rintro rfl
  cases digit

/-- The message of a lexical error is one line. -/
theorem LexicalError.message_line {source : String} {e : LexicalError}
    (inside : e ∈ (Source.ofString source).errors) : '\n' ∉ e.message.toList := by
  have digits := (Source.items_covers [] source.toList).digits (Source.mem_errors.mp inside)
  have run : '\n' ∉ e.digits.toList := fun ends => isDigit_ne_lineEnd (digits _ ends) rfl
  have number : '\n' ∉ Nat.toDigits 10 e.line := by
    intro ends
    exact isDigit_ne_lineEnd (Nat.isDigit_of_mem_toDigits (by decide) (by decide) ends) rfl
  simp [LexicalError.message, lineMessage, number, run]

namespace CommandLine

def firstLine (text : String) : String := String.ofList (text.toList.takeWhile (· != '\n'))

theorem firstLine_asLines {message : String} (line : '\n' ∉ message.toList)
    (more : List String) : firstLine (asLines (message :: more)) = message := by
  have inside : ∀ c ∈ message.toList, (c != '\n') = true := by
    intro c hc
    simp only [bne_iff_ne]
    rintro rfl
    exact line hc
  have split : (asLines (message :: more)).toList =
      message.toList ++ '\n' :: (asLines more).toList := by
    simp [asLines]
  rw [firstLine, split, List.takeWhile_append_of_pos inside]
  simp

theorem tokenListing_eq (source : String) :
    tokenListing source =
      ⟨if (Source.ofString source).errors = [] then 0 else 65,
        asLines ((Source.ofString source).tokens.map Token.text),
        asLines ((Source.ofString source).errors.map LexicalError.message)⟩ := by
  unfold tokenListing
  extract_lets items tokens errors
  have texts : tokens = (Source.ofString source).tokens.map Token.text := by
    rw [Source.tokens, List.map_filterMap]
    apply List.filterMap_congr
    intro item _
    cases item <;> rfl
  have messages : errors = (Source.ofString source).errors.map LexicalError.message := by
    rw [Source.errors, List.map_filterMap]
    apply List.filterMap_congr
    intro item _
    cases item <;> rfl
  rw [texts, messages]
  cases (Source.ofString source).errors <;> rfl

/-! ## Evaluation behind an expansion -/

end CommandLine

/-- From two stores that a closed one grows to, evaluation in a frame of that one comes to the
same. -/
theorem Program.eval_grown {s t t' u : Store} (closed : s.Closed) (st : s.Grows t) (su : s.Grows u)
    {frame depth : Nat} (opened : frame < s.frames.size) {program : Program} {given : Option Value}
    (ran : program.eval depth frame t = some (given, t')) :
    ∃ given' u' p, program.eval depth frame u = some (given', u') ∧
      Option.Rel (Value.Alike .same p) given given' := by
  have mirrors := Program.eval_mirrors (Store.Alike.likeness .same) (Nat.le_refl depth)
    (p := .upTo s) ⟨rfl, opened⟩ (BlockMatch.same program)
  obtain ⟨given', u', p, ran', _, _, like⟩ := mirrors t u (closed.alike st su) given t' ran
  exact ⟨given', u', p, ran', like⟩

theorem Value.Alike.eq_fault_iff {p : Pairing} {v w : Value} (h : v.Alike .same p w)
    (cause : Fault) : v = .fault cause ↔ w = .fault cause := by
  cases h with
  | fault causes => rw [causes.eq Naming.plain_same]
  | _ => simp

namespace CommandLine

variable {source : String} {program : Program} {depth : Nat} {out : Output}

def runReport : Except Rejection (Option Value) → Output
  | .ok (some v) => if v.isFault then refused 70 v.text else shown [v.text]
  | .ok none => shown []
  | .error e => refused 65 e.message

def expansionReport : Except MacroError Program → Output
  | .ok expanded => shown (expanded.map Stmt.text)
  | .error e => refused 65 (Rejection.expansion e).message

/-- What is left when the macros of a program are defined in a new session. -/
def definedStore (program : Program) : Store := Store.initial.bindMacros globals program

theorem perform_run (depth : Nat) (source : String) :
    Action.run.perform depth source =
      (Session.run depth source Store.initial).map fun (result, _) => runReport result := by
  have same : (Session.run depth source).run Store.initial =
      Session.run depth source Store.initial := rfl
  simp only [Action.perform, outcome, same]
  rcases Session.run depth source Store.initial with _ | ⟨_ | _ | _, _⟩ <;> rfl

theorem perform_expand (read : Program.ofSource source = .ok program) (depth : Nat) :
    Action.expand.perform depth source =
      (program.withoutMacros.expand depth globals (definedStore program)).map
        fun (result, _) => expansionReport result := by
  have prepared : (prepare depth globals program).run Store.initial =
      program.withoutMacros.expand depth globals (definedStore program) := rfl
  simp only [Action.perform, expansionListing, read, prepared]
  rcases program.withoutMacros.expand depth globals (definedStore program) with
    _ | ⟨_ | _, _⟩ <;> rfl

/-- Whatever is done with a file beyond its tokens, it is refused if no program can be read. -/
theorem perform_of_unreadable {rejection : Rejection} {action : Action}
    (read : Program.ofSource source = .error rejection) (other : action ≠ .tokenize) :
    action.perform depth source = some (refused 65 rejection.message) := by
  cases action with
  | tokenize => exact absurd rfl other
  | parse json => simp only [Action.perform, programListing, read]
  | expand => simp only [Action.perform, expansionListing, read]
  | run =>
    rw [perform_run, run_of_unreadable read]
    rfl

/-- A run that ends has expanded the program, and evaluated it if the expansion did not fail. -/
theorem run_stages (read : Program.ofSource source = .ok program)
    (ends : Action.run.perform depth source = some out) :
    ∃ result t, program.withoutMacros.expand depth globals (definedStore program) =
        some (result, t) ∧
      match result with
      | .error e => out = refused 65 (Rejection.expansion e).message
      | .ok expanded => ∃ given u, expanded.eval depth globals t = some (given, u) ∧
          out = runReport (.ok given) := by
  have defined : Store.initial.bindMacros globals program = definedStore program := rfl
  rw [perform_run, run_of_program read, defined] at ends
  cases came : program.withoutMacros.expand depth globals (definedStore program) with
  | none =>
    rw [came] at ends
    cases ends
  | some given =>
    obtain ⟨result, t⟩ := given
    rw [came] at ends
    refine ⟨result, t, rfl, ?_⟩
    cases result with
    | error e => exact (Option.some.inj ends).symm
    | ok expanded =>
      dsimp only at ends ⊢
      rw [Option.map_map] at ends
      obtain ⟨⟨given, u⟩, evaluated, same⟩ := Option.map_eq_some_iff.mp ends
      exact ⟨given, u, evaluated, same.symm⟩

/-- A fault that the evaluation of a source's expanded program ends in, in the store as the
definitions of its macros left it. -/
def FaultsWith (source : String) (cause : Fault) : Prop :=
  ∃ program expanded, Program.ofSource source = .ok program ∧
    (∃ depth t, program.withoutMacros.expand depth globals (definedStore program) =
      some (.ok expanded, t)) ∧
    ∃ depth u, expanded.eval depth globals (definedStore program) =
      some (some (.fault cause), u)

/-- A run evaluates in the store that its expansion left, where frames of macros were opened. That
makes no difference to the fault. -/
theorem faultsWith_iff {expanded : Program} {given : Option Value} {depth' : Nat} {t u : Store}
    (read : Program.ofSource source = .ok program)
    (expansion : program.withoutMacros.expand depth globals (definedStore program) =
      some (.ok expanded, t))
    (evaluated : expanded.eval depth' globals t = some (given, u)) (cause : Fault) :
    FaultsWith source cause ↔ given = some (.fault cause) := by
  have sound : (definedStore program).Sound :=
    (bindMacros_advances program sound_initial).sound sound_initial
  have grown : (definedStore program).Grows t := grows_of_expansion sound_initial expansion
  have same {given given' : Option Value} {p : Pairing}
      (like : Option.Rel (Value.Alike .same p) given given') :
      given = some (.fault cause) ↔ given' = some (.fault cause) := by
    cases like with
    | none => simp
    | some like => simp [like.eq_fault_iff cause]
  constructor
  · rintro ⟨program', expanded', read', ⟨_, _, expansion'⟩, deep, _, evaluated'⟩
    obtain rfl : program = program' := Except.ok.inj (read.symm.trans read')
    obtain ⟨expandeds, rfl⟩ := Prod.mk.inj (Deepens.unique
      (fun le => Program.expand_deepens le globals program.withoutMacros) expansion expansion')
    obtain rfl : expanded = expanded' := Except.ok.inj expandeds
    obtain ⟨given', _, _, ran, like⟩ :=
      Program.eval_grown sound.closed (.refl _) grown sound.opened evaluated'
    obtain ⟨rfl, -⟩ := Prod.mk.inj (Deepens.unique
      (fun le => Program.eval_deepens le globals expanded) evaluated ran)
    exact (same like).mp rfl
  · rintro rfl
    obtain ⟨given', u', _, ran, like⟩ :=
      Program.eval_grown sound.closed grown (.refl _) sound.opened evaluated
    obtain rfl := (same like).mp rfl
    exact ⟨program, expanded, read, ⟨_, _, expansion⟩, _, _, ran⟩

theorem runReport_status (given : Option Value) :
    (runReport (.ok given)).status = 0 ∨ (runReport (.ok given)).status = 70 := by
  rcases given with _ | v
  · exact .inl rfl
  · cases v with
    | fault cause => exact .inr rfl
    | _ => exact .inl rfl

theorem runReport_faulted (given : Option Value) :
    (runReport (.ok given)).status = 70 ↔ ∃ cause, given = some (.fault cause) := by
  rcases given with _ | v
  · simp [runReport, shown]
  · cases v with
    | fault cause => simp [runReport, refused, Value.isFault]
    | _ => simp [runReport, shown, Value.isFault]

/-- What the four commands print for one file fits together. -/
structure Agreement (source : String) (tokenized parsed expanded ran : Output) : Prop where
  /-- Every token is listed, whatever errors are among them. -/
  tokens : tokenized.stdout = asLines ((Source.ofString source).tokens.map Token.text)
  /-- The listing fails if there is a lexical error. -/
  lexical : tokenized.status = 65 ↔ ∃ e, .error e ∈ (Source.ofString source).items
  /-- Then everything else fails with the first of these errors. -/
  unscanned : tokenized.status = 65 → ∀ out ∈ [parsed, expanded, ran],
    out.status = 65 ∧ out.stderr = asLines [firstLine tokenized.stderr]
  /-- What cannot be parsed can be neither expanded nor run. -/
  unparsed : parsed.status = 65 → ∀ out ∈ [expanded, ran],
    out.status = 65 ∧ out.stderr = parsed.stderr
  /-- What can be expanded can be run. -/
  unexpanded : ran.status = 65 ↔ expanded.status = 65
  sameWords : ran.status = 65 → ran.stderr = expanded.stderr
  /-- What is run ends in a fault if evaluating the expanded program does. -/
  faulted : ran.status = 70 ↔ ∃ cause, FaultsWith source cause
  faultWords : ∀ cause, FaultsWith source cause → ran.stderr = asLines [(Value.fault cause).text]
  finished : ran.status ≠ 65 → ran.status ≠ 70 → ran.status = 0

theorem tokenListing_status (source : String) :
    (tokenListing source).status = 65 ↔ ∃ e, .error e ∈ (Source.ofString source).items := by
  rw [tokenListing_eq]
  simp only [← Source.mem_errors]
  cases (Source.ofString source).errors with
  | nil => simp
  | cons e rest => simp

/-- A listing that fails names first what the other commands refuse the source for. -/
theorem ofSource_of_tokenListing (failed : (tokenListing source).status = 65) :
    ∃ first, Program.ofSource source = .error (.lexical first) ∧
      firstLine (tokenListing source).stderr = first.message := by
  obtain ⟨e, inside⟩ := (tokenListing_status source).mp failed
  have inside := Source.mem_errors.mpr inside
  have collected := Token.ofText_eq source
  have line (e : LexicalError) (h : e ∈ (Source.ofString source).errors) := e.message_line h
  rw [tokenListing_eq]
  cases errors : (Source.ofString source).errors with
  | nil =>
    rw [errors] at inside
    cases inside
  | cons first rest =>
    rw [errors] at collected line
    refine ⟨first, ?_, firstLine_asLines (line first List.mem_cons_self) _⟩
    simp only [Program.ofSource, collected]
    rfl

theorem agreement_of_unreadable {rejection : Rejection}
    (read : Program.ofSource source = .error rejection) :
    Agreement source (tokenListing source) (refused 65 rejection.message)
      (refused 65 rejection.message) (refused 65 rejection.message) where
  tokens := by rw [tokenListing_eq]
  lexical := tokenListing_status source
  unscanned := by
    intro failed out inside
    obtain rfl : out = refused 65 rejection.message := by simpa using inside
    refine ⟨rfl, congrArg (fun message => asLines [message]) ?_⟩
    obtain ⟨first, lexical, words⟩ := ofSource_of_tokenListing failed
    obtain rfl := Except.error.inj (read.symm.trans lexical)
    exact words.symm
  unparsed := by
    intro _ out inside
    obtain rfl : out = refused 65 rejection.message := by simpa using inside
    exact ⟨rfl, rfl⟩
  unexpanded := .rfl
  sameWords _ := rfl
  faulted := by
    constructor
    · intro status
      cases status
    · rintro ⟨_, _, _, read', _⟩
      cases read.symm.trans read'
  faultWords := by
    rintro _ ⟨_, _, read', _⟩
    cases read.symm.trans read'
  finished other := absurd rfl other

theorem clean_of_program (read : Program.ofSource source = .ok program) :
    (tokenListing source).status ≠ 65 := by
  intro failed
  obtain ⟨first, lexical, _⟩ := ofSource_of_tokenListing failed
  cases read.symm.trans lexical

theorem agreement_of_unexpanded {texts : List String} {e : MacroError} {t : Store}
    (read : Program.ofSource source = .ok program)
    (expansion : program.withoutMacros.expand depth globals (definedStore program) =
      some (.error e, t)) :
    Agreement source (tokenListing source) (shown texts)
      (refused 65 (Rejection.expansion e).message)
      (refused 65 (Rejection.expansion e).message) := by
  have noFault (cause : Fault) : ¬ FaultsWith source cause := by
    rintro ⟨program', expanded', read', ⟨_, _, expansion'⟩, _⟩
    obtain rfl : program = program' := Except.ok.inj (read.symm.trans read')
    cases Deepens.unique (fun le => Program.expand_deepens le globals program.withoutMacros)
      expansion expansion'
  exact {
    tokens := by rw [tokenListing_eq]
    lexical := tokenListing_status source
    unscanned := fun failed => absurd failed (clean_of_program read)
    unparsed := nofun
    unexpanded := .rfl
    sameWords := fun _ => rfl
    faulted := ⟨nofun, fun ⟨cause, faults⟩ => absurd faults (noFault cause)⟩
    faultWords := fun cause faults => absurd faults (noFault cause)
    finished := fun other => absurd rfl other }

theorem agreement_of_evaluated {texts texts' : List String} {expanded : Program}
    {given : Option Value} {depth' : Nat} {t u : Store}
    (read : Program.ofSource source = .ok program)
    (expansion : program.withoutMacros.expand depth globals (definedStore program) =
      some (.ok expanded, t))
    (evaluated : expanded.eval depth' globals t = some (given, u)) :
    Agreement source (tokenListing source) (shown texts) (shown texts')
      (runReport (.ok given)) := by
  have faults := faultsWith_iff read expansion evaluated
  have other : (runReport (.ok given)).status ≠ 65 := by
    rcases runReport_status given with status | status <;> simp [status]
  exact {
    tokens := by rw [tokenListing_eq]
    lexical := tokenListing_status source
    unscanned := fun failed => absurd failed (clean_of_program read)
    unparsed := nofun
    unexpanded := ⟨fun failed => absurd failed other, nofun⟩
    sameWords := fun failed => absurd failed other
    faulted := by simp only [runReport_faulted, faults]
    faultWords := by
      intro cause ends
      rw [(faults cause).mp ends]
      rfl
    finished := fun _ noFault => (runReport_status given).resolve_right noFault }

theorem agreement_of_program {expanded ran : Output} {depth' : Nat} {texts : List String}
    (read : Program.ofSource source = .ok program)
    (expands : Action.expand.perform depth source = some expanded)
    (runs : Action.run.perform depth' source = some ran) :
    Agreement source (tokenListing source) (shown texts) expanded ran := by
  rw [perform_expand read] at expands
  obtain ⟨⟨result, t⟩, expansion, shows⟩ := Option.map_eq_some_iff.mp expands
  obtain ⟨result', t', expansion', reported⟩ := run_stages read runs
  obtain ⟨rfl, rfl⟩ := Prod.mk.inj (Deepens.unique
    (fun le => Program.expand_deepens le globals program.withoutMacros) expansion expansion')
  subst shows
  cases result with
  | error e =>
    obtain rfl : ran = refused 65 (Rejection.expansion e).message := reported
    exact agreement_of_unexpanded read expansion
  | ok p =>
    obtain ⟨given, u, evaluated, rfl⟩ := reported
    exact agreement_of_evaluated read expansion evaluated

/-! ## The commands -/

/-- What a command comes to at some depth. -/
def Command.Ends (editor : Repl.LineEditor) (files : String → Except ReadError (List UInt8))
    (input : String) (command : Command) (out : Output) : Prop :=
  ∃ depth, command.carryOut editor depth files input = some out

/-- Whatever text a file holds, if the four commands on it end, they agree on it. -/
theorem commands_agree {editor : Repl.LineEditor}
    {files : String → Except ReadError (List UInt8)} {input name : String}
    {bytes : List UInt8} (file : files name = .ok bytes) (utf8 : Utf8.decode bytes = .ok source)
    {json : Bool} {tokenized parsed expanded ran : Output}
    (tokenizes : Command.Ends editor files input (.withFile .tokenize name) tokenized)
    (parses : Command.Ends editor files input (.withFile (.parse json) name) parsed)
    (expands : Command.Ends editor files input (.withFile .expand name) expanded)
    (runs : Command.Ends editor files input (.withFile .run name) ran) :
    Agreement source tokenized parsed expanded ran := by
  have decoded : decodeFile (files name) = .ok source := by
    rw [decodeFile, file]
    change (Utf8.decode bytes).mapError ReadError.malformed = _
    rw [utf8]
    rfl
  have performed {action : Action} {out : Output}
      (ends : Command.Ends editor files input (.withFile action name) out) :
      ∃ depth, action.perform depth source = some out := by
    obtain ⟨depth, executed⟩ := ends
    refine ⟨depth, ?_⟩
    simpa only [Command.carryOut, decoded] using executed
  obtain ⟨_, tokenizes⟩ := performed tokenizes
  obtain ⟨_, parses⟩ := performed parses
  obtain ⟨_, expands⟩ := performed expands
  obtain ⟨_, runs⟩ := performed runs
  obtain rfl : tokenListing source = tokenized := Option.some.inj tokenizes
  obtain rfl : programListing json source = parsed := Option.some.inj parses
  cases read : Program.ofSource source with
  | error rejection =>
    have same {action : Action} {depth : Nat} {out : Output}
        (performs : action.perform depth source = some out) (other : action ≠ .tokenize) :
        refused 65 rejection.message = out :=
      Option.some.inj ((perform_of_unreadable read other).symm.trans performs)
    obtain rfl := same expands (by simp)
    obtain rfl := same runs (by simp)
    have performs : (Action.parse json).perform 0 source = some (programListing json source) := rfl
    rw [← same performs (by simp)]
    exact agreement_of_unreadable read
  | ok program =>
    simp only [programListing, read]
    exact agreement_of_program read expands runs

/-- A source whose macro gives a sum of a number and a boolean. -/
def mixing : String := "let m = macro(x) \x7b quote(unquote(x) + true) \x7d; m(1)"

/-- Every file holds that source. -/
def mixingFiles (_ : String) : Except ReadError (List UInt8) := .ok mixing.toUTF8.toList

def noLines : Repl.LineEditor := fun _ => .ok ([], .closed)

/-- The tokens of that source as they are listed. -/
def mixingTokens : String :=
  "LET let null\nIDENTIFIER m null\nEQUAL = null\nMACRO macro null\nLEFT_PAREN ( null\n" ++
    "IDENTIFIER x null\nRIGHT_PAREN ) null\nLEFT_BRACE \x7b null\nIDENTIFIER quote null\n" ++
    "LEFT_PAREN ( null\nIDENTIFIER unquote null\nLEFT_PAREN ( null\nIDENTIFIER x null\n" ++
    "RIGHT_PAREN ) null\nPLUS + null\nTRUE true null\nRIGHT_PAREN ) null\n" ++
    "RIGHT_BRACE \x7d null\nSEMICOLON ; null\nIDENTIFIER m null\nLEFT_PAREN ( null\n" ++
    "INTEGER 1 1\nRIGHT_PAREN ) null\nEOF  null\n"

theorem commands_agree_mixing :
    Agreement mixing ⟨0, mixingTokens, ""⟩
      ⟨0, "let m = macro(x) \x7b quote((unquote(x) + true)) \x7d;\nm(1)\n", ""⟩
      ⟨0, "(1 + true)\n", ""⟩ ⟨70, "", "ERROR: type mismatch: INTEGER + BOOLEAN\n"⟩ := by
  have utf8 : Utf8.decode mixing.toUTF8.toList = .ok mixing := by decide +kernel
  have tokenizes : Command.carryOut noLines 0 mixingFiles "" (.withFile .tokenize "m") =
      some ⟨0, mixingTokens, ""⟩ := by decide +kernel
  have parses : Command.carryOut noLines 0 mixingFiles "" (.withFile (.parse false) "m") =
      some ⟨0, "let m = macro(x) \x7b quote((unquote(x) + true)) \x7d;\nm(1)\n", ""⟩ := by
    decide +kernel
  have expands : Command.carryOut noLines 5 mixingFiles "" (.withFile .expand "m") =
      some ⟨0, "(1 + true)\n", ""⟩ := by decide +kernel
  have runs : Command.carryOut noLines 5 mixingFiles "" (.withFile .run "m") =
      some ⟨70, "", "ERROR: type mismatch: INTEGER + BOOLEAN\n"⟩ := by decide +kernel
  exact commands_agree (rfl : mixingFiles "m" = _) utf8 ⟨0, tokenizes⟩ ⟨0, parses⟩ ⟨5, expands⟩
    ⟨5, runs⟩

end CommandLine

end Quasiquote
