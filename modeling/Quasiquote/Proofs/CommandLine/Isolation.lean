import Quasiquote.Proofs.CommandLine.Agreement
import Quasiquote.Proofs.CommandLine.Lines

/-!
# Lines that make no difference

What the line editor does is asked for by name: it goes through the input line by line
(`LineEditor.ByLine`).

* `Repl.Prints`: what lines print in one session, each by what running it comes to where the lines
  before it have led. `Repl.repl_ends_iff`: the session prints this, and nothing else.
* `Repl.Idle`: a line that is blank or is rejected before its macros are defined.
* `Repl.Prints.select`: without idle lines all others print the same.
* `CommandLine.repl_isolated`: idle lines can be left out of the input, and nothing changes but that
  standard error lacks their messages.
-/

namespace Quasiquote

open Eval Session

/-- The rejection is of the tokens or the grammar of a source, not of its macro calls. -/
def Rejection.isSyntactic : Rejection → Bool
  | .expansion _ => false
  | _ => true

namespace Repl

/-- The lines of every input are handed out up to its end, each without its line end and edited by
itself. An editor that hands them out as they stand edits nothing, `edit = id`. -/
def LineEditor.ByLine (editor : LineEditor) (edit : String → String) : Prop :=
  ∀ input, editor input = .ok ((lines input).map edit, .closed)

structure Printed where
  stdout : String
  stderr : String

/-- Lines print one after the other: a blank one nothing, and any other the value or the rejection
that running it comes to in the session that the lines before it have led to. -/
inductive Prints : Store → List String → List Printed → Prop
  | nil {s} : Prints s [] []
  | blank {s line lines printed} (blank : isBlankText line) (more : Prints s lines printed) :
      Prints s (line :: lines) (⟨"", ""⟩ :: printed)
  | value {s t line lines v printed} (written : isBlankText line = false)
      (runs : Runs line s (.ok (some v)) t) (more : Prints t lines printed) :
      Prints s (line :: lines) (⟨v.text ++ "\n", ""⟩ :: printed)
  | nothing {s t line lines printed} (written : isBlankText line = false)
      (runs : Runs line s (.ok none) t) (more : Prints t lines printed) :
      Prints s (line :: lines) (⟨"", ""⟩ :: printed)
  | rejected {s t line lines rejection printed} (written : isBlankText line = false)
      (runs : Runs line s (.error rejection) t) (more : Prints t lines printed) :
      Prints s (line :: lines) (⟨"", "\t" ++ rejection.message ++ "\n"⟩ :: printed)

/-- A line that is blank, or that is rejected for its tokens or its grammar where it is run. -/
def Idle (line : String) : Prop :=
  isBlankText line ∨ ∃ s t rejection, Runs line s (.error rejection) t ∧ rejection.isSyntactic

/-- What is said of a line that has no program, whatever session it is run in. -/
def objection (line : String) : String :=
  if isBlankText line then ""
  else
    match Program.ofSource line with
    | .error rejection => "\t" ++ rejection.message ++ "\n"
    | .ok _ => ""

/-! ## Idle lines -/

section
variable {line : String} {lines : List String} {s t : Store} {printed : List Printed}
variable {rejection : Rejection} {out : Except Rejection (Option Value)}

/-- A source is rejected for its tokens or its grammar in any session alike. -/
theorem ofSource_of_syntactic (runs : Runs line s (.error rejection) t)
    (syntactic : rejection.isSyntactic) : Program.ofSource line = .error rejection := by
  obtain ⟨depth, run⟩ := runs
  cases rejects_of_run run with
  | unreadable read => exact read
  | unexpanded => cases syntactic

/-- Whether a line is idle hangs on the line alone. -/
theorem idle_iff : Idle line ↔ isBlankText line ∨ (Program.ofSource line).toOption = none := by
  constructor
  · rintro (blank | ⟨s, t, rejection, runs, syntactic⟩)
    · exact .inl blank
    · rw [ofSource_of_syntactic runs syntactic]
      exact .inr rfl
  · rintro (blank | unread)
    · exact .inl blank
    · cases read : Program.ofSource line with
      | ok program =>
        rw [read] at unread
        cases unread
      | error rejection =>
        refine .inr ⟨.initial, .initial, rejection, ⟨0, run_of_unreadable read⟩, ?_⟩
        cases rejection with
        | expansion e => exact absurd read (Program.ofSource_ne_expansion line e)
        | _ => rfl

instance : Decidable (Idle line) := decidable_of_iff _ idle_iff.symm

/-- An idle line is rejected wherever it is run, and leaves the session as it is. -/
theorem Idle.run (idle : Idle line) (written : isBlankText line = false)
    (runs : Runs line s out t) :
    ∃ rejection, Program.ofSource line = .error rejection ∧ out = .error rejection ∧ t = s := by
  have ⟨_, _, rejection, elsewhere, syntactic⟩ := idle.resolve_left (by simp [written])
  have read := ofSource_of_syntactic elsewhere syntactic
  exact ⟨rejection, read, runs.unique ⟨0, run_of_unreadable read⟩⟩

theorem objection_of_blank (blank : isBlankText line) : objection line = "" := by
  rw [objection, if_pos blank]

theorem objection_of_unreadable (written : isBlankText line = false)
    (read : Program.ofSource line = .error rejection) :
    objection line = "\t" ++ rejection.message ++ "\n" := by
  rw [objection, written, read]
  rfl

/-- An idle line prints what there is to say of it, and those behind it print as without it. -/
theorem Prints.of_idle (prints : Prints s (line :: lines) printed) (idle : Idle line) :
    ∃ later, printed = ⟨"", objection line⟩ :: later ∧ Prints s lines later := by
  cases prints with
  | blank blank more => exact ⟨_, by rw [objection_of_blank blank], more⟩
  | value written runs | nothing written runs =>
    obtain ⟨_, _, same, _⟩ := idle.run written runs
    cases same
  | rejected written runs more =>
    obtain ⟨_, read, same, rfl⟩ := idle.run written runs
    cases same
    exact ⟨_, by rw [objection_of_unreadable written read], more⟩

/-- Any line prints something, and those behind it print in the session that it leads to, whatever
these are. -/
theorem Prints.cons_inv (prints : Prints s (line :: lines) printed) :
    ∃ first later t, printed = first :: later ∧ Prints t lines later ∧
      ∀ lines' later', Prints t lines' later' → Prints s (line :: lines') (first :: later') := by
  cases prints with
  | blank blank more => exact ⟨_, _, s, rfl, more, fun _ _ => .blank blank⟩
  | value written runs more => exact ⟨_, _, _, rfl, more, fun _ _ => .value written runs⟩
  | nothing written runs more => exact ⟨_, _, _, rfl, more, fun _ _ => .nothing written runs⟩
  | rejected written runs more => exact ⟨_, _, _, rfl, more, fun _ _ => .rejected written runs⟩

theorem Prints.length (prints : Prints s lines printed) : printed.length = lines.length := by
  induction prints with
  | nil => rfl
  | _ => simpa

section
variable {keep : Nat → Bool}
  (idle : ∀ i line, keep i = false → lines[i]? = some line → Idle line)
include idle

/-- Without some idle lines, the others print the same. -/
theorem Prints.select (prints : Prints s lines printed) :
    Prints s (select keep lines) (select keep printed) := by
  induction lines generalizing keep s printed with
  | nil =>
    cases prints
    exact .nil
  | cons line lines ih =>
    cases kept : keep 0 with
    | true =>
      obtain ⟨first, later, t, rfl, more, again⟩ := prints.cons_inv
      simp only [Quasiquote.select, kept, ↓reduceIte]
      exact again _ _ (ih (fun i => idle (i + 1)) more)
    | false =>
      obtain ⟨later, rfl, more⟩ := prints.of_idle (idle 0 line kept rfl)
      simp only [Quasiquote.select, kept, Bool.false_eq_true, ↓reduceIte]
      exact ih (fun i => idle (i + 1)) more

theorem Prints.getElem?_of_idle (prints : Prints s lines printed) (i : Nat) (line : String)
    (removed : keep i = false) (here : lines[i]? = some line) :
    printed[i]? = some ⟨"", objection line⟩ := by
  induction lines generalizing keep s printed i with
  | nil => cases here
  | cons first lines ih =>
    cases i with
    | zero =>
      cases here
      obtain ⟨later, rfl, _⟩ := prints.of_idle (idle 0 line removed rfl)
      rfl
    | succ i =>
      obtain ⟨_, later, _, rfl, more, _⟩ := prints.cons_inv
      exact ih (fun i => idle (i + 1)) more i removed here

/-- Without some idle lines, the same is printed on standard output. -/
theorem Prints.join_stdout (prints : Prints s lines printed) :
    String.join ((Quasiquote.select keep printed).map (·.stdout)) =
      String.join (printed.map (·.stdout)) := by
  rw [map_select]
  apply join_select
  intro i text removed here
  rw [List.getElem?_map, Option.map_eq_some_iff] at here
  obtain ⟨p, there, rfl⟩ := here
  obtain ⟨inside, -⟩ := List.getElem?_eq_some_iff.mp there
  have line := List.getElem?_eq_getElem (prints.length ▸ inside)
  cases there.symm.trans (prints.getElem?_of_idle idle i _ removed line)
  rfl

end

end

/-! ## The loop -/

def Answer.printed (a : Answer) : Printed := ⟨a.output, a.complaint⟩

def Answer.of : Except Rejection (Option Value) → Answer
  | .ok (some v) => .value v.text
  | .ok none => .silent
  | .error e => .rejected e.message

section
variable {depth : Nat} {line : String} {lines : List String} {s t u : Store} {given : List Answer}
variable {printed : List Printed} {out : Except Rejection (Option Value)}

theorem answer_eq (depth : Nat) (line : String) (s : Store) :
    answer depth line s =
      if isBlankText line then some (.silent, s)
      else (Session.run depth line s).map fun (result, t) => (Answer.of result, t) := by
  unfold answer
  split
  · rfl
  · have same : (Session.run depth line).run s = Session.run depth line s := rfl
    rw [Eval.bind_apply, same]
    rcases Session.run depth line s with _ | ⟨_ | _ | _, _⟩ <;> rfl

theorem answers_cons (depth : Nat) (line : String) (lines : List String) (s : Store) :
    answers depth (line :: lines) s =
      (answer depth line s).bind fun (first, t) =>
        (answers depth lines t).map fun (later, u) => (first :: later, u) := by
  rw [answers, Eval.bind_apply]
  rcases answer depth line s with _ | ⟨first, t⟩
  · rfl
  · change (answers depth lines >>= _) t = _
    rw [Eval.bind_apply]
    change _ = (answers depth lines t).map _
    rcases answers depth lines t with _ | ⟨later, u⟩ <;> rfl

theorem answers_deepens {depth' : Nat} (le : depth ≤ depth') (lines : List String) :
    (answers depth lines).Deepens (answers depth' lines) := by
  induction lines with
  | nil => exact .refl _
  | cons line lines ih =>
    refine Deepens.bind ?_ fun _ => ih.bind fun _ => .refl _
    unfold answer
    split
    · exact .refl _
    · exact (Session.run_deepens le line).bind fun _ => .refl _

theorem prints_of_answers (ran : answers depth lines s = some (given, t)) :
    Prints s lines (given.map Answer.printed) := by
  induction lines generalizing s given with
  | nil =>
    cases ran
    exact .nil
  | cons line lines ih =>
    rw [answers_cons, answer_eq] at ran
    obtain ⟨⟨first, u⟩, one, rest⟩ := Option.bind_eq_some_iff.mp ran
    obtain ⟨⟨later, _⟩, more, same⟩ := Option.map_eq_some_iff.mp rest
    cases same
    split at one
    · next blank =>
      cases one
      exact .blank blank (ih more)
    · next written =>
      obtain ⟨⟨result, _⟩, run, same⟩ := Option.map_eq_some_iff.mp one
      cases same
      have written : isBlankText line = false := by simpa using written
      have runs : Runs line s result u := ⟨depth, run⟩
      match result with
      | .ok (some v) => exact .value written runs (ih more)
      | .ok none => exact .nothing written runs (ih more)
      | .error e => exact .rejected written runs (ih more)

/-- Answering a line adds to what the lines behind it are answered, at a depth that suffices for
both. -/
theorem answers_of_runs (written : isBlankText line = false) (runs : Runs line s out t)
    (ran : answers depth lines t = some (given, u)) :
    ∃ depth, answers depth (line :: lines) s = some (Answer.of out :: given, u) := by
  obtain ⟨least, le, run⟩ := runs.beyond depth
  refine ⟨least + 1, ?_⟩
  have more := answers_deepens (Nat.le_succ_of_le le) lines t _ ran
  simp [answers_cons, answer_eq, written, run, more]

/-- If running each line comes to something, the loop comes to an end. -/
theorem Prints.answers (prints : Prints s lines printed) :
    ∃ depth given t, answers depth lines s = some (given, t) ∧
      printed = given.map Answer.printed := by
  induction prints with
  | nil => exact ⟨0, [], _, rfl, rfl⟩
  | blank blank _ ih =>
    obtain ⟨depth, given, t, ran, rfl⟩ := ih
    exact ⟨depth, .silent :: given, t, by simp [answers_cons, answer_eq, blank, ran], rfl⟩
  | value written runs _ ih | nothing written runs _ ih | rejected written runs _ ih =>
    obtain ⟨_, given, t, ran, rfl⟩ := ih
    obtain ⟨depth, ran⟩ := answers_of_runs written runs ran
    exact ⟨depth, _, t, ran, rfl⟩

end

end Repl

namespace CommandLine

open Repl

variable {editor : LineEditor} {files : String → Except ReadError (List UInt8)} {input : String}

/-- A session ends with what its lines print. -/
theorem repl_ends_iff {texts : List String} (handed : editor input = .ok (texts, .closed))
    {printed : List Printed} (prints : Prints .initial texts printed) (out : Output) :
    Command.Ends editor files input .repl out ↔
      out = ⟨0, "Monkey REPL. Press Ctrl-D to exit.\n" ++ String.join (printed.map (·.stdout)),
        String.join (printed.map (·.stderr))⟩ := by
  obtain ⟨depth, given, t, ran, rfl⟩ := prints.answers
  have shown (depth : Nat) : Command.repl.carryOut editor depth files input =
      (answers depth texts .initial).map fun (given, _) =>
        ⟨0, asLines [banner] ++ String.join (given.map Answer.output),
          String.join (given.map Answer.complaint)⟩ := by
    simp only [Command.carryOut, transcript, handed]
    cases answers depth texts .initial <;> rfl
  simp only [Command.Ends, shown, List.map_map]
  constructor
  · rintro ⟨depth', ends⟩
    obtain ⟨⟨given', t'⟩, ran', rfl⟩ := Option.map_eq_some_iff.mp ends
    obtain ⟨rfl, -⟩ := Prod.mk.inj
      (Deepens.unique (fun le => answers_deepens le texts) ran ran')
    rfl
  · rintro rfl
    exact ⟨depth, by rw [ran]; rfl⟩

/-- Lines that are blank or rejected for their tokens or their grammar make no difference to a
session. Of any text whose lines can all be run, let some lines be left out, all of them such. These
print nothing on standard output, and on standard error nothing or the message of their rejection.
All other lines still print what running them comes to in the session before them. Both sessions
end, and print the same but for those messages. -/
theorem repl_isolated {edit : String → String} (byLine : editor.ByLine edit) {keep : Nat → Bool}
    (idle : ∀ i line, keep i = false → (lines input)[i]? = some line → Idle (edit line))
    {printed : List Printed} (prints : Prints .initial ((lines input).map edit) printed) :
    (∀ i line, keep i = false → (lines input)[i]? = some line →
      printed[i]? = some ⟨"", objection (edit line)⟩) ∧
    Prints .initial ((lines (keepLines keep input)).map edit) (select keep printed) ∧
    (∀ out, Command.Ends editor files input .repl out ↔
      out = ⟨0, "Monkey REPL. Press Ctrl-D to exit.\n" ++ String.join (printed.map (·.stdout)),
        String.join (printed.map (·.stderr))⟩) ∧
    ∀ out, Command.Ends editor files (keepLines keep input) .repl out ↔
      out = ⟨0, "Monkey REPL. Press Ctrl-D to exit.\n" ++ String.join (printed.map (·.stdout)),
        String.join ((select keep printed).map (·.stderr))⟩ := by
  have idle' : ∀ i text, keep i = false → ((lines input).map edit)[i]? = some text →
      Idle text := by
    intro i text removed here
    rw [List.getElem?_map] at here
    obtain ⟨line, there, rfl⟩ := Option.map_eq_some_iff.mp here
    exact idle i line removed there
  have removed := prints.getElem?_of_idle idle'
  have kept : Prints .initial ((lines (keepLines keep input)).map edit) (select keep printed) := by
    rw [lines_keepLines, map_select]
    exact prints.select idle'
  refine ⟨?_, kept, repl_ends_iff (byLine input) prints, ?_⟩
  · intro i line gone here
    refine removed i (edit line) gone ?_
    rw [List.getElem?_map, here]
    rfl
  · intro out
    rw [repl_ends_iff (byLine _) kept, prints.join_stdout idle']

/-- A line editor that hands out the lines as they stand. -/
def plain : LineEditor := fun input => .ok (lines input, .closed)

def noFiles (_ : String) : Except ReadError (List UInt8) := .error .missing

/-- A text of five lines. The second is no number, the third is blank and the fourth is cut off. -/
def interrupted : String := "let x = 5\n9999999999999999999\n \nx + \nx + 1"

/-- The first line and the last. -/
def outermost (i : Nat) : Bool := i == 0 || i == 4

theorem repl_isolated_interrupted :
    Prints .initial ["let x = 5", "9999999999999999999", " ", "x + ", "x + 1"]
      [⟨"", ""⟩, ⟨"", "\t[line 1] Error: Integer literal out of range: 9999999999999999999\n"⟩,
        ⟨"", ""⟩, ⟨"", "\t[line 1] Error: Expected expression, found end of input\n"⟩,
        ⟨"6\n", ""⟩] ∧
    Prints .initial ["let x = 5", "x + 1"] [⟨"", ""⟩, ⟨"6\n", ""⟩] ∧
    (∀ out, Command.Ends plain noFiles interrupted .repl out ↔
      out = ⟨0, "Monkey REPL. Press Ctrl-D to exit.\n6\n",
        "\t[line 1] Error: Integer literal out of range: 9999999999999999999\n" ++
          "\t[line 1] Error: Expected expression, found end of input\n"⟩) ∧
    ∀ out, Command.Ends plain noFiles "let x = 5\nx + 1" .repl out ↔
      out = ⟨0, "Monkey REPL. Press Ctrl-D to exit.\n6\n", ""⟩ := by
  have byLine : plain.ByLine id := by
    intro input
    rw [List.map_id]
    rfl
  have all : lines interrupted =
      ["let x = 5", "9999999999999999999", " ", "x + ", "x + 1"] := by decide +kernel
  have shortened : keepLines outermost interrupted = "let x = 5\nx + 1" := by decide +kernel
  have left : lines "let x = 5\nx + 1" = ["let x = 5", "x + 1"] := by decide +kernel
  have ran : (answers 5 (lines interrupted) .initial).map Prod.fst = some [.silent,
      .rejected "[line 1] Error: Integer literal out of range: 9999999999999999999", .silent,
      .rejected "[line 1] Error: Expected expression, found end of input", .value "6"] := by
    decide +kernel
  have idle : ∀ i line, outermost i = false → (lines interrupted)[i]? = some line →
      Idle (id line) := by
    have each : ∀ line ∈ ["9999999999999999999", " ", "x + "], Idle line := by decide +kernel
    intro i line removed here
    apply each
    rw [all] at here
    match i with
    | 0 | 4 => cases removed
    | 1 | 2 | 3 =>
      cases here
      simp
    | _ + 5 => cases here
  obtain ⟨⟨_, t⟩, ran, rfl⟩ := Option.map_eq_some_iff.mp ran
  have prints := prints_of_answers ran
  rw [← List.map_id (lines interrupted)] at prints
  obtain ⟨-, kept, whole, rest⟩ := @repl_isolated _ noFiles _ _ byLine _ idle _ prints
  rw [List.map_id, all] at prints
  rw [shortened, List.map_id, left] at kept
  rw [shortened] at rest
  exact ⟨prints, kept, whole, rest⟩

end CommandLine

end Quasiquote
