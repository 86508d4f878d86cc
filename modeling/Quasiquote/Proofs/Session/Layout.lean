import Quasiquote.Proofs.Reading.Refusal
import Quasiquote.Proofs.Session.Sequence
import Quasiquote.Proofs.Source.Insertion

/-!
# Layout does not matter

* `Reading.run_congr`: a program hangs on the terminals of its tokens, and not on their lines.
* `Program.RefusedAt`: the token that an error is about.
* `layout_insensitive`: layout that is inserted where a token starts or ends changes no program, and
  of an error the line only.
-/

namespace Quasiquote

/-- A program hangs on the terminals of its tokens only. -/
theorem Reading.run_congr {r : Reading} {tokens others : List Token} {p : Program}
    (same : others.map Token.terminal = tokens.map Token.terminal) (run : r.run tokens = .ok p) :
    r.run others = .ok p := by
  induction tokens generalizing r others with
  | nil =>
    obtain rfl : others = [] := List.map_eq_nil_iff.mp same
    exact run
  | cons t tokens ih =>
    cases others with
    | nil => cases same
    | cons u others =>
      obtain ⟨first, rest⟩ := List.cons.inj same
      have kind := Token.kind_eq_of_terminal first
      rw [Reading.run] at run ⊢
      by_cases eof : t.kind = .eof
      · rw [if_pos eof] at run
        rw [if_pos (kind.trans eof)]
        cases finish : r.finish with
        | ok q => rwa [finish] at run
        | error complaint => simp [finish, Except.mapError] at run
      · rw [if_neg eof] at run
        rw [if_neg fun h => eof (kind.symm.trans h)]
        have step : (r.step u).toOption = (r.step t).toOption := by
          rw [step_toOption, step_toOption, first]
        cases taken : r.step t with
        | error complaint => simp [taken] at run
        | ok next =>
          rw [taken] at run step
          cases taken' : r.step u with
          | error complaint => simp [taken', Except.toOption] at step
          | ok next' =>
            obtain rfl : next' = next := by simpa [taken', Except.toOption] using step
            exact ih rest run

theorem Reading.refuses_below {r : Reading} {t : Token} {complaint : Complaint} (lines : Nat) :
    r.Refuses (t.below lines) complaint ↔ r.Refuses t complaint := .rfl

/-- The first token that no program has in its place, behind these, and what is missing there. -/
structure Program.RefusedAt (before : List Token) (token : Token) (complaint : Complaint) :
    Prop where
  possible : ∃ rest p, Program.ofTokens (before ++ rest) = .ok p
  refused : ∀ rest, Program.ofTokens (before ++ token :: rest) = .error ⟨token.line, complaint⟩

theorem Program.refusedAt {before : List Token} {token : Token} {complaint : Complaint}
    {q : Reading} (steps : Reading.empty.steps (before.map Token.terminal) = some q)
    (refuses : q.Refuses token complaint) : RefusedAt before token complaint where
  possible := by
    obtain ⟨ss, last, more, p, finish⟩ := q.completes
    have spelled : (ss.map Terminal.token).map Token.terminal = ss := by
      simp [Function.comp_def, Token.terminal_token]
    refine ⟨ss.map Terminal.token ++ [], p, ?_⟩
    rw [Program.ofTokens, Reading.run_of_steps steps, Reading.run_of_steps (spelled.symm ▸ more),
      Reading.run, finish]
    rfl
  refused rest := (Reading.run_of_steps steps).trans (refuses.run rest)

/-- Behind an edge, an error is further down by the lines that were inserted; before it, it stays
where it is. -/
theorem Program.ofTokens_insert {before after : List Token} {error : SyntaxError} (lines : Nat)
    (ended : ∃ t ∈ before ++ after, t.kind = .eof)
    (refused : Program.ofTokens (before ++ after) = .error error) :
    ∃ first token rest, before ++ after = first ++ token :: rest ∧
      RefusedAt first token error.complaint ∧ error.line = token.line ∧
      Program.ofTokens (before ++ after.map (Token.below lines)) =
        .error ⟨if first.length < before.length then token.line else token.line + lines,
          error.complaint⟩ := by
  obtain ⟨first, token, rest, q, split, steps, line, refuses⟩ := Reading.run_error ended refused
  refine ⟨first, token, rest, split, refusedAt steps refuses, line, ?_⟩
  by_cases here : first.length < before.length
  · -- The token is before the edge, and it stops the reading whatever is behind it.
    have whole : before ++ after = (first ++ [token]) ++ rest := by simp [split]
    have inside : (first ++ [token]).length ≤ before.length := by simpa using here
    obtain ⟨more, rfl⟩ : first ++ [token] <+: before :=
      List.prefix_of_prefix_length_le ⟨rest, whole.symm⟩ (List.prefix_append _ after) inside
    rw [if_pos here, List.append_assoc, List.append_assoc]
    exact (refusedAt steps refuses).refused _
  · -- The token is behind the edge, and so are those between the edge and it.
    obtain ⟨more, rfl⟩ : before <+: first :=
      List.prefix_of_prefix_length_le ⟨after, split⟩ (List.prefix_append _ _)
        (Nat.le_of_not_lt here)
    rw [List.append_assoc, List.append_cancel_left_eq] at split
    have steps' : Reading.empty.steps
        ((before ++ more.map (Token.below lines)).map Token.terminal) = some q := by
      simpa [Function.comp_def] using steps
    rw [if_neg here, split, List.map_append, List.map_cons, ← List.append_assoc]
    exact (refusedAt steps' ((Reading.refuses_below lines).mpr refuses)).refused _

/-- Layout does not matter. In a source without errors in its tokens, layout that begins with a
blank or a line end can be inserted wherever a token starts or ends: the tokens before the place
stay as they are, and those behind it are so many lines further down as there are line ends in the
layout. The program is the same then, and so is an error, on the line that its token is on now. -/
theorem layout_insensitive {start behind gap : String} {tokens before : List Token}
    (scanned : Token.ofText (start ++ behind) = .ok tokens)
    (edge : (Source.ofString (start ++ behind)).Edge before behind.toList)
    (layout : Layout False gap.toList)
    (begins : ∃ c ∈ gap.toList.head?, c ∈ [' ', '\t', '\r', '\n']) :
    ∃ after, tokens = before ++ after ∧
      Token.ofText (start ++ gap ++ behind) =
        .ok (before ++ after.map (Token.below (gap.toList.count '\n'))) ∧
      (∀ p, Program.ofSource (start ++ behind) = .ok p →
        Program.ofSource (start ++ gap ++ behind) = .ok p) ∧
      ∀ e, Program.ofSource (start ++ behind) = .error e →
        ∃ first token rest complaint, tokens = first ++ token :: rest ∧
          Program.RefusedAt first token complaint ∧ e = .grammatical ⟨token.line, complaint⟩ ∧
          Program.ofSource (start ++ gap ++ behind) =
            .error (.grammatical ⟨if first.length < before.length then token.line
              else token.line + gap.toList.count '\n', complaint⟩) := by
  obtain ⟨after, rfl, moved⟩ := Token.ofText_insert scanned edge layout begins
  refine ⟨after, rfl, moved, ?_, ?_⟩
  · intro p read
    rw [Program.ofSource_eq_ok_iff] at read ⊢
    obtain ⟨_, same, parsed⟩ := read
    cases scanned.symm.trans same
    refine ⟨_, moved, Reading.run_congr ?_ parsed⟩
    simp [Function.comp_def]
  · intro e refused
    obtain ⟨body, last, split, ends, _⟩ := Token.ofText_proper scanned
    have ended : ∃ t ∈ before ++ after, t.kind = .eof := ⟨last, by simp [split], ends⟩
    unfold Program.ofSource at refused ⊢
    rw [scanned] at refused
    rw [moved]
    cases parsed : Program.ofTokens (before ++ after) with
    | ok p => simp [parsed, Except.mapError] at refused
    | error error =>
      obtain ⟨first, token, rest, split, refusedAt, line, refused'⟩ :=
        Program.ofTokens_insert (gap.toList.count '\n') ended parsed
      refine ⟨first, token, rest, error.complaint, split, refusedAt, ?_, ?_⟩
      · rw [← line]
        simpa [parsed, Except.mapError] using refused.symm
      · simp only [refused', Except.mapError]

/-- A comment between the two tokens of `5x`. -/
theorem layout_insensitive_touching :
    Token.ofText ("5" ++ "x") =
      .ok [⟨.integer 5, "5", 1⟩, ⟨.identifier, "x", 1⟩, ⟨.eof, "", 1⟩] ∧
    (Source.ofString ("5" ++ "x")).Edge [⟨.integer 5, "5", 1⟩] "x".toList ∧
    Layout False " // y\n".toList ∧ (∃ c ∈ " // y\n".toList.head?, c ∈ [' ', '\t', '\r', '\n']) ∧
    Token.ofText ("5" ++ " // y\n" ++ "x") =
      .ok [⟨.integer 5, "5", 1⟩, ⟨.identifier, "x", 2⟩, ⟨.eof, "", 2⟩] ∧
    Program.ofSource ("5" ++ " // y\n" ++ "x") = .ok [.expr (.int 5), .expr (.name "x")] := by
  have scanned : Token.ofText ("5" ++ "x") =
      .ok [⟨.integer 5, "5", 1⟩, ⟨.identifier, "x", 1⟩, ⟨.eof, "", 1⟩] :=
    Session.eq_ok_of_toOption (by decide +kernel)
  have read : Program.ofSource ("5" ++ "x") = .ok [.expr (.int 5), .expr (.name "x")] :=
    Session.eq_ok_of_toOption (by decide +kernel)
  have edge : (Source.ofString ("5" ++ "x")).Edge [⟨.integer 5, "5", 1⟩] "x".toList :=
    .ends (t := ⟨['x'], 1, false⟩) rfl (by decide)
  have comment : Layout False ('/' :: '/' :: [' ', 'y'] ++ '\n' :: []) :=
    .comment (by decide) (.blank (by decide) .nil)
  have layout : Layout False " // y\n".toList := .blank (by decide) comment
  have begins : ∃ c ∈ " // y\n".toList.head?, c ∈ [' ', '\t', '\r', '\n'] :=
    ⟨' ', rfl, by decide⟩
  obtain ⟨after, split, moved, same, _⟩ := layout_insensitive scanned edge layout begins
  cases split
  exact ⟨scanned, edge, layout, begins, moved, same _ read⟩

end Quasiquote
