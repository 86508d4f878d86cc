import Quasiquote.Proofs.Rewriting.Rebuilding
import Quasiquote.Proofs.Text.Scanned

/-!
# Reading back the text of a tree

* `Program.isReadable_of_source`: the names and literals of a program that has been read.
* `Program.ofSource_text`: the text of a program is read back, and so is the text of every program
  that has been read.
-/

namespace Quasiquote

/-- All names and literals of a phrase can be read. -/
def Phrase.IsReadable : Phrase → Prop
  | .program ss => Test.readable.onList ss ∧ eachEverywhere .readable ss
  | .statement s => s.isNamed ∧ s.everywhere .readable
  | .block b => Test.readable.onList b ∧ eachEverywhere .readable b
  | .expression e => e.everywhere .readable
  | .lead e => e.everywhere .readable
  | .continuations left e => left.everywhere .readable → e.everywhere .readable
  | .params ps => ps.all isName
  | .optionalParams ps => ps.all isName
  | .args xs => argsEverywhere .readable xs
  | .optionalArgs xs => argsEverywhere .readable xs

/-- The names and literals of a phrase are those of its terminals. -/
theorem Derives.isReadable {phrase : Phrase} {ts : List Terminal} (h : Derives phrase ts)
    (proper : ∀ s ∈ ts, s.isProper) : phrase.IsReadable := by
  induction h with try simp only [List.forall_mem_cons, List.forall_mem_append] at proper
  | noStatement => exact ⟨rfl, rfl⟩
  | statements _ _ first rest =>
    obtain ⟨named, each⟩ := first proper.1
    obtain ⟨list, others⟩ := rest proper.2
    have all := Bool.and_eq_true_iff.mpr ⟨named, readable_onList.mp list⟩
    exact ⟨readable_onList.mpr all, Bool.and_eq_true_iff.mpr ⟨each, others⟩⟩
  | binding _ _ value => exact ⟨proper.2.1, value proper.2.2.2.1⟩
  | ret _ _ value => exact ⟨rfl, value proper.2.1⟩
  | bare _ _ value => exact ⟨rfl, value proper.1⟩
  | block _ body => exact body proper.2.1
  | expression _ _ lead more => exact more proper.2 (lead proper.1)
  | name => exact readable_onExpr.mpr ⟨proper.1, rfl⟩
  | int => exact proper.1
  | trueLit => rfl
  | falseLit => rfl
  | signed _ operand => exact operand proper.2
  | group _ inner => exact inner proper.2.1
  | cond _ _ condition consequence =>
    obtain ⟨_, _, tested, _, block⟩ := proper
    simp only [Phrase.IsReadable, Expr.everywhere, alternativeEverywhere, Bool.and_eq_true]
    exact ⟨⟨⟨rfl, condition tested⟩, consequence block⟩, trivial⟩
  | condElse _ _ _ condition consequence alternative =>
    obtain ⟨_, _, tested, _, block, _, other⟩ := proper
    simp only [Phrase.IsReadable, Expr.everywhere, alternativeEverywhere, Bool.and_eq_true]
    exact ⟨⟨⟨rfl, condition tested⟩, consequence block⟩, alternative other⟩
  | routine _ _ parameters body =>
    obtain ⟨_, _, named, _, block⟩ := proper
    simp only [Phrase.IsReadable, Expr.everywhere, Bool.and_eq_true]
    exact ⟨readable_onExpr.mpr ⟨parameters named, rfl⟩, body block⟩
  | noContinuation => exact id
  | operator _ _ operand more =>
    intro left
    refine more proper.2.2 ?_
    simp only [Expr.everywhere, Bool.and_eq_true]
    exact ⟨⟨rfl, left⟩, operand proper.2.1⟩
  | called _ _ arguments more =>
    intro callee
    refine more proper.2.2.2 ?_
    simp only [Expr.everywhere, Bool.and_eq_true]
    exact ⟨⟨rfl, callee⟩, arguments proper.2.1⟩
  | noParams => rfl
  | someParams _ params => exact params proper
  | lastParam =>
    simp only [Phrase.IsReadable, List.all_cons, List.all_nil, Bool.and_true]
    exact proper.1
  | moreParams _ more =>
    simp only [Phrase.IsReadable, List.all_cons, Bool.and_eq_true]
    exact ⟨proper.1, more proper.2.2⟩
  | noArgs => rfl
  | someArgs _ args => exact args proper
  | lastArg _ last =>
    simp only [Phrase.IsReadable, argsEverywhere, Bool.and_true]
    exact last proper
  | moreArgs _ _ first more =>
    simp only [Phrase.IsReadable, argsEverywhere, Bool.and_eq_true]
    exact ⟨first proper.1, more proper.2.2⟩

theorem Program.isReadable_of_source {source : String} {p : Program}
    (read : Program.ofSource source = .ok p) : p.everywhere .readable := by
  unfold Program.ofSource at read
  split at read
  · cases read
  · next tokens text =>
    obtain ⟨body, last, rfl, ends, proper⟩ := Token.ofText_proper text
    have spelled : Program.ofTokens (body ++ [last]) = .ok p := by
      cases h : Program.ofTokens (body ++ [last]) with
      | error e => simp [h, Except.mapError] at read
      | ok q => simpa [h, Except.mapError] using read
    have only : ∀ t ∈ body, t.kind ≠ .eof := by
      intro t ht eof
      have terminal : t.terminal = .eof := by simp [Token.terminal, eof]
      have solid := proper t ht
      rw [terminal] at solid
      cases solid
    have readable := (Program.ofTokens_derives only ends spelled).isReadable <| by
      simpa using proper
    exact Bool.and_eq_true_iff.mpr readable

/-- Without negative literals there is nothing to put a sign in front of. -/
theorem Program.withSigns_eq {p : Program} (unsigned : p.everywhere .unsigned) :
    p.withSigns = p := by
  refine Program.rewriteM_eq_pure (m := Id) ?_ p unsigned
  intro e pass
  cases e with
  | int n => exact if_neg (Int64.not_lt.mpr (of_decide_eq_true pass))
  | _ => rfl

/-- Programs with proper names and apart statements are read back from their texts with signs in
place of negative literals. What has been read has proper names and no negative literals, and is
read back as it is if its statements are apart. -/
theorem Program.ofSource_text :
    (∀ p : Program, p.everywhere .named → p.everywhere .writable → p.everywhere .apart →
      Program.ofSource p.text = .ok p.withSigns) ∧
    ∀ (source : String) (p : Program), Program.ofSource source = .ok p →
      p.everywhere .named ∧ p.everywhere .unsigned ∧
        (p.everywhere .apart → Program.ofSource p.text = .ok p) := by
  have printed (p : Program) (named : p.everywhere .named) (writable : p.everywhere .writable)
      (apart : p.everywhere .apart) : Program.ofSource p.text = .ok p.withSigns :=
    Program.ofSource_of_printable
      (Program.everywhere_and (Program.everywhere_and named writable) apart)
  refine ⟨printed, fun source p read => ?_⟩
  obtain ⟨named, unsigned⟩ := Program.everywhere_of_and (Program.isReadable_of_source read)
  have writable := Program.everywhere_imp writable_of_unsigned unsigned unsigned
  refine ⟨named, unsigned, fun apart => ?_⟩
  rw [printed p named writable apart, p.withSigns_eq unsigned]

/-- A condition and a call behind it, with a negative literal in each. -/
def negatives : Program :=
  [.expr (.cond (.name "x") [.ret (.int (-1))] none),
    .expr (.call (.name "f") [.binary (.int (-2)) .sub (.name "y")])]

theorem Program.ofSource_text_negatives :
    Program.ofSource negatives.text = .ok negatives.withSigns ∧
    Program.ofSource negatives.withSigns.text = .ok negatives.withSigns := by
  have read := Program.ofSource_text.1 negatives (by decide) (by decide) (by decide)
  exact ⟨read, (Program.ofSource_text.2 _ _ read).2.2 (by decide)⟩

end Quasiquote
