import Quasiquote.Proofs.Text.Terminals
import Quasiquote.Session

/-!
# Scanning the text of a tree

The text of a tree scans to its terminals. Texts are taken from the end to the beginning, so each
lemma says what a text in front adds to one that scans already: `Expr.scans_text`,
`scans_statementsText`, and `Program.scans_text` for all of it.
-/

namespace Quasiquote

theorem UnaryOp.text_toList (op : UnaryOp) : op.text.toList = op.mark.spelling := by
  cases op <;> rfl

theorem BinaryOp.text_toList (op : BinaryOp) : op.text.toList = op.mark.spelling := by
  cases op <;> rfl

theorem Role.text_eq (role : Role) : role.text = role.keyword.text := by cases role <;> rfl

/-- What ends in a word or a number ends no closed text. -/
theorem breaks_of_last {text : String} {rest : List Char}
    (last : ∀ c ∈ text.toList.getLast?, continuesWord c)
    (apart : endsClosed text ∨ Breaks rest) : Breaks rest := by
  refine apart.resolve_left ?_
  unfold endsClosed
  cases hc : text.toList.getLast? with
  | none => simp
  | some c =>
    have word := last c hc
    simp only [Option.any_some, Bool.or_eq_true, beq_iff_eq]
    rintro (rfl | rfl) <;> cases word

theorem isName_last {id : String} (h : isName id) : ∀ c ∈ id.toList.getLast?, continuesWord c := by
  obtain ⟨c, w, spelled, starts, continues, _⟩ := isName_spelled h
  intro d hd
  have mem := List.mem_of_getLast? hd
  rw [spelled] at mem
  rcases List.mem_cons.mp mem with rfl | mem
  · exact startsWord_continues starts
  · exact continues d mem

theorem toString_last (m : Nat) : ∀ c ∈ (toString m).toList.getLast?, continuesWord c := by
  obtain ⟨c, run, spelled, first, more⟩ := toString_spelled m
  intro d hd
  have mem := List.mem_of_getLast? hd
  rw [spelled] at mem
  rcases List.mem_cons.mp mem with rfl | mem
  · exact digit_continues first
  · exact digit_continues (more d mem)

theorem scans_integer {n : Int64} {rest : List Char} {ss : List Terminal}
    (range : Int64.minValue < n) (h : Scans rest ss)
    (apart : endsClosed (integerText n) ∨ Breaks rest) :
    Scans ((integerText n).toList ++ rest) (integerTerminals n ++ ss) := by
  by_cases negative : n < 0
  · obtain ⟨m, small, value, text⟩ := integerText_of_neg negative range
    obtain ⟨c, run, spelled, first, _⟩ := toString_spelled m
    have last : ∀ c ∈ (integerText n).toList.getLast?, continuesWord c := by
      intro d hd
      refine toString_last m d ?_
      rw [text, String.toList_append, spelled] at hd
      rw [spelled]
      exact hd
    have digits := Scans.natural small h (breaks_of_last last apart)
    have calm : Calm ((toString m).toList ++ rest) := by
      rw [spelled]
      exact calm_word (digit_continues first)
    rw [text, integerTerminals, if_pos negative, ← value, String.toList_append, List.append_assoc]
    exact digits.mark .minus calm
  · obtain ⟨m, small, value, text⟩ := integerText_of_nonneg (Int64.not_lt.mp negative)
    rw [text] at apart
    rw [text, integerTerminals, if_neg negative, ← value]
    exact Scans.natural small h (breaks_of_last (toString_last m) apart)

theorem scans_names {ps : List String} {rest : List Char} {ss : List Terminal}
    (named : ps.all isName) (h : Scans rest ss) (breaks : Breaks rest) :
    Scans ((commaText ps).toList ++ rest) (nameTerminals ps ++ ss) := by
  induction ps with
  | nil => exact h
  | cons id ps ih =>
    simp only [List.all_cons, Bool.and_eq_true] at named
    cases ps with
    | nil => exact h.name named.1 breaks
    | cons next ps =>
      have more := (ih named.2).blank
      have comma : Scans (',' :: ' ' :: _) _ := more.mark .comma (calm_cons (by decide))
      simpa [commaText, nameTerminals] using comma.name named.1 (breaks_cons (by decide))

theorem calm_statements {ss : List Stmt} {rest : List Char} (each : eachEverywhere .printable ss)
    (calm : Calm rest) : Calm ((statementsText ss).toList ++ rest) := by
  cases ss with
  | nil => exact calm
  | cons s ss =>
    simp only [eachEverywhere, Bool.and_eq_true] at each
    have start := (s.startAlike_text each.1).append ((statementsText ss).toList ++ rest) []
    simpa [statementsText] using start.calm

theorem calm_args {xs : List Expr} {rest : List Char} (each : argsEverywhere .printable xs)
    (calm : Calm rest) : Calm ((argsText xs).toList ++ rest) := by
  cases xs with
  | nil => exact calm
  | cons x xs =>
    simp only [argsEverywhere, Bool.and_eq_true] at each
    have start := x.startAlike_text each.1
    cases xs with
    | nil => exact (start.append rest []).calm
    | cons y more =>
      have behind := start.append (',' :: ' ' :: ((argsText (y :: more)).toList ++ rest)) []
      simpa [argsText] using behind.calm

theorem calm_names {ps : List String} {rest : List Char} (named : ps.all isName)
    (calm : Calm rest) : Calm ((commaText ps).toList ++ rest) := by
  cases ps with
  | nil => exact calm
  | cons id ps =>
    simp only [List.all_cons, Bool.and_eq_true] at named
    obtain ⟨c, w, spelled, starts, _⟩ := isName_spelled named.1
    have word := startsWord_continues starts
    cases ps with
    | nil => simpa [commaText, spelled] using calm_word word
    | cons next ps => simpa [commaText, spelled] using calm_word word

/-- A bare expression ends closed, or nothing but the end of its list is behind it. -/
theorem endsClosed_of_stayApart {e : Expr} {ss : List Stmt} {rest : List Char}
    (h : stayApart (.expr e :: ss)) (breaks : Breaks rest) :
    endsClosed e.text ∨ Breaks ((statementsText ss).toList ++ rest) := by
  cases ss with
  | nil => exact .inr breaks
  | cons s ss =>
    simp only [stayApart, Bool.and_eq_true] at h
    exact .inl h.1.1

/-- The statements in braces, if they can stand before any text that no lexeme goes on with. -/
theorem scans_block {b : Block} {rest : List Char} {ss : List Terminal}
    (body : ∀ {rest ss}, Scans rest ss → Calm rest → Breaks rest →
      Scans ((statementsText b).toList ++ rest) (statementsTextTerminals b ++ ss))
    (scans : Scans rest ss) (calm : Calm rest) :
    Scans ('{' :: ' ' :: ((statementsText b).toList ++ ' ' :: '}' :: rest))
      (.mark .leftBrace :: (statementsTextTerminals b ++ .mark .rightBrace :: ss)) := by
  have close : Scans ('}' :: rest) _ := scans.mark .rightBrace calm
  have inner := body close.blank (calm_cons (by decide)) (breaks_cons rfl)
  exact inner.blank.mark .leftBrace (calm_cons (by decide))

mutual

/-- An expression before a text, if the text does not go on with its last lexeme. -/
theorem Expr.scans_text : ∀ e : Expr, e.everywhere .printable → ∀ {rest ss}, Scans rest ss →
    Calm rest → endsClosed e.text ∨ Breaks rest →
    Scans (e.text.toList ++ rest) (e.textTerminals ++ ss)
  | .name id, h, _, _, scans, _, apart => by
    simp only [Expr.everywhere, printable_onExpr] at h
    exact scans.name h.1 (breaks_of_last (isName_last h.1) apart)
  | .int n, h, _, _, scans, _, apart => by
    simp only [Expr.everywhere, printable_onExpr] at h
    exact scans_integer (of_decide_eq_true h.2) scans apart
  | .bool true, _, _, _, scans, _, apart =>
    scans.keyword .trueWord (breaks_of_last (by rintro _ ⟨⟩; rfl) apart)
  | .bool false, _, _, _, scans, _, apart =>
    scans.keyword .falseWord (breaks_of_last (by rintro _ ⟨⟩; rfl) apart)
  | .unary op operand, h, rest, ss, scans, calm, _ => by
    simp only [Expr.everywhere, Bool.and_eq_true] at h
    have close : Scans (')' :: rest) _ := scans.mark .rightParen calm
    have inner := operand.scans_text h.2 close (calm_cons (by decide)) (.inr (breaks_cons rfl))
    have sign := inner.mark op.mark ((operand.startAlike_text h.2).append _ ss).calm
    have calmSign : Calm (op.mark.spelling ++ (operand.text.toList ++ ')' :: rest)) := by
      cases op <;> exact calm_cons (by decide)
    have whole : Scans ('(' :: _) _ := sign.mark .leftParen calmSign
    simpa [Expr.text, Expr.textTerminals, op.text_toList] using whole
  | .binary left op right, h, rest, ss, scans, calm, _ => by
    simp only [Expr.everywhere, Bool.and_eq_true] at h
    have close : Scans (')' :: rest) _ := scans.mark .rightParen calm
    have second := right.scans_text h.2 close (calm_cons (by decide)) (.inr (breaks_cons rfl))
    have sign := (second.blank.mark op.mark (calm_cons (by decide))).blank
    have first := left.scans_text h.1.2 sign (calm_cons (by decide)) (.inr (breaks_cons rfl))
    have whole : Scans ('(' :: _) _ :=
      first.mark .leftParen ((left.startAlike_text h.1.2).append _ ss).calm
    simpa [Expr.text, Expr.textTerminals, op.text_toList] using whole
  | .cond test consequence alternative, h, rest, ss, scans, calm, apart => by
    simp only [Expr.everywhere, Bool.and_eq_true] at h
    obtain ⟨⟨⟨_, condition⟩, list, each⟩, other⟩ := h
    have last := scans_alternativeText alternative other scans calm
    have calmLast : Calm ((alternativeText alternative).toList ++ rest) := by
      cases alternative with
      | none => exact calm
      | some block => simpa [alternativeText] using @calm_cons ' ' _ (by decide)
    have block := scans_block (scans_statementsText consequence list each) last calmLast
    have close : Scans (')' :: _) _ := block.blank.mark .rightParen (calm_cons (by decide))
    have tested := test.scans_text condition close (calm_cons (by decide)) (.inr (breaks_cons rfl))
    have opened : Scans ('(' :: _) _ :=
      tested.mark .leftParen ((test.startAlike_text condition).append _ ss).calm
    have whole : Scans ('i' :: 'f' :: _) _ := opened.blank.keyword .ifWord (breaks_cons rfl)
    simpa [Expr.text, Expr.textTerminals] using whole
  | .routine role params body, h, rest, ss, scans, calm, _ => by
    simp only [Expr.everywhere, Bool.and_eq_true] at h
    obtain ⟨root, list, each⟩ := h
    have named := (printable_onExpr.mp root).1
    have block := scans_block (scans_statementsText body list each) scans calm
    have close : Scans (')' :: _) _ := block.blank.mark .rightParen (calm_cons (by decide))
    have names := scans_names named close (breaks_cons rfl)
    have opened : Scans ('(' :: _) _ :=
      names.mark .leftParen (calm_names named (calm_cons (by decide)))
    have whole := opened.keyword role.keyword (breaks_cons rfl)
    simpa [Expr.text, Expr.textTerminals, role.text_eq] using whole
  | .call callee args, h, rest, ss, scans, calm, _ => by
    simp only [Expr.everywhere, Bool.and_eq_true] at h
    have close : Scans (')' :: rest) _ := scans.mark .rightParen calm
    have arguments := scans_argsText args h.2 close (calm_cons (by decide)) (breaks_cons rfl)
    have opened : Scans ('(' :: _) _ := arguments.mark .leftParen
      (calm_args h.2 (calm_cons (by decide)))
    have whole := callee.scans_text h.1.2 opened (calm_cons (by decide)) (.inr (breaks_cons rfl))
    simpa [Expr.text, Expr.textTerminals] using whole

theorem scans_statementsText : ∀ ss : List Stmt, Test.printable.onList ss →
    eachEverywhere .printable ss → ∀ {rest us}, Scans rest us → Calm rest → Breaks rest →
    Scans ((statementsText ss).toList ++ rest) (statementsTextTerminals ss ++ us)
  | [], _, _, _, _, scans, _, _ => scans
  | .bind id value :: more, list, each, rest, us, scans, calm, breaks => by
    simp only [eachEverywhere, Bool.and_eq_true] at each
    obtain ⟨named, _, list⟩ := printable_cons list
    have behind := scans_statementsText more list each.2 scans calm breaks
    have semicolon : Scans (';' :: _) _ := behind.mark .semicolon (calm_statements each.2 calm)
    have valued :=
      value.scans_text each.1 semicolon (calm_cons (by decide)) (.inr (breaks_cons rfl))
    have sign : Scans ('=' :: _) _ := valued.blank.mark .equal (calm_cons (by decide))
    have name := sign.blank.name named (breaks_cons rfl)
    have whole : Scans ('l' :: 'e' :: 't' :: _) _ := name.blank.keyword .letWord (breaks_cons rfl)
    simpa [statementsText, Stmt.text, statementsTextTerminals, Stmt.textTerminals] using whole
  | .ret value :: more, list, each, rest, us, scans, calm, breaks => by
    simp only [eachEverywhere, Bool.and_eq_true] at each
    obtain ⟨_, _, list⟩ := printable_cons list
    have behind := scans_statementsText more list each.2 scans calm breaks
    have semicolon : Scans (';' :: _) _ := behind.mark .semicolon (calm_statements each.2 calm)
    have valued :=
      value.scans_text each.1 semicolon (calm_cons (by decide)) (.inr (breaks_cons rfl))
    have whole := valued.blank.keyword .returnWord (breaks_cons rfl)
    simpa [statementsText, Stmt.text, statementsTextTerminals, Stmt.textTerminals, Keyword.text]
      using whole
  | .expr value :: more, list, each, rest, us, scans, calm, breaks => by
    simp only [eachEverywhere, Bool.and_eq_true] at each
    obtain ⟨_, apart, list⟩ := printable_cons list
    have behind := scans_statementsText more list each.2 scans calm breaks
    have whole := value.scans_text each.1 behind (calm_statements each.2 calm)
      (endsClosed_of_stayApart apart breaks)
    simpa [statementsText, Stmt.text, statementsTextTerminals, Stmt.textTerminals] using whole

theorem scans_alternativeText : ∀ d : Option (List Stmt), alternativeEverywhere .printable d →
    ∀ {rest us}, Scans rest us → Calm rest →
    Scans ((alternativeText d).toList ++ rest) (alternativeTextTerminals d ++ us)
  | none, _, _, _, scans, _ => scans
  | some block, h, rest, us, scans, calm => by
    simp only [alternativeEverywhere, Bool.and_eq_true] at h
    have braces := scans_block (scans_statementsText block h.1 h.2) scans calm
    have whole : Scans ('e' :: 'l' :: 's' :: 'e' :: _) _ :=
      braces.blank.keyword .elseWord (breaks_cons rfl)
    simpa [alternativeText, alternativeTextTerminals] using whole.blank

theorem scans_argsText : ∀ xs : List Expr, argsEverywhere .printable xs → ∀ {rest us},
    Scans rest us → Calm rest → Breaks rest →
    Scans ((argsText xs).toList ++ rest) (argsTextTerminals xs ++ us)
  | [], _, _, _, scans, _, _ => scans
  | [x], each, _, _, scans, calm, breaks => by
    simp only [argsEverywhere, Bool.and_eq_true] at each
    exact x.scans_text each.1 scans calm (.inr breaks)
  | x :: y :: more, each, rest, us, scans, calm, breaks => by
    rw [argsEverywhere, Bool.and_eq_true] at each
    have behind := scans_argsText (y :: more) each.2 scans calm breaks
    have comma : Scans (',' :: _) _ := behind.blank.mark .comma (calm_cons (by decide))
    have whole := x.scans_text each.1 comma (calm_cons (by decide)) (.inr (breaks_cons rfl))
    simpa [argsText, argsTextTerminals] using whole

end

theorem Program.scans_text {p : Program} (h : p.everywhere .printable) :
    Scans p.text.toList (statementsTextTerminals p) := by
  simp only [Program.everywhere, Bool.and_eq_true] at h
  have scans := scans_statementsText p h.1 h.2 .nil (by rintro _ ⟨⟩) (by rintro _ ⟨⟩)
  simpa [Program.text] using scans

theorem Program.ofSource_of_printable {p : Program} (h : p.everywhere .printable) :
    Program.ofSource p.text = .ok p.withSigns := by
  obtain ⟨tokens, last, text, ends, terminals⟩ := (p.scans_text h).ofText
  simp only [Program.everywhere, Bool.and_eq_true] at h
  have spells := terminals ▸ spells_statementsText p h.1 h.2
  rw [Program.ofSource, text]
  simp only [spells.read ends, Except.mapError]

end Quasiquote
