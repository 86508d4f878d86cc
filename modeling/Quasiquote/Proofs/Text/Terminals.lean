import Quasiquote.Proofs.Reading.Spelling
import Quasiquote.Proofs.Source.Scanning
import Quasiquote.Proofs.Syntax.Everywhere
import Quasiquote.Syntax.Text

/-!
# The terminals in the text of a tree

The text of a program says nothing between its statements, so it can be read back only where a
statement ends and the next one starts in a way that keeps them apart.

* `Test.named`, `Test.writable`, `Test.apart`: the names, the literals and the statements that a
  program may have in its text.
* `statementsTextTerminals`: what its terminals should be. `StartAlike` ties them to the text where
  both start.
* `spells_statementsText`: these terminals spell the program, with signs in place of negative
  literals.
-/

namespace Quasiquote

def Stmt.isNamed : Stmt → Bool
  | .bind id _ => isName id
  | _ => true

/-- Every name is a word that is no keyword. -/
def Test.named : Test where
  onExpr
    | .name id => isName id
    | .routine _ params _ => params.all isName
    | _ => true
  onList ss := ss.all Stmt.isNamed

/-- The digits of every literal are in range, and no negative literal is called. -/
def Test.writable : Test where
  onExpr
    | .int n => Int64.minValue < n
    | .call (.int n) _ => 0 ≤ n
    | _ => true
  onList _ := true

def endsClosed (text : String) : Bool := text.toList.getLast?.any fun c => c == ')' || c == '}'

def startsOpen (text : String) : Bool := text.toList.head?.any fun c => c == '(' || c == '-'

/-- Whether bare expressions stay apart from the statements behind them. -/
def stayApart : List Stmt → Bool
  | [] => true
  | [_] => true
  | .expr e :: s :: rest => endsClosed e.text && !startsOpen s.text && stayApart (s :: rest)
  | _ :: s :: rest => stayApart (s :: rest)

/-- Bare expressions stay apart from the statements behind them, in every block. -/
def Test.apart : Test where
  onExpr _ := true
  onList := stayApart

/-- All that the text of a program needs to be read back. -/
def Test.printable : Test := (Test.named.and .writable).and .apart

/-- What can be read: proper names, and literals without signs. -/
def Test.readable : Test := Test.named.and .unsigned

theorem printable_onExpr {e : Expr} :
    Test.printable.onExpr e ↔ Test.named.onExpr e ∧ Test.writable.onExpr e := by
  simp [Test.printable, Test.and, Test.apart]

theorem printable_onList {ss : List Stmt} :
    Test.printable.onList ss ↔ ss.all Stmt.isNamed ∧ stayApart ss := by
  simp only [Test.printable, Test.and, Test.apart, Test.named, Test.writable, Bool.and_true,
    Bool.and_eq_true]

theorem writable_of_unsigned : Test.Follows .unsigned .unsigned .writable := by
  have inRange {n : Int64} (h : Test.unsigned.onExpr (.int n)) : Int64.minValue < n := by
    have nonneg : 0 ≤ n.toInt := by simpa [Int64.le_iff_toInt_le] using of_decide_eq_true h
    rw [Int64.lt_iff_toInt_lt, Int64.toInt_minValue]
    omega
  refine ⟨fun e h _ => ?_, fun _ _ _ => rfl⟩
  cases e with
  | int n => exact decide_eq_true (inRange h)
  | call callee args =>
    simp only [Expr.everywhere, Bool.and_eq_true] at h
    cases callee with
    | int n => exact h.1.2
    | _ => rfl
  | _ => rfl

theorem readable_onExpr {e : Expr} :
    Test.readable.onExpr e ↔ Test.named.onExpr e ∧ Test.unsigned.onExpr e := Bool.and_eq_true_iff

theorem readable_onList {ss : List Stmt} : Test.readable.onList ss ↔ ss.all Stmt.isNamed := by
  simp only [Test.readable, Test.and, Test.named, Test.unsigned, Bool.and_true]

def integerTerminals (n : Int64) : List Terminal :=
  if n < 0 then [.mark .minus, .integer (-n)] else [.integer n]

def booleanTerminal : Bool → Terminal
  | true => .keyword .trueWord
  | false => .keyword .falseWord

mutual

def Expr.textTerminals : Expr → List Terminal
  | .name id => [.name id]
  | .int n => integerTerminals n
  | .bool b => [booleanTerminal b]
  | .unary op operand =>
    .mark .leftParen :: (.mark op.mark :: operand.textTerminals ++ [.mark .rightParen])
  | .binary left op right =>
    .mark .leftParen ::
      (left.textTerminals ++ .mark op.mark :: right.textTerminals ++ [.mark .rightParen])
  | .cond test consequence alternative =>
    .keyword .ifWord :: .mark .leftParen :: (test.textTerminals ++
      .mark .rightParen :: .mark .leftBrace :: (statementsTextTerminals consequence ++
        .mark .rightBrace :: alternativeTextTerminals alternative))
  | .routine role params body =>
    .keyword role.keyword :: .mark .leftParen :: (nameTerminals params ++ .mark .rightParen ::
      .mark .leftBrace :: (statementsTextTerminals body ++ [.mark .rightBrace]))
  | .call callee args =>
    callee.textTerminals ++ .mark .leftParen :: (argsTextTerminals args ++ [.mark .rightParen])

def Stmt.textTerminals : Stmt → List Terminal
  | .bind name value =>
    .keyword .letWord :: .name name :: .mark .equal :: (value.textTerminals ++ [.mark .semicolon])
  | .ret value => .keyword .returnWord :: (value.textTerminals ++ [.mark .semicolon])
  | .expr value => value.textTerminals

def statementsTextTerminals : List Stmt → List Terminal
  | [] => []
  | s :: rest => s.textTerminals ++ statementsTextTerminals rest

def alternativeTextTerminals : Option (List Stmt) → List Terminal
  | none => []
  | some block => .keyword .elseWord :: .mark .leftBrace ::
      (statementsTextTerminals block ++ [.mark .rightBrace])

def argsTextTerminals : List Expr → List Terminal
  | [] => []
  | [x] => x.textTerminals
  | x :: y :: rest => x.textTerminals ++ .mark .comma :: argsTextTerminals (y :: rest)

end

/-- How tightly the text of an expression holds together. -/
def Expr.textStrength : Expr → Nat
  | .int n => if n < 0 then 5 else 6
  | _ => 6

theorem Expr.le_textStrength (e : Expr) : 5 ≤ e.textStrength := by
  cases e with
  | int n =>
    by_cases negative : n < 0
    · exact Nat.le_of_eq (if_pos negative).symm
    · exact Nat.le_of_lt (Nat.lt_of_lt_of_eq (Nat.lt_succ_self 5) (if_neg negative).symm)
  | _ => exact Nat.le_succ 5

/-- A callee is no negative literal, so that a call in its text is a call of all of it. -/
theorem Expr.textStrength_callee {e : Expr} {args : List Expr}
    (h : Test.writable.onExpr (.call e args)) : e.textStrength = 6 := by
  cases e with
  | int n => exact if_neg (Int64.not_lt.mpr (of_decide_eq_true h))
  | _ => rfl

theorem spells_integerTerminals (n : Int64) :
    Spells (.operand (Expr.int n).textStrength (Expr.int n).signed) (integerTerminals n) := by
  by_cases negative : n < 0
  · simp only [Expr.textStrength, Expr.signed, integerTerminals, if_pos negative]
    exact Spells.unary .neg (.looser .int (Nat.le_succ 5))
  · simp only [Expr.textStrength, Expr.signed, integerTerminals, if_neg negative]
    exact .int

/-- A text and its terminals start alike: no mark before them goes on with the text, and a terminal
that could go on with a statement shows in the text. -/
def StartAlike (text : List Char) (ss : List Terminal) : Prop :=
  ∃ c cs t ts, text = c :: cs ∧ ss = t :: ts ∧ c ≠ '=' ∧ c ≠ '/' ∧
    (c = '(' ∨ c = '-' ∨ t.continues = false)

namespace StartAlike

variable {text : List Char} {ss : List Terminal}

theorem append (h : StartAlike text ss) (rest : List Char) (us : List Terminal) :
    StartAlike (text ++ rest) (ss ++ us) := by
  obtain ⟨c, cs, t, ts, rfl, rfl, h⟩ := h
  exact ⟨c, cs ++ rest, t, ts ++ us, rfl, rfl, h⟩

theorem calm (h : StartAlike text ss) : Calm text := by
  obtain ⟨c, cs, t, ts, rfl, rfl, noEqual, noSlash, _⟩ := h
  rintro _ ⟨⟩
  exact ⟨noEqual, noSlash⟩

theorem of_word {c : Char} {cs : List Char} {t : Terminal} {ts : List Terminal}
    (word : continuesWord c) (quiet : t.continues = false) : StartAlike (c :: cs) (t :: ts) := by
  refine ⟨c, cs, t, ts, rfl, rfl, ?_, ?_, .inr (.inr quiet)⟩
  · rintro rfl
    cases word
  · rintro rfl
    cases word

end StartAlike

theorem integerText_of_nonneg {n : Int64} (h : 0 ≤ n) :
    ∃ m : Nat, m < 2 ^ 63 ∧ Int64.ofNat m = n ∧ integerText n = toString m := by
  have nonneg : 0 ≤ n.toInt := by simpa [Int64.le_iff_toInt_le] using h
  obtain ⟨m, hm⟩ := Int.eq_ofNat_of_zero_le nonneg
  have high := n.toInt_lt
  have bound : m < 2 ^ 63 := by omega
  refine ⟨m, bound, ?_, ?_⟩
  · rw [← Int64.toInt_inj, Int64.toInt_ofNat_of_lt bound, hm]
  · rw [integerText, hm]
    rfl

theorem integerText_of_neg {n : Int64} (h : n < 0) (range : Int64.minValue < n) :
    ∃ m : Nat, m < 2 ^ 63 ∧ Int64.ofNat m = -n ∧ integerText n = "-" ++ toString m := by
  have negative : n.toInt < 0 := by simpa [Int64.lt_iff_toInt_lt] using h
  have low : -2 ^ 63 < n.toInt := by simpa [Int64.lt_iff_toInt_lt] using range
  obtain ⟨m, hm⟩ := Int.eq_negSucc_of_lt_zero negative
  have bound : m + 1 < 2 ^ 63 := by omega
  have value : n = -Int64.ofNat (m + 1) := by
    rw [← Int64.toInt_inj, Int64.toInt_neg_ofNat_of_le (Nat.le_of_lt bound), hm]
    rfl
  refine ⟨m + 1, bound, ?_, ?_⟩
  · rw [value, Int64.neg_neg]
  · rw [integerText, hm]
    rfl

theorem startAlike_integer {n : Int64} (range : Int64.minValue < n) :
    StartAlike (integerText n).toList (integerTerminals n) := by
  by_cases negative : n < 0
  · obtain ⟨m, _, _, text⟩ := integerText_of_neg negative range
    rw [text, integerTerminals, if_pos negative]
    exact ⟨'-', _, _, _, String.toList_append, rfl, by decide, by decide, .inr (.inl rfl)⟩
  · obtain ⟨m, _, _, text⟩ := integerText_of_nonneg (Int64.not_lt.mp negative)
    obtain ⟨c, run, spelled, first, _⟩ := toString_spelled m
    rw [text, spelled, integerTerminals, if_neg negative]
    exact .of_word (digit_continues first) rfl

theorem Expr.startAlike_text : ∀ e : Expr, e.everywhere .printable →
    StartAlike e.text.toList e.textTerminals
  | .name id, h => by
    simp only [Expr.everywhere, printable_onExpr] at h
    obtain ⟨c, w, spelled, starts, _⟩ := isName_spelled h.1
    simp only [Expr.text, spelled, Expr.textTerminals]
    exact .of_word (startsWord_continues starts) rfl
  | .int n, h => by
    simp only [Expr.everywhere, printable_onExpr] at h
    exact startAlike_integer (of_decide_eq_true h.2)
  | .bool true, _ => .of_word (c := 't') rfl rfl
  | .bool false, _ => .of_word (c := 'f') rfl rfl
  | .unary op operand, _ => by
    simp only [Expr.text, String.toList_append, List.append_assoc]
    exact ⟨'(', _, _, _, rfl, rfl, by decide, by decide, .inl rfl⟩
  | .binary left op right, _ => by
    simp only [Expr.text, String.toList_append, List.append_assoc]
    exact ⟨'(', _, _, _, rfl, rfl, by decide, by decide, .inl rfl⟩
  | .cond test consequence alternative, _ => by
    simp only [Expr.text, String.toList_append, List.append_assoc]
    exact .of_word (c := 'i') rfl rfl
  | .routine role params body, _ => by
    simp only [Expr.text, String.toList_append, List.append_assoc]
    cases role with
    | function => exact .of_word (c := 'f') rfl rfl
    | transformer => exact .of_word (c := 'm') rfl rfl
  | .call callee args, h => by
    simp only [Expr.everywhere, Bool.and_eq_true] at h
    have start := callee.startAlike_text h.1.2
    simpa [Expr.text, Expr.textTerminals] using start.append _ _

theorem Stmt.startAlike_text (s : Stmt) (h : s.everywhere .printable) :
    StartAlike s.text.toList s.textTerminals := by
  cases s with
  | bind name value =>
    simp only [Stmt.text, String.toList_append, List.append_assoc]
    exact .of_word (c := 'l') rfl rfl
  | ret value =>
    simp only [Stmt.text, String.toList_append, List.append_assoc]
    exact .of_word (c := 'r') rfl rfl
  | expr value => exact value.startAlike_text h

theorem stayApart_tail {s : Stmt} {rest : List Stmt} (h : stayApart (s :: rest)) :
    stayApart rest := by
  cases rest with
  | nil => rfl
  | cons next rest =>
    cases s with
    | expr e =>
      simp only [stayApart, Bool.and_eq_true] at h
      exact h.2
    | _ => exact h

theorem printable_cons {s : Stmt} {rest : List Stmt} (h : Test.printable.onList (s :: rest)) :
    s.isNamed ∧ stayApart (s :: rest) ∧ Test.printable.onList rest := by
  obtain ⟨named, apart⟩ := printable_onList.mp h
  simp only [List.all_cons, Bool.and_eq_true] at named
  exact ⟨named.1, apart, printable_onList.mpr ⟨named.2, stayApart_tail apart⟩⟩

/-- What is behind a bare expression does not go on with it. -/
theorem apart_of_stayApart {e : Expr} {rest : List Stmt} (h : stayApart (.expr e :: rest))
    (each : eachEverywhere .printable rest) : Apart (statementsTextTerminals rest) := by
  cases rest with
  | nil => nofun
  | cons s rest =>
    simp only [stayApart, Bool.and_eq_true] at h
    simp only [eachEverywhere, Bool.and_eq_true] at each
    obtain ⟨c, cs, t, ts, text, terminals, _, _, start⟩ := s.startAlike_text each.1
    have closed : (c == '(' || c == '-') = false := by
      simpa [startsOpen, text] using h.1.2
    simp only [Bool.or_eq_false_iff, beq_eq_false_iff_ne] at closed
    have quiet : t.continues = false := (start.resolve_left closed.1).resolve_left closed.2
    rw [statementsTextTerminals, terminals]
    rintro _ ⟨⟩
    exact quiet

mutual

theorem Expr.spells_text : ∀ e : Expr, e.everywhere .printable →
    Spells (.operand e.textStrength e.withSigns) e.textTerminals
  | .name _, _ => .name
  | .int n, _ => spells_integerTerminals n
  | .bool true, _ => .trueLit
  | .bool false, _ => .falseLit
  | .unary op operand, h => by
    simp only [Expr.everywhere, Bool.and_eq_true] at h
    have inner := Spells.unary op (.looser (operand.spells_text h.2) operand.le_textStrength)
    exact .group (.looser inner (Nat.zero_le _))
  | .binary left op right, h => by
    simp only [Expr.everywhere, Bool.and_eq_true] at h
    have bound := op.strength_lt
    have hl := Spells.looser (left.spells_text h.1.2)
      (Nat.le_trans (Nat.le_of_lt bound) left.le_textStrength)
    have hr := Spells.looser (right.spells_text h.2) (Nat.le_trans bound right.le_textStrength)
    change Spells (.operand 6 (.binary left.withSigns op right.withSigns)) _
    simpa [Expr.textTerminals] using Spells.group (.looser (.binary hl hr) (Nat.zero_le _))
  | .cond test consequence none, h => by
    simp only [Expr.everywhere, Bool.and_eq_true] at h
    obtain ⟨⟨⟨_, condition⟩, list, each⟩, _⟩ := h
    exact .cond (.looser (test.spells_text condition) (Nat.zero_le _))
      (spells_statementsText consequence list each)
  | .cond test consequence (some alternative), h => by
    simp only [Expr.everywhere, alternativeEverywhere, Bool.and_eq_true] at h
    obtain ⟨⟨⟨_, condition⟩, list, each⟩, list', each'⟩ := h
    exact .condElse (.looser (test.spells_text condition) (Nat.zero_le _))
      (spells_statementsText consequence list each) (spells_statementsText alternative list' each')
  | .routine _ params body, h => by
    simp only [Expr.everywhere, Bool.and_eq_true] at h
    exact .routine (derives_nameTerminals params) (spells_statementsText body h.2.1 h.2.2)
  | .call callee args, h => by
    simp only [Expr.everywhere, Bool.and_eq_true] at h
    obtain ⟨⟨root, hc⟩, each⟩ := h
    have whole := Expr.textStrength_callee (printable_onExpr.mp root).2
    have arguments := spells_argsText args each
    refine .call (whole ▸ callee.spells_text hc) ?_
    cases args with
    | nil => exact .noArgs
    | cons x rest => exact .someArgs (arguments (List.cons_ne_nil x rest))

/-- The text of each statement but a bare expression has a semicolon in it. -/
theorem spells_statementsText : ∀ p : Program, Test.printable.onList p →
    eachEverywhere .printable p → Spells (.statements p.withSigns) (statementsTextTerminals p)
  | [], _, _ => .noStatement
  | .bind id value :: rest, list, each => by
    simp only [eachEverywhere, Bool.and_eq_true] at each
    obtain ⟨_, _, list⟩ := printable_cons list
    have first := Spells.looser (value.spells_text each.1) (Nat.zero_le _)
    change Spells (.statements (.bind id value.withSigns :: Program.withSigns rest)) _
    simpa [statementsTextTerminals, Stmt.textTerminals] using
      Spells.ended (.binding first) (spells_statementsText rest list each.2)
  | .ret value :: rest, list, each => by
    simp only [eachEverywhere, Bool.and_eq_true] at each
    obtain ⟨_, _, list⟩ := printable_cons list
    have first := Spells.looser (value.spells_text each.1) (Nat.zero_le _)
    change Spells (.statements (.ret value.withSigns :: Program.withSigns rest)) _
    simpa [statementsTextTerminals, Stmt.textTerminals] using
      Spells.ended (.ret first) (spells_statementsText rest list each.2)
  | .expr value :: rest, list, each => by
    simp only [eachEverywhere, Bool.and_eq_true] at each
    obtain ⟨_, apart, list⟩ := printable_cons list
    have first := Spells.looser (value.spells_text each.1) (Nat.zero_le _)
    exact .unended (.bare first) (apart_of_stayApart apart each.2)
      (spells_statementsText rest list each.2)

theorem spells_argsText : ∀ xs : List Expr, argsEverywhere .printable xs → xs ≠ [] →
    Spells (.args (argsWithSigns xs)) (argsTextTerminals xs)
  | [x], each, _ => by
    simp only [argsEverywhere, Bool.and_eq_true] at each
    exact .lastArg (.looser (x.spells_text each.1) (Nat.zero_le _))
  | x :: y :: rest, each, _ => by
    rw [argsEverywhere, Bool.and_eq_true] at each
    exact .moreArgs (.looser (x.spells_text each.1) (Nat.zero_le _))
      (spells_argsText (y :: rest) each.2 (List.cons_ne_nil y rest))

end

end Quasiquote
