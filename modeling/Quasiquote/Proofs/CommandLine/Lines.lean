import Mathlib
import Quasiquote.Repl

/-!
# Texts without some of their lines

* `select`: the entries at chosen places of a list.
* `Repl.keepLines`: the lines at chosen places of a text, each with its end.
  `Repl.lines_keepLines`: these are its lines then.
-/

namespace Quasiquote

/-- The entries at chosen places of a list. -/
def select {α : Type} (keep : Nat → Bool) : List α → List α
  | [] => []
  | x :: rest =>
    if keep 0 then x :: select (fun i => keep (i + 1)) rest
    else select (fun i => keep (i + 1)) rest

theorem map_select {α β : Type} (keep : Nat → Bool) (f : α → β) (xs : List α) :
    (select keep xs).map f = select keep (xs.map f) := by
  induction xs generalizing keep with
  | nil => rfl
  | cons x rest ih => cases kept : keep 0 <;> simp [select, kept, ih]

theorem join_select {keep : Nat → Bool} {texts : List String}
    (empty : ∀ i text, keep i = false → texts[i]? = some text → text = "") :
    String.join (select keep texts) = String.join texts := by
  induction texts generalizing keep with
  | nil => rfl
  | cons text rest ih =>
    have others := ih fun i => empty (i + 1)
    cases kept : keep 0 with
    | true => simp [select, kept, others]
    | false => simp [select, kept, others, empty 0 text kept rfl]

namespace Repl

/-- The lines at chosen places of a text, each with its end, behind the part of a line that was
already read, its latest character first. -/
def keepBehind (keep : Nat → Bool) (begun : List Char) : List Char → List Char
  | [] => if keep 0 then begun.reverse else []
  | c :: rest =>
    if c = '\n' then
      (if keep 0 then (c :: begun).reverse else []) ++ keepBehind (fun i => keep (i + 1)) [] rest
    else keepBehind keep (c :: begun) rest

def keepLines (keep : Nat → Bool) (text : String) : String :=
  String.ofList (keepBehind keep [] text.toList)

theorem linesBehind_open (begun : List Char) {line : List Char} (inside : '\n' ∉ line)
    (rest : List Char) :
    linesBehind begun (line ++ rest) = linesBehind (line.reverse ++ begun) rest := by
  induction line generalizing begun with
  | nil => rfl
  | cons c line ih =>
    simp only [List.mem_cons, not_or] at inside
    have other : c ≠ '\n' := Ne.symm inside.1
    rw [List.cons_append, linesBehind, if_neg other, ih _ inside.2]
    simp

theorem linesBehind_keepBehind {begun : List Char} (inside : '\n' ∉ begun) (keep : Nat → Bool)
    (text : List Char) :
    linesBehind [] (keepBehind keep begun text) = select keep (linesBehind begun text) := by
  have inside' {line : List Char} (h : '\n' ∉ line) : '\n' ∉ line.reverse := by simpa using h
  induction text generalizing begun keep with
  | nil =>
    by_cases none : begun = []
    · subst none
      simp [keepBehind, linesBehind, select]
    · have last : linesBehind [] begun.reverse = [String.ofList begun.reverse] := by
        simpa [linesBehind, none] using linesBehind_open [] (inside' inside) []
      cases kept : keep 0 with
      | false => simp [keepBehind, linesBehind, select, kept, none]
      | true => simp [keepBehind, linesBehind, select, kept, none, last]
  | cons c rest ih =>
    by_cases ends : c = '\n'
    · subst ends
      cases kept : keep 0 with
      | false =>
        simp only [keepBehind, linesBehind, select, kept, ↓reduceIte, Bool.false_eq_true,
          List.nil_append]
        exact ih (by simp) _
      | true =>
        simp only [keepBehind, linesBehind, select, kept, ↓reduceIte, List.reverse_cons,
          List.append_assoc]
        rw [linesBehind_open [] (inside' inside)]
        simp only [List.reverse_reverse, List.append_nil, List.singleton_append, linesBehind,
          ↓reduceIte]
        rw [ih (by simp)]
    · simp only [keepBehind, linesBehind, if_neg ends]
      apply ih
      simp [inside, Ne.symm ends]

/-- The lines of a text with only some of its lines are these lines. -/
theorem lines_keepLines (keep : Nat → Bool) (text : String) :
    lines (keepLines keep text) = select keep (lines text) := by
  rw [lines, keepLines, String.toList_ofList]
  exact linesBehind_keepBehind (by simp) keep text.toList

end Repl

end Quasiquote
