import Quasiquote.Proofs.Source.Munch

/-!
# Layout between tokens

Blanks, line ends and comments that are put between two tokens leave the tokens as they are.

* `Source.Edge`: the places where a token starts or ends.
* `readLexeme_behind`: a token is read alike whatever comes behind it, as long as that begins as
  before or with a blank.
* `Source.Edge.insert`: layout that is inserted at an edge moves what is behind it further down.
* `Token.ofText_insert`: so the tokens before it stay as they are, and those behind it change their
  lines only.
-/

namespace Quasiquote

/-- The places in what is left of a text where a token starts or ends: the tokens before the place,
and the text from there on. -/
inductive Source.Edge : Source → List Token → List Char → Prop
  | starts {s t : Source} {token : Token} (next : s.next? = some (.ok token, t)) :
      Edge s [] (token.lexeme.toList ++ t.rest)
  | ends {s t : Source} {token : Token} (next : s.next? = some (.ok token, t))
      (inner : token.kind ≠ .eof) : Edge s [token] t.rest
  | later {s t : Source} {token : Token} {before : List Token} {behind : List Char}
      (next : s.next? = some (.ok token, t)) (more : t.Edge before behind) :
      Edge s (token :: before) behind

/-! ## Layout behind layout -/

section
variable {last : Prop} {gap : List Char}

theorem Layout.weaken {last' : Prop} (layout : Layout last gap) (weaker : last → last') :
    Layout last' gap := by
  induction layout with
  | nil => exact .nil
  | blank blank _ ih => exact .blank blank ih
  | comment oneLine _ ih => exact .comment oneLine ih
  | lastComment atEnd oneLine => exact .lastComment (weaker atEnd) oneLine

theorem dropWhile_line {words : List Char} (oneLine : '\n' ∉ words) (text : List Char) :
    (words ++ '\n' :: text).dropWhile (· != '\n') = '\n' :: text := by
  refine dropWhile_run ?_ (by simp)
  intro c inside
  have other : c ≠ '\n' := by
    rintro rfl
    exact oneLine inside
  simpa using other

theorem dropWhile_lastLine {words : List Char} (oneLine : '\n' ∉ words) :
    words.dropWhile (· != '\n') = [] := by
  rw [List.dropWhile_eq_nil_iff]
  intro c inside
  have other : c ≠ '\n' := by
    rintro rfl
    exact oneLine inside
  simpa using other

/-- Behind the rest of a line, layout is layout again. -/
theorem Layout.behindLine (layout : Layout last gap) :
    Layout last (gap.dropWhile (· != '\n')) := by
  induction layout with
  | nil => exact .nil
  | @blank c text blank more ih =>
    by_cases ends : c = '\n'
    · subst ends
      exact .blank blank more
    · rwa [List.dropWhile_cons_of_pos (by simpa using ends)]
  | @comment words text oneLine more ih =>
    have whole : '\n' ∉ '/' :: '/' :: words := by simpa using oneLine
    rwa [dropWhile_line whole]
  | @lastComment words atEnd oneLine =>
    have whole : '\n' ∉ '/' :: '/' :: words := by simpa using oneLine
    rw [dropWhile_lastLine whole]
    exact .nil

/-- Layout behind layout is layout. A last comment takes up the line that it meets. -/
theorem Layout.append {more : List Char} (layout : Layout last gap) (others : Layout last more) :
    Layout last (gap ++ more) := by
  induction layout with
  | nil => exact others
  | blank blank _ ih => exact .blank blank ih
  | @comment words text oneLine _ ih =>
    have comment := Layout.comment oneLine ih
    rwa [List.append_assoc, List.cons_append]
  | @lastComment words atEnd oneLine =>
    have line := List.takeWhile_append_dropWhile (p := (· != '\n')) (l := more)
    have behind := others.behindLine
    have ended := List.head?_dropWhile_not (· != '\n') more
    have whole : '\n' ∉ words ++ more.takeWhile (· != '\n') := by
      intro inside
      rcases List.mem_append.mp inside with inside | inside
      · exact oneLine inside
      · simpa using List.mem_takeWhile_imp inside
    rw [← line]
    cases dropped : more.dropWhile (· != '\n') with
    | nil =>
      have comment := Layout.lastComment atEnd whole
      simpa using comment
    | cons c rest =>
      rw [dropped] at ended behind
      obtain rfl : c = '\n' := by simpa using ended
      have comment := Layout.comment whole behind
      simpa using comment

/-- Layout is skipped. Nothing can stand behind a last comment. -/
theorem Layout.skip {text : List Char} (layout : Layout last gap) (atEnd : last → text = [])
    (line : Nat) :
    skipLayout false line (gap ++ text) = skipLayout false (line + gap.count '\n') text := by
  induction layout generalizing line with
  | nil => rfl
  | @blank c gap blank _ ih =>
    by_cases ends : c = '\n'
    · subst ends
      rw [List.cons_append, skipLayout_lineEnd, ih, List.count_cons_self]
      congr 1
      omega
    · have same : isBlank c := by simpa [isBlank, ends, or_assoc] using blank
      rw [List.cons_append, skipLayout_blank line same, ih, List.count_cons_of_ne ends]
  | @comment words gap oneLine _ ih =>
    have whole : '\n' ∉ '/' :: '/' :: words := by simpa using oneLine
    have ends := dropWhile_line oneLine (gap ++ text)
    have here := ih line
    rw [List.count_append, List.count_eq_zero.mpr whole, Nat.zero_add, ← here]
    simp only [List.append_assoc, List.cons_append]
    rw [skipLayout_slashes, skipLayout_comment, ends]
  | @lastComment words ended oneLine =>
    have whole : '\n' ∉ '/' :: '/' :: words := by simpa using oneLine
    rw [atEnd ended, List.append_nil, List.count_eq_zero.mpr whole, skipLayout_slashes,
      skipLayout_comment, dropWhile_lastLine oneLine]
    rfl

end

/-! ## Tokens before layout -/

/-- The second text begins as the first does, or with a blank or a line end, or not at all. -/
def BeginsAlike (text other : List Char) : Prop :=
  ∀ c ∈ other.head?, text.head? = some c ∨ c ∈ [' ', '\t', '\r', '\n']

/-- A run of one class ends where it did, if blanks are not of that class. -/
theorem BeginsAlike.ends {p : Char → Bool} (blanks : ∀ c ∈ [' ', '\t', '\r', '\n'], p c = false)
    {text other : List Char} (apart : BeginsAlike (text.dropWhile p) other) :
    ∀ c ∈ other.head?, p c = false := by
  intro c first
  rcases apart c first with same | blank
  · have ended := List.head?_dropWhile_not p text
    rw [same] at ended
    exact ended
  · exact blanks c blank

theorem BeginsAlike.equal {behind behind' : List Char} (apart : BeginsAlike behind behind')
    (equal : ['='].isPrefixOf behind') : ['='].isPrefixOf behind := by
  cases behind' with
  | nil => cases equal
  | cons c rest =>
    obtain rfl : '=' = c := by simpa [List.isPrefixOf] using equal
    rcases apart '=' rfl with same | blank
    · obtain ⟨more, rfl⟩ := List.head?_eq_some_iff.mp same
      rfl
    · simp at blank

/-- A mark is found as before, if what comes behind it begins as before or with a blank. -/
theorem Mark.find?_behind {m : Mark} {behind behind' : List Char}
    (found :
      (Mark.all.find? fun other => other.spelling.isPrefixOf (m.spelling ++ behind)) = some m)
    (apart : BeginsAlike behind behind') :
    (Mark.all.find? fun other => other.spelling.isPrefixOf (m.spelling ++ behind')) = some m := by
  cases equal : ['='].isPrefixOf behind' with
  | false =>
    cases m <;> simp only [Mark.all, List.find?_cons] <;>
      simp [Mark.spelling, List.isPrefixOf, equal]
  | true =>
    have before := apart.equal equal
    cases m <;> simp only [Mark.all, List.find?_cons] at found ⊢ <;>
      simp [Mark.spelling, List.isPrefixOf, before] at found ⊢

/-- Where no mark stands, none stands if what comes behind the first character changes. -/
theorem Mark.none_behind {c : Char} {rest : List Char}
    (missed : (Mark.all.find? fun m => m.spelling.isPrefixOf (c :: rest)) = none)
    (other : List Char) : (Mark.all.find? fun m => m.spelling.isPrefixOf (c :: other)) = none := by
  rw [List.find?_eq_none] at missed ⊢
  intro m listed starts
  cases spelled : m.spelling with
  | nil => simpa [spelled] using m.spelling_length_pos
  | cons d tail =>
    obtain ⟨single, first⟩ := Mark.of_first spelled
    rw [spelled] at starts
    obtain rfl : d = c := by
      simp only [List.isPrefixOf, Bool.and_eq_true, beq_iff_eq] at starts
      exact starts.1
    apply missed single (by cases single <;> decide)
    simp [first, List.isPrefixOf]

theorem readLexeme_mark (line : Nat) {m : Mark} {c : Char} {tail text : List Char}
    (spelled : m.spelling = c :: tail)
    (found :
      (Mark.all.find? fun other => other.spelling.isPrefixOf (m.spelling ++ text)) = some m) :
    readLexeme line c (tail ++ text) =
      (.ok ⟨.mark m, String.ofList m.spelling, line⟩, text) := by
  have whole : m.spelling ++ text = c :: (tail ++ text) := by rw [spelled, List.cons_append]
  have dropped := @List.drop_left Char m.spelling text
  rw [whole] at found dropped
  simp only [readLexeme, found, dropped]

/-- A run of digits is read up to where it ends, by a word too. -/
theorem readLexeme_run (line : Nat) {c : Char} {run text : List Char} (first : c.isDigit)
    (more : ∀ d ∈ run, d.isDigit) (ends : ∀ d ∈ text.head?, d.isDigit = false) :
    readLexeme line c (run ++ text) = (integerToken line (c :: run), text) := by
  simp only [readLexeme, Mark.none_of_continuesWord (digit_continues first), first,
    takeWhile_run more ends, dropWhile_run more ends]
  rfl

theorem readLexeme_stray (line : Nat) {c : Char} {rest : List Char}
    (noMark : (Mark.all.find? fun m => m.spelling.isPrefixOf (c :: rest)) = none)
    (noDigit : ¬ c.isDigit) (noWord : ¬ startsWord c) (text : List Char) :
    readLexeme line c text = (.ok ⟨.illegal, String.singleton c, line⟩, text) := by
  simp only [readLexeme, Mark.none_behind noMark text, if_neg noDigit, if_neg noWord]

/-- A token is read as before, if what comes behind it begins as before or with a blank. -/
theorem readLexeme_behind {line : Nat} {c : Char} {rest behind behind' : List Char} {token : Token}
    (read : readLexeme line c rest = (.ok token, behind)) (apart : BeginsAlike behind behind') :
    ∃ tail, rest = tail ++ behind ∧
      readLexeme line c (tail ++ behind') = (.ok token, behind') := by
  simp only [readLexeme] at read
  split at read
  · next m found =>
    have starts := List.find?_some found
    obtain ⟨more, split⟩ := List.isPrefixOf_iff_prefix.mp starts
    rw [← split] at found
    rw [← split, List.drop_left] at read
    cases read
    have marks := Mark.find?_behind found apart
    cases spelled : m.spelling with
    | nil => simpa [spelled] using m.spelling_length_pos
    | cons d tail =>
      rw [spelled] at split
      obtain ⟨rfl, rfl⟩ := List.cons.inj split
      exact ⟨tail, rfl, by rw [← spelled]; exact readLexeme_mark line spelled marks⟩
  · next noMark =>
    split at read
    · next digit =>
      obtain ⟨token, rfl⟩ := Prod.mk.inj read
      refine ⟨rest.takeWhile Char.isDigit, List.takeWhile_append_dropWhile.symm, ?_⟩
      rw [← token]
      exact readLexeme_run line digit (fun _ => List.mem_takeWhile_imp)
        (apart.ends (by simp))
    · next noDigit =>
      split at read
      · next starts =>
        cases read
        refine ⟨rest.takeWhile continuesWord, List.takeWhile_append_dropWhile.symm, ?_⟩
        exact readLexeme_word line starts (fun _ => List.mem_takeWhile_imp)
          (apart.ends (by simp [continuesWord]))
      · next noWord =>
        cases read
        exact ⟨[], rfl, readLexeme_stray line noMark noDigit noWord behind'⟩

/-! ## Edges -/

/-- A text that goes on with layout begins as before, or with a blank. -/
theorem beginsAlike_append (start : List Char) {gap behind : List Char}
    (begins : ∃ c ∈ gap.head?, c ∈ [' ', '\t', '\r', '\n']) :
    BeginsAlike (start ++ behind) (start ++ (gap ++ behind)) := by
  intro c first
  cases start with
  | nil =>
    obtain ⟨d, head, blank⟩ := begins
    obtain ⟨rest, rfl⟩ := List.head?_eq_some_iff.mp head
    cases first
    exact .inr blank
  | cons d start => exact .inl first

namespace Source

variable {s t : Source} {token : Token} {before : List Token} {behind : List Char}

/-- The last item is the end of the text, and any other is a lexeme behind layout. -/
theorem next?_inv {item : Except LexicalError Token} (next : s.next? = some (item, t)) :
    s.ended = false ∧
      ((∃ line, skipLayout false s.line s.rest = (line, []) ∧ item = .ok ⟨.eof, "", line⟩ ∧
          t = ⟨[], line, true⟩) ∨
        ∃ line c rest left, skipLayout false s.line s.rest = (line, c :: rest) ∧
          readLexeme line c rest = (item, left) ∧ t = ⟨left, line, false⟩) := by
  unfold next? at next
  split at next
  · cases next
  · next more =>
    refine ⟨by simpa using more, ?_⟩
    split at next
    · next line skip =>
      cases next
      exact .inl ⟨line, skip, rfl, rfl⟩
    · next line c rest skip =>
      cases next
      exact .inr ⟨line, c, rest, _, skip, rfl, rfl⟩

theorem items_of_skip {text text' : List Char} {line line' : Nat}
    (same : skipLayout false line text = skipLayout false line' text') :
    (Source.mk text line false).items = (Source.mk text' line' false).items := by
  rw [items_eq, items_eq ⟨text', line', false⟩]
  simp only [next?, same]

theorem lexeme_split {line : Nat} {c : Char} {rest left : List Char}
    (read : readLexeme line c rest = (.ok token, left)) :
    c :: rest = token.lexeme.toList ++ left := by
  have split := (readLexeme_isLexeme line c rest).1.split
  rw [read] at split
  exact split

/-- What a token is taken from is layout, the token's slice and what is left. -/
theorem rest_of_next? (next : s.next? = some (.ok token, t)) :
    ∃ gap, Layout (token.lexeme.toList ++ t.rest = []) gap ∧
      s.rest = gap ++ (token.lexeme.toList ++ t.rest) := by
  obtain ⟨gap, split, layout⟩ := layout_skipLayout s.line s.rest
  obtain ⟨_, ⟨line, skip, ended, rfl⟩ | ⟨line, c, rest, left, skip, read, rfl⟩⟩ := next?_inv next
  · cases ended
    rw [skip] at split layout
    exact ⟨gap, layout, split⟩
  · rw [skip, lexeme_split read] at split layout
    exact ⟨gap, layout, split⟩

/-- A token is taken as before, if what is left begins as before or with a blank. -/
theorem next?_behind (next : s.next? = some (.ok token, t)) (more : t.ended = false)
    (apart : BeginsAlike t.rest behind) :
    ∃ gap, s.rest = gap ++ (token.lexeme.toList ++ t.rest) ∧
      (Source.mk (gap ++ (token.lexeme.toList ++ behind)) s.line false).next? =
        some (.ok token, ⟨behind, t.line, false⟩) := by
  obtain ⟨gap, layout, split⟩ := rest_of_next? next
  refine ⟨gap, split, ?_⟩
  obtain ⟨_, ⟨line, _, _, rfl⟩ | ⟨line, c, rest, left, skip, read, rfl⟩⟩ := next?_inv next
  · cases more
  obtain ⟨tail, rfl, again⟩ := readLexeme_behind read apart
  have other := head_skipLayout skip
  obtain ⟨solid, single⟩ := solid_skipLayout skip
  have notLast : ¬ token.lexeme.toList ++ left = [] := by
    rw [← lexeme_split read]
    exact List.cons_ne_nil _ _
  have single' : c = '/' → (tail ++ behind).head? ≠ some '/' := by
    intro slash second
    cases tail with
    | cons d tail => exact single slash second
    | nil =>
      rcases apart '/' second with same | blank
      · exact single slash same
      · simp at blank
  have skip' : skipLayout false s.line (gap ++ (token.lexeme.toList ++ behind)) =
      (line, c :: (tail ++ behind)) := by
    rw [split, layout.skip (absurd · notLast), ← lexeme_split read,
      skipLayout_solid _ other solid single] at skip
    obtain ⟨here, _⟩ := Prod.mk.inj skip
    rw [layout.skip (absurd · notLast), ← lexeme_split again,
      skipLayout_solid _ other solid single', here]
  simp only [next?, skip', again]
  rfl

/-- The text behind an edge is the end of what is left. -/
theorem Edge.suffix (edge : s.Edge before behind) : ∃ start, s.rest = start ++ behind := by
  induction edge with
  | starts next =>
    obtain ⟨gap, _, split⟩ := rest_of_next? next
    exact ⟨gap, split⟩
  | @ends s t token next =>
    obtain ⟨gap, _, split⟩ := rest_of_next? next
    exact ⟨gap ++ token.lexeme.toList, by rw [split, List.append_assoc]⟩
  | @later s t token before behind next _ ih =>
    obtain ⟨gap, _, split⟩ := rest_of_next? next
    obtain ⟨start, same⟩ := ih
    exact ⟨gap ++ (token.lexeme.toList ++ start), by simp [split, same]⟩

theorem Edge.ended (edge : s.Edge before behind) : s.ended = false := by
  cases edge with
  | starts next | ends next | later next => exact (next?_inv next).1

/-- Only the end of the text is the last token. -/
theorem ended_of_inner (next : s.next? = some (.ok token, t)) (inner : token.kind ≠ .eof) :
    t.ended = false := by
  obtain ⟨_, ⟨line, _, ended, _⟩ | ⟨line, c, rest, left, _, _, rfl⟩⟩ := next?_inv next
  · cases ended
    exact absurd rfl inner
  · rfl

/-- Layout that is inserted where a token starts or ends leaves what is before it as it is, and
moves what is behind it further down. -/
theorem Edge.insert {gap : List Char} (layout : Layout False gap)
    (begins : ∃ c ∈ gap.head?, c ∈ [' ', '\t', '\r', '\n']) (edge : s.Edge before behind)
    {start : List Char} (split : s.rest = start ++ behind) :
    ∃ items, s.items = before.map .ok ++ items ∧
      (Source.mk (start ++ (gap ++ behind)) s.line false).items =
        before.map .ok ++ items.map (itemBelow (gap.count '\n')) := by
  induction edge generalizing start with
  | @starts s t token next =>
    obtain ⟨first, layout', split'⟩ := rest_of_next? next
    obtain rfl : start = first := List.append_cancel_right (split.symm.trans split')
    obtain ⟨rest, line, ended⟩ := s
    obtain rfl : ended = false := (next?_inv next).1
    obtain rfl : rest = _ := split
    have whole := (layout'.append (layout.weaken False.elim)).skip id line
    rw [List.append_assoc, List.count_append, ← Nat.add_assoc] at whole
    refine ⟨_, (List.nil_append _).symm, ?_⟩
    rw [items_of_skip whole, items_of_skip (layout'.skip id line)]
    exact items_below _ _ _
  | @ends s t token next inner =>
    have more := ended_of_inner next inner
    have apart : BeginsAlike t.rest (gap ++ t.rest) := beginsAlike_append [] begins
    obtain ⟨first, split', next'⟩ := next?_behind next more apart
    have here : start = first ++ token.lexeme.toList := by
      rw [split, ← List.append_assoc] at split'
      exact List.append_cancel_right split'
    refine ⟨t.items, items_cons next, ?_⟩
    rw [here, List.append_assoc, items_cons next', items_of_skip (layout.skip False.elim t.line),
      items_below]
    obtain ⟨rest, line, ended⟩ := t
    obtain rfl : ended = false := more
    rfl
  | @later s t token before behind next more ih =>
    obtain ⟨inside, rest⟩ := more.suffix
    obtain ⟨items, same, moved⟩ := ih rest
    have apart : BeginsAlike t.rest (inside ++ (gap ++ behind)) := by
      rw [rest]
      exact beginsAlike_append inside begins
    obtain ⟨first, split', next'⟩ := next?_behind next more.ended apart
    have here : start = first ++ (token.lexeme.toList ++ inside) := by
      rw [split, rest, ← List.append_assoc, ← List.append_assoc] at split'
      rw [List.append_cancel_right split', List.append_assoc]
    refine ⟨items, ?_, ?_⟩
    · rw [items_cons next, same]
      rfl
    · have text : start ++ (gap ++ behind) =
          first ++ (token.lexeme.toList ++ (inside ++ (gap ++ behind))) := by simp [here]
      rw [text, items_cons next', moved]
      rfl

end Source

/-- The tokens of a text with layout inserted at an edge: those before it as they are, and those
behind it further down. -/
theorem Token.ofText_insert {start behind gap : String} {tokens before : List Token}
    (scanned : Token.ofText (start ++ behind) = .ok tokens)
    (edge : (Source.ofString (start ++ behind)).Edge before behind.toList)
    (layout : Layout False gap.toList)
    (begins : ∃ c ∈ gap.toList.head?, c ∈ [' ', '\t', '\r', '\n']) :
    ∃ after, tokens = before ++ after ∧
      Token.ofText (start ++ gap ++ behind) =
        .ok (before ++ after.map (Token.below (gap.toList.count '\n'))) := by
  have text : (start ++ gap ++ behind).toList = start.toList ++ (gap.toList ++ behind.toList) := by
    simp
  obtain ⟨items, same, moved⟩ := edge.insert layout begins (String.toList_append)
  rw [Token.ofText, allOrFirstError_eq_ok_iff, same] at scanned
  obtain ⟨before', after, rfl, eq, rfl⟩ := List.append_eq_map_iff.mp scanned
  obtain rfl : before = before' :=
    (List.map_injective_iff.mpr fun _ _ => Except.ok.inj) eq.symm
  refine ⟨after, rfl, ?_⟩
  rw [Token.ofText, allOrFirstError_eq_ok_iff, Source.ofString, text]
  refine moved.trans ?_
  simp [itemBelow, Function.comp_def]

end Quasiquote
