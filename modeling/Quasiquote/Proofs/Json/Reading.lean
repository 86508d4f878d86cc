import Quasiquote.Proofs.Source.Scanning

/-!
# Reading JSON values

A text is read in two steps. `Json.symbols?` takes it apart into symbols, whatever layout stands
between them. A `Json.Building` is what the symbols so far have come to: the arrays and objects that
are open, and what is due in the innermost; it takes one symbol at a time.

* `Json.symbols`: the symbols of a value. Its text reads as these (`Json.reads_indented`), at any
  depth and before any text that does not go on with a word or a number.
* `Json.Building.run_value`: where a value is due, its symbols build it.
* `Json.ofText?_text`: a value is read from its text.
-/

namespace Quasiquote

namespace Json

/-! ## Symbols -/

/-- What a text consists of, but for layout. -/
inductive Symbol
  | openArray
  | closeArray
  | openObject
  | closeObject
  | comma
  | colon
  | null
  | bool (b : Bool)
  | int (n : Int)
  | string (s : String)

def Symbol.ofMark? : Char → Option Symbol
  | '[' => some .openArray
  | ']' => some .closeArray
  | '{' => some .openObject
  | '}' => some .closeObject
  | ',' => some .comma
  | ':' => some .colon
  | _ => none

def Symbol.ofWord? (word : String) : Option Symbol :=
  if word = "null" then some .null
  else if word = "true" then some (.bool true)
  else if word = "false" then some (.bool false)
  else none

def hexValue? (c : Char) : Option Nat := (List.range 16).find? fun n => hexDigit n == c

def hexNumber? (digits : List Char) : Option Nat :=
  digits.foldlM (fun n c => (hexValue? c).map (16 * n + ·)) 0

def unescape? : Char → Option Char
  | '"' => some '"'
  | '\\' => some '\\'
  | '/' => some '/'
  | 'n' => some '\n'
  | 'r' => some '\r'
  | 't' => some '\t'
  | 'b' => some (Char.ofNat 8)
  | 'f' => some (Char.ofNat 12)
  | _ => none

/-- The character that stands at the head of the text `c :: rest` inside quotes, and the text behind
it. -/
def readChar? (c : Char) (rest : List Char) : Option (Char × List Char) :=
  if c ≠ '\\' then some (c, rest)
  else
    match rest with
    | [] => none
    | 'u' :: rest => (hexNumber? (rest.take 4)).map fun n => (Char.ofNat n, rest.drop 4)
    | letter :: rest => (unescape? letter).map fun c => (c, rest)

theorem length_readChar?_le {c x : Char} {text rest : List Char}
    (h : readChar? c text = some (x, rest)) : rest.length ≤ text.length := by
  unfold readChar? at h
  grind [Option.map_eq_some_iff]

/-- The characters up to a closing quote, and the text behind it. -/
def readString? : List Char → Option (List Char × List Char)
  | [] => none
  | c :: text =>
    if c = '"' then some ([], text)
    else
      match _h : readChar? c text with
      | none => none
      | some (x, rest) => (readString? rest).map fun (cs, rest) => (x :: cs, rest)
termination_by text => text.length
decreasing_by exact Nat.lt_succ_of_le (length_readChar?_le _h)

theorem length_readString?_le {text cs rest : List Char} (h : readString? text = some (cs, rest)) :
    rest.length ≤ text.length := by
  fun_induction readString? text generalizing cs rest with
  | case1 => cases h
  | case2 => grind
  | case3 => cases h
  | case4 c text _ x rest' char ih =>
    obtain ⟨⟨cs', _⟩, read, ⟨⟩⟩ := Option.map_eq_some_iff.mp h
    exact Nat.le_succ_of_le ((ih read).trans (length_readChar?_le char))

/-- The symbol at the head of the text `c :: rest`, and the text behind it. -/
def readSymbol? (c : Char) (rest : List Char) : Option (Symbol × List Char) :=
  match Symbol.ofMark? c with
  | some s => some (s, rest)
  | none =>
    if c = '"' then (readString? rest).map fun (cs, rest) => (.string (.ofList cs), rest)
    else if c = '-' then
      some (.int (-decimalValue (rest.takeWhile Char.isDigit)), rest.dropWhile Char.isDigit)
    else if c.isDigit then
      some (.int (decimalValue (c :: rest.takeWhile Char.isDigit)), rest.dropWhile Char.isDigit)
    else
      (Symbol.ofWord? (.ofList (c :: rest.takeWhile continuesWord))).map fun s =>
        (s, rest.dropWhile continuesWord)

theorem length_readSymbol?_le {c : Char} {text rest : List Char} {s : Symbol}
    (h : readSymbol? c text = some (s, rest)) : rest.length ≤ text.length := by
  unfold readSymbol? at h
  split at h
  · cases h
    exact Nat.le_refl _
  split at h
  · obtain ⟨⟨cs, rest'⟩, read, ⟨⟩⟩ := Option.map_eq_some_iff.mp h
    exact length_readString?_le read
  split at h
  · cases h
    exact (List.dropWhile_suffix _).length_le
  split at h
  · cases h
    exact (List.dropWhile_suffix _).length_le
  · obtain ⟨s', -, ⟨⟩⟩ := Option.map_eq_some_iff.mp h
    exact (List.dropWhile_suffix _).length_le

def symbols? : List Char → Option (List Symbol)
  | [] => some []
  | c :: text =>
    if c.isWhitespace then symbols? text
    else
      match _h : readSymbol? c text with
      | none => none
      | some (s, rest) => (symbols? rest).map (s :: ·)
termination_by text => text.length
decreasing_by
  · exact Nat.lt_succ_self _
  · exact Nat.lt_succ_of_le (length_readSymbol?_le _h)

mutual

def symbols : Json → List Symbol
  | .null => [.null]
  | .bool b => [.bool b]
  | .int n => [.int n]
  | .string s => [.string s]
  | .array [] => [.openArray, .closeArray]
  | .array (x :: rest) => .openArray :: x.symbols ++ itemsSymbols rest ++ [.closeArray]
  | .object [] => [.openObject, .closeObject]
  | .object ((key, x) :: rest) =>
    .openObject :: .string key :: .colon :: x.symbols ++ membersSymbols rest ++ [.closeObject]

def itemsSymbols : List Json → List Symbol
  | [] => []
  | x :: rest => .comma :: x.symbols ++ itemsSymbols rest

def membersSymbols : List (String × Json) → List Symbol
  | [] => []
  | (key, x) :: rest => .comma :: .string key :: .colon :: x.symbols ++ membersSymbols rest

end

/-! ## The symbols of a text -/

theorem hexNumber?_small : ∀ n < 32,
    hexNumber? ['0', '0', hexDigit (n / 16), hexDigit (n % 16)] = some n := by decide

/-- An escaped character does not close the quotes, and is read back. -/
theorem escape_spelled (c : Char) : ∃ d more, escape c = d :: more ∧ d ≠ '"' ∧
    ∀ text, readChar? d (more ++ text) = some (c, text) := by
  have letter {d : Char} (other : d ≠ 'u') (h : unescape? d = some c) :
      '\\' ≠ '"' ∧ ∀ text, readChar? '\\' ([d] ++ text) = some (c, text) := by
    refine ⟨by decide, fun text => ?_⟩
    unfold readChar?
    grind
  unfold escape
  -- The quote, the backslash and the three characters of layout have letters of their own, then the
  -- two that are told by number. Behind these is what has no letter.
  split
  · next h => subst h; exact ⟨_, _, rfl, letter (by decide) rfl⟩
  split
  · next h => subst h; exact ⟨_, _, rfl, letter (by decide) rfl⟩
  split
  · next h => subst h; exact ⟨_, _, rfl, letter (by decide) rfl⟩
  split
  · next h => subst h; exact ⟨_, _, rfl, letter (by decide) rfl⟩
  split
  · next h => subst h; exact ⟨_, _, rfl, letter (by decide) rfl⟩
  split
  · next h => exact ⟨_, _, rfl, letter (by decide) (congrArg some (h ▸ c.ofNat_toNat))⟩
  split
  · next h => exact ⟨_, _, rfl, letter (by decide) (congrArg some (h ▸ c.ofNat_toNat))⟩
  split
  · next small =>
    refine ⟨_, _, rfl, by decide, fun text => ?_⟩
    simp [readChar?, hexNumber?_small _ small, Char.ofNat_toNat]
  · next quote backslash _ _ _ _ _ _ => exact ⟨_, _, rfl, quote, fun _ => if_pos backslash⟩

theorem readString?_char {c x : Char} {text rest : List Char} (inside : c ≠ '"')
    (read : readChar? c text = some (x, rest)) :
    readString? (c :: text) = (readString? rest).map fun (cs, rest) => (x :: cs, rest) := by
  rw [readString?, if_neg inside]
  split
  · next none => cases read.symm.trans none
  · next some =>
    cases read.symm.trans some
    rfl

theorem readString?_escape (cs rest : List Char) :
    readString? (cs.flatMap escape ++ '"' :: rest) = some (cs, rest) := by
  induction cs with
  | nil => simp [readString?]
  | cons c cs ih =>
    obtain ⟨d, more, spelled, inside, read⟩ := escape_spelled c
    rw [List.flatMap_cons, spelled, List.append_assoc, List.cons_append,
      readString?_char inside (read _), ih]
    rfl

/-- No layout, mark or quote starts like a word or a number. -/
theorem plain_of_continuesWord {c : Char} (h : continuesWord c) :
    c.isWhitespace = false ∧ Symbol.ofMark? c = none ∧ c ≠ '"' ∧ c ≠ '-' := by
  have ne {d : Char} : continuesWord d = false → c ≠ d := ne_of_continuesWord h
  refine ⟨?_, ?_, ne rfl, ne rfl⟩
  · simp only [Char.isWhitespace, Bool.or_eq_false_iff, decide_eq_false_iff_not]
    exact ⟨⟨⟨ne rfl, ne rfl⟩, ne rfl⟩, ne rfl⟩
  · unfold Symbol.ofMark?
    split <;> first | rfl | cases h

theorem Symbol.ofWord?_spelled {word : String} {s : Symbol} (h : Symbol.ofWord? word = some s) :
    ∃ c w, word.toList = c :: w ∧ startsWord c ∧ w.all continuesWord := by
  have known : word = "null" ∨ word = "true" ∨ word = "false" := by
    unfold ofWord? at h
    grind
  rcases known with rfl | rfl | rfl <;> exact ⟨_, _, rfl, rfl, rfl⟩

/-- The symbols of a text are these. -/
def Reads (text : List Char) (ss : List Symbol) : Prop := symbols? text = some ss

namespace Reads

variable {text rest : List Char} {ss : List Symbol}

theorem nil : Reads [] [] := by simp [Reads, symbols?]

theorem blank (h : Reads text ss) {c : Char} (blank : c.isWhitespace) : Reads (c :: text) ss := by
  rw [Reads, symbols?, if_pos blank, h]

theorem solid (h : Reads rest ss) {c : Char} {s : Symbol} (solid : c.isWhitespace = false)
    (read : readSymbol? c text = some (s, rest)) : Reads (c :: text) (s :: ss) := by
  rw [Reads, symbols?, if_neg (by simp [solid])]
  split
  · next none => cases read.symm.trans none
  · next some =>
    cases read.symm.trans some
    rw [h, Option.map_some]

theorem mark (h : Reads text ss) {c : Char} {s : Symbol} (mark : Symbol.ofMark? c = some s) :
    Reads (c :: text) (s :: ss) := by
  refine h.solid ?_ (by rw [readSymbol?, mark])
  unfold Symbol.ofMark? at mark
  split at mark <;> first | rfl | cases mark

theorem newline (h : Reads text ss) (depth : Nat) :
    Reads ((Json.newline depth).toList ++ text) ss := by
  simp only [Json.newline, String.toList_append, String.toList_ofList]
  refine Reads.blank ?_ rfl
  induction 2 * depth with
  | zero => exact h
  | succ n ih => exact ih.blank rfl

theorem quoted (h : Reads text ss) (s : String) :
    Reads ((Json.quoted s).toList ++ text) (.string s :: ss) := by
  have spelled : (Json.quoted s).toList ++ text =
      '"' :: (s.toList.flatMap escape ++ '"' :: text) := by
    simp [Json.quoted]
  rw [spelled]
  refine h.solid rfl ?_
  simp [readSymbol?, Symbol.ofMark?, readString?_escape]

theorem word (h : Reads text ss) (breaks : Breaks text) {word : String} {s : Symbol}
    (known : Symbol.ofWord? word = some s) : Reads (word.toList ++ text) (s :: ss) := by
  obtain ⟨c, w, spelled, starts, continues⟩ := Symbol.ofWord?_spelled known
  rw [← String.ofList_toList (s := word), spelled] at known
  rw [spelled]
  obtain ⟨solid, mark, quote, minus⟩ := plain_of_continuesWord (startsWord_continues starts)
  refine h.solid solid ?_
  have continues := List.all_eq_true.mp continues
  simp only [readSymbol?, mark, quote, minus, startsWord_not_digit starts, ↓reduceIte,
    Bool.false_eq_true, List.append_eq, takeWhile_run continues breaks,
    dropWhile_run continues breaks, known, Option.map_some]

theorem digits (h : Reads text ss) (breaks : Breaks text) {c : Char} {run : List Char}
    (first : c.isDigit) (more : ∀ d ∈ run, d.isDigit) :
    Reads (c :: run ++ text) (.int (decimalValue (c :: run)) :: ss) := by
  obtain ⟨solid, mark, quote, minus⟩ := plain_of_continuesWord (digit_continues first)
  refine h.solid solid ?_
  simp only [readSymbol?, mark, quote, minus, first, ↓reduceIte, List.append_eq,
    takeWhile_run more breaks.isDigit, dropWhile_run more breaks.isDigit]

theorem negated (h : Reads text ss) (breaks : Breaks text) {digits : List Char}
    (all : ∀ d ∈ digits, d.isDigit) :
    Reads ('-' :: digits ++ text) (.int (-decimalValue digits) :: ss) := by
  refine h.solid rfl ?_
  simp [readSymbol?, Symbol.ofMark?, takeWhile_run all breaks.isDigit,
    dropWhile_run all breaks.isDigit]

theorem integer (h : Reads text ss) (breaks : Breaks text) :
    ∀ n : Int, Reads ((toString n).toList ++ text) (.int n :: ss)
  | .ofNat n => by
    have value := decimalValue_toString n
    obtain ⟨c, run, spelled, first, more⟩ := toString_spelled n
    rw [spelled] at value
    have reads := h.digits breaks first more
    rwa [value, ← spelled] at reads
  | .negSucc n => by
    have sign : (toString (Int.negSucc n)).toList = '-' :: (toString (n + 1)).toList :=
      String.toList_append
    have value := decimalValue_toString (n + 1)
    obtain ⟨c, run, spelled, first, more⟩ := toString_spelled (n + 1)
    have reads := h.negated breaks (List.forall_mem_cons.mpr ⟨first, more⟩)
    rwa [← spelled, value, ← sign] at reads

end Reads

theorem breaks_newline (depth : Nat) (text : List Char) :
    Breaks ((newline depth).toList ++ text) := by
  rw [newline, String.toList_append]
  exact breaks_cons rfl

theorem breaks_itemsText (depth : Nat) {text : List Char} (h : Breaks text) :
    ∀ xs, Breaks ((itemsText depth xs).toList ++ text)
  | [] => h
  | _ :: _ => by
    simp only [itemsText, String.toList_append]
    exact breaks_cons rfl

theorem breaks_membersText (depth : Nat) {text : List Char} (h : Breaks text) :
    ∀ ms, Breaks ((membersText depth ms).toList ++ text)
  | [] => h
  | (_, _) :: _ => by
    simp only [membersText, String.toList_append]
    exact breaks_cons rfl

mutual

/-- A value's text reads as its symbols. -/
theorem reads_indented {text : List Char} {ss : List Symbol} (depth : Nat) (h : Reads text ss)
    (breaks : Breaks text) : ∀ j : Json, Reads ((j.indented depth).toList ++ text) (j.symbols ++ ss)
  | .null => h.word breaks rfl
  | .bool true => h.word breaks rfl
  | .bool false => h.word breaks rfl
  | .int n => h.integer breaks n
  | .string s => h.quoted s
  | .array [] => by simpa [indented, symbols] using (h.mark (c := ']') rfl).mark (c := '[') rfl
  | .array (x :: rest) => by
    have close := (h.mark (c := ']') rfl).newline depth
    have items := reads_itemsText (depth + 1) close (breaks_newline depth _) rest
    have first := reads_indented (depth + 1) items
      (breaks_itemsText _ (breaks_newline depth _) rest) x
    simpa [indented, symbols] using (first.newline (depth + 1)).mark (c := '[') rfl
  | .object [] => by
    simpa [indented, symbols] using (h.mark (c := '\x7d') rfl).mark (c := '\x7b') rfl
  | .object ((key, x) :: rest) => by
    have close := (h.mark (c := '\x7d') rfl).newline depth
    have members := reads_membersText (depth + 1) close (breaks_newline depth _) rest
    have first := reads_indented (depth + 1) members
      (breaks_membersText _ (breaks_newline depth _) rest) x
    have named := ((first.blank (c := ' ') rfl).mark (c := ':') rfl).quoted key
    simpa [indented, symbols] using (named.newline (depth + 1)).mark (c := '\x7b') rfl

theorem reads_itemsText {text : List Char} {ss : List Symbol} (depth : Nat) (h : Reads text ss)
    (breaks : Breaks text) :
    ∀ xs : List Json, Reads ((itemsText depth xs).toList ++ text) (itemsSymbols xs ++ ss)
  | [] => h
  | x :: rest => by
    have items := reads_itemsText depth h breaks rest
    have first := reads_indented depth items (breaks_itemsText depth breaks rest) x
    simpa [itemsText, itemsSymbols] using (first.newline depth).mark (c := ',') rfl

theorem reads_membersText {text : List Char} {ss : List Symbol} (depth : Nat) (h : Reads text ss)
    (breaks : Breaks text) : ∀ ms : List (String × Json),
      Reads ((membersText depth ms).toList ++ text) (membersSymbols ms ++ ss)
  | [] => h
  | (key, x) :: rest => by
    have members := reads_membersText depth h breaks rest
    have first := reads_indented depth members (breaks_membersText depth breaks rest) x
    have named := ((first.blank (c := ' ') rfl).mark (c := ':') rfl).quoted key
    simpa [membersText, membersSymbols] using (named.newline depth).mark (c := ',') rfl

end

/-! ## Building a value -/

/-- An array or an object of which a value is due. -/
inductive Open
  | array (done : List Json)
  | object (done : List (String × Json)) (key : String)

/-- What is due. Behind a value there may be a comma or the end of what it is in. -/
inductive Due
  | value
  | firstItem
  | firstKey
  | key (done : List (String × Json))
  | colon (done : List (String × Json)) (key : String)
  | follower (done : Json)

/-- What the symbols so far have come to: the arrays and objects that are open, the innermost first,
and what is due. -/
structure Building where
  outer : List Open
  due : Due

namespace Building

def takeValue (outer : List Open) : Symbol → Option Building
  | .openArray => some ⟨outer, .firstItem⟩
  | .openObject => some ⟨outer, .firstKey⟩
  | .null => some ⟨outer, .follower .null⟩
  | .bool b => some ⟨outer, .follower (.bool b)⟩
  | .int n => some ⟨outer, .follower (.int n)⟩
  | .string s => some ⟨outer, .follower (.string s)⟩
  | .closeArray | .closeObject | .comma | .colon => none

def takeFollower (x : Json) : List Open → Symbol → Option Building
  | .array done :: outer, .comma => some ⟨.array (done ++ [x]) :: outer, .value⟩
  | .array done :: outer, .closeArray => some ⟨outer, .follower (.array (done ++ [x]))⟩
  | .object done key :: outer, .comma => some ⟨outer, .key (done ++ [(key, x)])⟩
  | .object done key :: outer, .closeObject =>
    some ⟨outer, .follower (.object (done ++ [(key, x)]))⟩
  | _, _ => none

def take (b : Building) (s : Symbol) : Option Building :=
  match b.due, s with
  | .value, s => takeValue b.outer s
  | .firstItem, .closeArray => some ⟨b.outer, .follower (.array [])⟩
  | .firstItem, s => takeValue (.array [] :: b.outer) s
  | .firstKey, .closeObject => some ⟨b.outer, .follower (.object [])⟩
  | .firstKey, .string key => some ⟨b.outer, .colon [] key⟩
  | .key done, .string key => some ⟨b.outer, .colon done key⟩
  | .colon done key, .colon => some ⟨.object done key :: b.outer, .value⟩
  | .follower x, s => takeFollower x b.outer s
  | _, _ => none

/-- The value, if there is a whole one. -/
def finished? (b : Building) : Option Json :=
  match b.outer, b.due with
  | [], .follower x => some x
  | _, _ => none

def run (b : Building) (ss : List Symbol) : Option Building := ss.foldlM take b

theorem run_cons {b b' : Building} {s : Symbol} (h : b.take s = some b') (ss : List Symbol) :
    b.run (s :: ss) = b'.run ss := by
  simp [run, h]

/-- The first item of an array may stand where its end may. -/
theorem run_firstItem (outer : List Open) (x : Json) (ss : List Symbol) :
    (Building.mk outer .firstItem).run (x.symbols ++ ss) =
      (Building.mk (.array [] :: outer) .value).run (x.symbols ++ ss) := by
  have head : ∃ s more, x.symbols = s :: more ∧ s ≠ .closeArray := by
    unfold symbols
    split <;> exact ⟨_, _, rfl, nofun⟩
  obtain ⟨s, more, spelled, other⟩ := head
  rw [spelled, List.cons_append]
  have same : (Building.mk outer .firstItem).take s =
      (Building.mk (.array [] :: outer) .value).take s := by
    cases s <;> first | rfl | exact absurd rfl other
  simp only [run, List.foldlM_cons, same]

mutual

/-- Where a value is due, its symbols build it. -/
theorem run_value (outer : List Open) (ss : List Symbol) : ∀ x : Json,
    (Building.mk outer .value).run (x.symbols ++ ss) = (Building.mk outer (.follower x)).run ss
  | .null => rfl
  | .bool _ => rfl
  | .int _ => rfl
  | .string _ => rfl
  | .array [] => rfl
  | .array (x :: rest) => by
    have opened : (Building.mk outer .value).take .openArray = some ⟨outer, .firstItem⟩ := rfl
    rw [symbols, List.append_assoc, List.append_assoc, List.cons_append, run_cons opened,
      run_firstItem, run_value, List.singleton_append, run_items]
    rfl
  | .object [] => rfl
  | .object ((key, x) :: rest) => by
    rw [symbols, List.append_assoc, List.append_assoc, List.cons_append, List.cons_append,
      List.cons_append]
    calc (Building.mk outer .value).run (.openObject :: .string key :: .colon :: _)
      _ = (Building.mk (.object [] key :: outer) .value).run _ := rfl
      _ = _ := by rw [run_value, List.singleton_append, run_members]; rfl

theorem run_items (outer : List Open) (ss : List Symbol) : ∀ (rest done : List Json) (x : Json),
    (Building.mk (.array done :: outer) (.follower x)).run
        (itemsSymbols rest ++ .closeArray :: ss) =
      (Building.mk outer (.follower (.array (done ++ x :: rest)))).run ss
  | [], _, _ => rfl
  | y :: rest, done, x => by
    rw [itemsSymbols, List.append_assoc, List.cons_append]
    calc (Building.mk (.array done :: outer) (.follower x)).run (.comma :: _)
      _ = (Building.mk (.array (done ++ [x]) :: outer) .value).run _ := rfl
      _ = _ := by rw [run_value, run_items, List.append_assoc, List.singleton_append]

theorem run_members (outer : List Open) (ss : List Symbol) :
    ∀ (rest done : List (String × Json)) (key : String) (x : Json),
    (Building.mk (.object done key :: outer) (.follower x)).run
        (membersSymbols rest ++ .closeObject :: ss) =
      (Building.mk outer (.follower (.object (done ++ (key, x) :: rest)))).run ss
  | [], _, _, _ => rfl
  | (key', y) :: rest, done, key, x => by
    rw [membersSymbols, List.append_assoc, List.cons_append, List.cons_append, List.cons_append]
    calc (Building.mk (.object done key :: outer) (.follower x)).run
          (.comma :: .string key' :: .colon :: _)
      _ = (Building.mk (.object (done ++ [(key, x)]) key' :: outer) .value).run _ := rfl
      _ = _ := by rw [run_value, run_members, List.append_assoc, List.singleton_append]

end

end Building

def ofText? (text : String) : Option Json := do
  let ss ← symbols? text.toList
  let b ← (Building.mk [] .value).run ss
  b.finished?

theorem ofText?_text (document : Json) : ofText? document.text = some document := by
  have symbols := reads_indented 0 Reads.nil (by rintro _ ⟨⟩) document
  have built := Building.run_value [] [] document
  rw [List.append_nil, List.append_nil] at symbols
  rw [List.append_nil] at built
  unfold ofText?
  rw [show symbols? document.text.toList = some document.symbols from symbols, Option.bind_eq_bind,
    Option.bind_some, built]
  rfl

end Json

end Quasiquote
