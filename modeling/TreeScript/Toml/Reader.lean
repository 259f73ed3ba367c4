import TreeScript.Text.Reader
import TreeScript.Toml.Quoted
import TreeScript.Toml.Scalar

/-!
# Reading TOML

A TOML text is a sequence of statements, each on lines of its own: a header, which starts a table,
or a pair of a key and a value, which goes into the table started last.

* `value` reads a value; brackets nest up to a limit.
* `statement` reads a statement with the end of its line.
* `read` reads a whole text.

That a text is no TOML is all that is said about it: these readers give no reason.
-/

namespace TreeScript.Toml

/-- Takes a value off the front of a text. -/
abbrev Reader := Text.Reader Unit

/-! ## 1. Between values -/

/-- The text behind blanks within the line. -/
def skipSpace (cs : List Char) : List Char :=
  cs.dropWhile isSpace

/-- The text behind blanks, line ends and comments. -/
def skipFiller (cs : List Char) : List Char :=
  match cs with
  | [] => []
  | '\r' :: '\n' :: rest => skipFiller rest
  | '#' :: rest =>
    have := (List.dropWhile_suffix (l := rest) isTextChar).length_le
    skipFiller (rest.dropWhile isTextChar)
  | c :: rest => if isSpace c || c = '\n' then skipFiller rest else c :: rest
termination_by cs.length
decreasing_by all_goals simp only [List.length_cons]; omega

/-- The text behind the rest of a line that holds at most a comment. -/
def lineEnd? (cs : List Char) : Option (List Char) :=
  let rest :=
    match skipSpace cs with
    | '#' :: comment => comment.dropWhile isTextChar
    | rest => rest
  if rest.isEmpty then some [] else newline? rest

theorem skipSpace_le (cs : List Char) : (skipSpace cs).length ≤ cs.length :=
  (List.dropWhile_suffix isSpace).length_le

theorem skipFiller_le (cs : List Char) : (skipFiller cs).length ≤ cs.length := by
  fun_induction skipFiller cs <;> grind

theorem lineEnd?_le {cs rest : List Char} (h : lineEnd? cs = some rest) :
    rest.length ≤ cs.length := by
  have hspace := skipSpace_le cs
  unfold lineEnd? at h
  split at h
  next comment hc =>
    have := (List.dropWhile_suffix (l := comment) isTextChar).length_le
    grind [→ newline?_shorter]
  next => grind [→ newline?_shorter]

/-! ## 2. Keys -/

/-- Whether `c` may stand in a key without quotes. -/
def isKeyChar (c : Char) : Bool :=
  c.isAlphanum || c = '_' || c = '-'

def name? (cs : List Char) : Option (String × List Char) :=
  match cs with
  | [] => none
  | c :: rest =>
    if isKeyChar c then
      some (String.ofList (c :: rest.takeWhile isKeyChar), rest.dropWhile isKeyChar)
    else lineString? cs

theorem name?_shorter {cs rest : List Char} {s : String} (h : name? cs = some (s, rest)) :
    rest.length < cs.length := by
  unfold name? at h
  split at h
  next => cases h
  next c tail =>
    split at h
    next =>
      cases h
      have := (List.dropWhile_suffix (l := tail) isKeyChar).length_le
      simp only [List.length_cons]
      omega
    next => exact lineString?_shorter h

/-- Takes a key and the blanks around it. -/
def key? (cs : List Char) : Option (Key × List Char) :=
  match h : name? (skipSpace cs) with
  | none => none
  | some (name, rest) =>
    match hdot : skipSpace rest with
    | '.' :: more =>
      have := skipSpace_le cs
      have := skipSpace_le rest
      have := name?_shorter h
      have : more.length < rest.length := by grind
      match key? more with
      | none => none
      | some (key, rest) => some ({ key with path := name :: key.path }, rest)
    | rest => some (⟨[], name⟩, rest)
termination_by cs.length

/-- The most names a key may have. -/
def maxNames : Nat := 79

/-- Takes a key that is not too long. -/
def shortKey? (cs : List Char) : Option (Key × List Char) :=
  match key? cs with
  | some (key, rest) => if key.path.length < maxNames then some (key, rest) else none
  | none => none

theorem key?_shorter {cs rest : List Char} {key : Key} (h : key? cs = some (key, rest)) :
    rest.length < cs.length := by
  fun_induction key? cs generalizing key rest <;> grind [skipSpace_le, → name?_shorter]

theorem shortKey?_shorter {cs rest : List Char} {key : Key}
    (h : shortKey? cs = some (key, rest)) : rest.length < cs.length := by
  unfold shortKey? at h
  grind [→ key?_shorter]

/-! ## 3. Values without brackets -/

/-- Takes a value without quotes. A date and a time may be divided by a space. -/
def bareValue? (cs : List Char) : Option (Value × List Char) :=
  let token := cs.takeWhile isScalarChar
  let rest := cs.dropWhile isScalarChar
  match bare? token with
  | none => none
  | some (.dateTime (.day date)) =>
    match rest with
    | ' ' :: more =>
      match DateTime.atDate? date (more.takeWhile isScalarChar) with
      | some dateTime => some (.dateTime dateTime, more.dropWhile isScalarChar)
      | none => some (.dateTime (.day date), rest)
    | _ => some (.dateTime (.day date), rest)
  | some value => some (value, rest)

/-- Takes a value without brackets. -/
def scalar? (cs : List Char) : Option (Value × List Char) :=
  match cs with
  | [] => none
  | c :: _ =>
    if c = '"' ∨ c = '\'' then (anyString? cs).map fun (s, rest) => (.string s, rest)
    else bareValue? cs

theorem bare?_nil : bare? [] = none := rfl

theorem bareValue?_shorter {cs rest : List Char} {v : Value}
    (h : bareValue? cs = some (v, rest)) : rest.length < cs.length := by
  have hsplit : (cs.takeWhile isScalarChar ++ cs.dropWhile isScalarChar).length = cs.length := by
    rw [List.takeWhile_append_dropWhile]
  rw [List.length_append] at hsplit
  have htoken (value : Value) (hvalue : bare? (cs.takeWhile isScalarChar) = some value) :
      0 < (cs.takeWhile isScalarChar).length := by
    refine List.length_pos_iff.2 fun hnil => ?_
    rw [hnil, bare?_nil] at hvalue
    cases hvalue
  unfold bareValue? at h
  dsimp only at h
  split at h
  next => cases h
  next date hvalue =>
    have := htoken _ hvalue
    split at h
    next more hmore =>
      have := (List.dropWhile_suffix (l := more) isScalarChar).length_le
      grind
    next => grind
  next value _ hvalue =>
    have := htoken _ hvalue
    grind

theorem scalar?_shorter {cs rest : List Char} {v : Value} (h : scalar? cs = some (v, rest)) :
    rest.length < cs.length := by
  unfold scalar? at h
  split at h
  next => cases h
  next =>
    split at h
    next =>
      simp only [Option.map_eq_some_iff] at h
      obtain ⟨⟨s, rest'⟩, hs, h⟩ := h
      cases h
      exact anyString?_shorter hs
    next => exact bareValue?_shorter h

def readScalar (cs : List Char) : Except Unit (Value × List Char) :=
  match scalar? cs with
  | some read => .ok read
  | none => .error ()

theorem readScalar_shorter {cs rest : List Char} {v : Value}
    (h : readScalar cs = .ok (v, rest)) : rest.length < cs.length := by
  unfold readScalar at h
  split at h
  next read hread =>
    simp only [Except.ok.injEq] at h
    subst h
    exact scalar?_shorter hread
  next => cases h

def scalar : Reader Value where
  run := readScalar
  shorter := readScalar_shorter

/-! ## 4. Lists -/

/-- Takes the items of a list and its closing bracket. A comma may stand behind the last item. -/
def items (item : Reader Value) (cs : List Char) : Except Unit (List Value × List Char) :=
  match hitem : item.run cs with
  | .error e => .error e
  | .ok (v, rest) =>
    match hrest : skipFiller rest with
    | ']' :: after => .ok ([v], after)
    | ',' :: more =>
      match hmore : skipFiller more with
      | ']' :: after => .ok ([v], after)
      | next =>
        have : next.length < cs.length := by
          have := item.shorter hitem
          have := hrest ▸ skipFiller_le rest
          have := hmore ▸ skipFiller_le more
          simp only [List.length_cons] at *
          omega
        match items item next with
        | .error e => .error e
        | .ok (vs, rest) => .ok (v :: vs, rest)
    | _ => .error ()
termination_by cs.length

theorem items_shorter (item : Reader Value) {cs rest : List Char} {vs : List Value}
    (h : items item cs = .ok (vs, rest)) : rest.length < cs.length := by
  fun_induction items item cs generalizing vs rest <;>
    grind [skipFiller_le, → item.shorter]

/-- Takes a list, behind its opening bracket. -/
def listBody (item : Reader Value) (cs : List Char) : Except Unit (List Value × List Char) :=
  match skipFiller cs with
  | ']' :: rest => .ok ([], rest)
  | start => items item start

theorem listBody_shorter (item : Reader Value) {cs rest : List Char} {vs : List Value}
    (h : listBody item cs = .ok (vs, rest)) : rest.length < cs.length := by
  have := skipFiller_le cs
  unfold listBody at h
  grind [→ items_shorter]

/-! ## 5. Pairs and tables in braces -/

/-- Takes a key, an equals sign and a value. -/
def readPair (value : Reader Value) (cs : List Char) : Except Unit ((Key × Value) × List Char) :=
  match shortKey? cs with
  | some (key, '=' :: rest) =>
    match value.run (skipSpace rest) with
    | .ok (v, rest) => .ok ((key, v), rest)
    | .error e => .error e
  | _ => .error ()

theorem readPair_shorter (value : Reader Value) {cs rest : List Char} {a : Key × Value}
    (h : readPair value cs = .ok (a, rest)) : rest.length < cs.length := by
  unfold readPair at h
  grind [skipSpace_le, → shortKey?_shorter, → value.shorter]

def pair (value : Reader Value) : Reader (Key × Value) where
  run := readPair value
  shorter := readPair_shorter value

/-- Takes the pairs of a table in braces and its closing brace. There is no comma behind the last
pair. -/
def pairs (item : Reader (Key × Value)) (cs : List Char) :
    Except Unit (List (Key × Value) × List Char) :=
  match hitem : item.run cs with
  | .error e => .error e
  | .ok (v, rest) =>
    match hrest : skipSpace rest with
    | '\x7d' :: after => .ok ([v], after)
    | ',' :: next =>
      have : next.length < cs.length := by
        have := item.shorter hitem
        have := hrest ▸ skipSpace_le rest
        simp only [List.length_cons] at *
        omega
      match pairs item next with
      | .error e => .error e
      | .ok (vs, rest) => .ok (v :: vs, rest)
    | _ => .error ()
termination_by cs.length

theorem pairs_shorter (item : Reader (Key × Value)) {cs rest : List Char}
    {vs : List (Key × Value)} (h : pairs item cs = .ok (vs, rest)) :
    rest.length < cs.length := by
  fun_induction pairs item cs generalizing vs rest <;>
    grind [skipSpace_le, → item.shorter]

/-- Takes a table in braces, behind its opening brace. -/
def tableBody (item : Reader (Key × Value)) (cs : List Char) : Except Unit (Value × List Char) :=
  match skipSpace cs with
  | '\x7d' :: rest => .ok (.table .inline [], rest)
  | start =>
    match pairs item start with
    | .error e => .error e
    | .ok (vs, rest) =>
      match Entries.ofPairs? vs with
      | some table => .ok (table, rest)
      | none => .error ()

theorem tableBody_shorter (item : Reader (Key × Value)) {cs rest : List Char} {v : Value}
    (h : tableBody item cs = .ok (v, rest)) : rest.length < cs.length := by
  have := skipSpace_le cs
  unfold tableBody at h
  grind [→ pairs_shorter]

/-! ## 6. Values -/

/-- Takes a value whose items are read by `inner`. -/
def readBracketed (inner : Reader Value) (cs : List Char) : Except Unit (Value × List Char) :=
  match cs with
  | '[' :: rest =>
    match listBody inner rest with
    | .ok (vs, rest) => .ok (.array vs, rest)
    | .error e => .error e
  | '\x7b' :: rest => tableBody (pair inner) rest
  | _ => readScalar cs

theorem readBracketed_shorter (inner : Reader Value) {cs rest : List Char} {v : Value}
    (h : readBracketed inner cs = .ok (v, rest)) : rest.length < cs.length := by
  unfold readBracketed at h
  grind [→ listBody_shorter, → tableBody_shorter, → readScalar_shorter]

def bracketed (inner : Reader Value) : Reader Value where
  run := readBracketed inner
  shorter := readBracketed_shorter inner

/-- Reads a value in which at most `depth` brackets are open at once. -/
def value : Nat → Reader Value
  | 0 => scalar
  | depth + 1 => bracketed (value depth)

/-- The most brackets that may be open at once. -/
def maxDepth : Nat := 79

/-! ## 7. Statements -/

inductive Statement where
  /-- Starts a table. -/
  | table (key : Key)
  /-- Starts another one of several tables. -/
  | element (key : Key)
  /-- Adds a value to the table started last. -/
  | assign (key : Key) (value : Value)

/-- Takes a statement, without the end of its line. -/
def statementBody (cs : List Char) : Except Unit (Statement × List Char) :=
  match cs with
  | '[' :: '[' :: rest =>
    match shortKey? rest with
    | some (key, ']' :: ']' :: rest) => .ok (.element key, rest)
    | _ => .error ()
  | '[' :: rest =>
    match shortKey? rest with
    | some (key, ']' :: rest) => .ok (.table key, rest)
    | _ => .error ()
  | _ =>
    match (pair (value maxDepth)).run cs with
    | .ok ((key, v), rest) => .ok (.assign key v, rest)
    | .error e => .error e

theorem statementBody_shorter {cs rest : List Char} {s : Statement}
    (h : statementBody cs = .ok (s, rest)) : rest.length < cs.length := by
  unfold statementBody at h
  grind [→ shortKey?_shorter, → (pair (value maxDepth)).shorter]

/-- Takes a statement with the end of its line. -/
def readStatement (cs : List Char) : Except Unit (Statement × List Char) :=
  match statementBody cs with
  | .error e => .error e
  | .ok (s, rest) =>
    match lineEnd? rest with
    | some rest => .ok (s, rest)
    | none => .error ()

theorem readStatement_shorter {cs rest : List Char} {s : Statement}
    (h : readStatement cs = .ok (s, rest)) : rest.length < cs.length := by
  unfold readStatement at h
  grind [→ statementBody_shorter, → lineEnd?_le]

def statement : Reader Statement where
  run := readStatement
  shorter := readStatement_shorter

def statements (cs : List Char) : Except Unit (List Statement) :=
  match hstart : skipFiller cs with
  | [] => .ok []
  | c :: start =>
    match h : statement.run (c :: start) with
    | .error e => .error e
    | .ok (s, rest) =>
      have : rest.length < cs.length := by
        have := hstart ▸ skipFiller_le cs
        have := statement.shorter h
        omega
      match statements rest with
      | .error e => .error e
      | .ok ss => .ok (s :: ss)
termination_by cs.length

/-! ## 8. Documents -/

/-- A document under construction. -/
structure Draft where
  entries : Entries := []
  /-- The path of the table started last. -/
  table : List String := []

/-- Carries out a statement, unless it defines something twice. -/
def Draft.apply? (draft : Draft) : Statement → Option Draft
  | .table key =>
    (Entries.reach? false (Entries.startTable? key.name) key.path .header draft.entries).map
      fun reached => ⟨reached.2, key.path ++ [key.name]⟩
  | .element key =>
    (Entries.reach? false (Entries.startElement? key.name) key.path .header draft.entries).map
      fun reached => ⟨reached.2, key.path ++ [key.name]⟩
  | .assign key value =>
    (Entries.reach? false (Entries.put? key value) draft.table .header draft.entries).map
      fun reached => { draft with entries := reached.2 }

/-- The text without a byte order mark in front. -/
def dropMark : List Char → List Char
  | '\ufeff' :: cs => cs
  | cs => cs

/-- The entries of a TOML text; none if it is not TOML. -/
def read (text : List Char) : Option Entries :=
  match statements (dropMark text) with
  | .error _ => none
  | .ok ss => (ss.foldlM Draft.apply? {}).map Draft.entries

end TreeScript.Toml
