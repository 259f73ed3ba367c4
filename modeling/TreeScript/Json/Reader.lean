import TreeScript.Json.Skip
import TreeScript.Text.Reader

/-!
# Readers of JSON values

A reader takes a value of one shape off a JSON text in a single pass, so of several faults the
first one in the text is reported. The shapes are strings, naturals, optional values, lists, maps,
records and variants. Brackets may be nested only to a given depth.

* A record is an object of named fields or a list of its fields in order; unknown fields are
  skipped.
* A variant is a name, or an object with the name as its only key.
-/

namespace TreeScript.Json

/-- Takes a value off the front of a JSON text. -/
abbrev Reader (α : Type) := TreeScript.Text.Reader Fault α

/-- How many brackets may be open at once. -/
def maxDepth : Nat := 127

/-! ## 1. Values of another type -/

/-- The fault of a value that was found before `rest`, or of reading it. -/
def misplaced (expected : String) : Except Fault (Found × List Char) → Fault
  | .ok (found, rest) => .here (.wrongType found expected) rest
  | .error fault => fault

/-- The fault of a text that does not start with a value of the expected type. -/
def wrongType (expected : String) (cs : List Char) : Fault :=
  match cs with
  | [] => .here .endInValue []
  | c :: rest =>
    match c with
    -- a scalar is read to its end before its type counts
    | 'n' => misplaced expected ((skipWord ['u', 'l', 'l'] rest).map (.null, ·))
    | 't' => misplaced expected ((skipWord ['r', 'u', 'e'] rest).map (.boolean true, ·))
    | 'f' => misplaced expected ((skipWord ['a', 'l', 's', 'e'] rest).map (.boolean false, ·))
    | '-' => misplaced expected ((readNumber false rest).map fun p => (p.1.found, p.2))
    | '"' => misplaced expected ((readString rest).map fun p => (.string p.1, p.2))
    -- a bracket is not entered
    | '[' => .here (.wrongType .sequence expected) cs
    | '\x7b' => .here (.wrongType .map expected) cs
    | c =>
      if c.isDigit then misplaced expected ((readNumber true cs).map fun p => (p.1.found, p.2))
      else .ahead .expectedValue cs

/-! ## 2. Scalars -/

def readQuoted (cs : List Char) : Except Fault (String × List Char) :=
  match skipBlank cs with
  | [] => .error (.here .endInValue [])
  | c :: rest => if c = '"' then readString rest else .error (wrongType "a string" (c :: rest))

theorem readQuoted_shorter {cs rest : List Char} {s : String}
    (h : readQuoted cs = .ok (s, rest)) : rest.length < cs.length := by
  unfold readQuoted at h
  grind [length_skipBlank_le, → readString_shorter]

def string : Reader String where
  run := readQuoted
  shorter := readQuoted_shorter

def readNull (cs : List Char) : Except Fault (Unit × List Char) :=
  match skipBlank cs with
  | [] => .error (.here .endInValue [])
  | c :: rest =>
    if c = 'n' then
      match skipWord ['u', 'l', 'l'] rest with
      | .ok rest => .ok ((), rest)
      | .error e => .error e
    else .error (wrongType "unit" (c :: rest))

theorem readNull_shorter {cs rest : List Char} {a : Unit}
    (h : readNull cs = .ok (a, rest)) : rest.length < cs.length := by
  unfold readNull at h
  grind [length_skipBlank_le, → skipWord_le]

def null : Reader Unit where
  run := readNull
  shorter := readNull_shorter

/-- The natural that a number stands for, if it is at most `limit`. -/
def naturalOf (expected : String) (limit : Nat) : Number → Except Cause Nat
  | .integer (.ofNat n) =>
    if n ≤ limit then .ok n else .error (.wrongValue (.integer n) expected)
  | .integer value => .error (.wrongValue (.integer value) expected)
  | .float value => .error (.wrongType (.float (floatText value)) expected)

/-- Takes a natural up to `limit`. -/
def readNatural (expected : String) (limit : Nat) (cs : List Char) :
    Except Fault (Nat × List Char) :=
  match skipBlank cs with
  | [] => .error (.here .endInValue [])
  | c :: rest =>
    let number :=
      if c = '-' then readNumber false rest
      else if c.isDigit then readNumber true (c :: rest)
      else .error (wrongType expected (c :: rest))
    match number with
    | .error e => .error e
    | .ok (value, rest) =>
      match naturalOf expected limit value with
      | .ok n => .ok (n, rest)
      | .error cause => .error (.here cause rest)

theorem readNatural_shorter (expected : String) (limit : Nat) {cs rest : List Char} {a : Nat}
    (h : readNatural expected limit cs = .ok (a, rest)) : rest.length < cs.length := by
  unfold readNatural at h
  grind [length_skipBlank_le, → readNumber_shorter]

def natural (expected : String) (limit : Nat) : Reader Nat where
  run := readNatural expected limit
  shorter := readNatural_shorter expected limit

/-- Takes `null` as nothing and any other value by `reader`. -/
def readOptional {α : Type} (reader : Reader α) (cs : List Char) :
    Except Fault (Option α × List Char) :=
  match skipBlank cs with
  | 'n' :: rest =>
    match skipWord ['u', 'l', 'l'] rest with
    | .ok rest => .ok (none, rest)
    | .error e => .error e
  | _ => (reader.map some).run cs

theorem readOptional_shorter {α : Type} (reader : Reader α) {cs rest : List Char} {a : Option α}
    (h : readOptional reader cs = .ok (a, rest)) : rest.length < cs.length := by
  unfold readOptional at h
  have := length_skipBlank_le cs
  split at h
  next heq =>
    rw [heq] at this
    split at h
    next hword => cases h; have := skipWord_le hword; simp only [List.length_cons] at *; omega
    next => cases h
  next => exact (reader.map some).shorter h

def optional {α : Type} (reader : Reader α) : Reader (Option α) where
  run := readOptional reader
  shorter := readOptional_shorter reader

/-! ## 3. Lists -/

/-- Reads the items of a list from the next one on, up to the closing bracket; `read` holds those
before it in reverse. -/
def readItems {α : Type} (item : Reader α) (read : List α) (cs : List Char) :
    Except Fault (List α × List Char) :=
  match h : item.run cs with
  | .error e => .error e
  | .ok (a, rest) =>
    have := item.shorter h
    match hrest : skipBlank rest with
    | [] => .error (.here .endInList [])
    | c :: rest' =>
      have := hrest ▸ length_skipBlank_le rest
      if c = ']' then .ok ((a :: read).reverse, rest')
      else if c = ',' then
        match hnext : skipBlank rest' with
        | [] => .error (.here .endInValue [])
        | d :: rest'' =>
          have := hnext ▸ length_skipBlank_le rest'
          if d = ']' then .error (.ahead .trailingComma (d :: rest''))
          else readItems item (a :: read) (d :: rest'')
      else .error (.ahead .expectedListEnd (c :: rest'))
termination_by cs.length
decreasing_by simp only [List.length_cons] at *; omega

theorem readItems_shorter {α : Type} {item : Reader α} {read items : List α}
    {cs rest : List Char} (h : readItems item read cs = .ok (items, rest)) :
    rest.length < cs.length := by
  fun_induction readItems item read cs <;> grind

/-- Takes a list, if a bracket may still be opened. -/
def readList {α : Type} (depth : Nat) (item : Reader α) (cs : List Char) :
    Except Fault (List α × List Char) :=
  match skipBlank cs with
  | [] => .error (.here .endInValue [])
  | c :: rest =>
    if c = '[' then
      if depth = 0 then .error (.ahead .tooDeep (c :: rest))
      else
        match skipBlank rest with
        | [] => .error (.here .endInList [])
        | d :: rest' => if d = ']' then .ok ([], rest') else readItems item [] (d :: rest')
    else .error (wrongType "a sequence" (c :: rest))

theorem readList_shorter {α : Type} (depth : Nat) (item : Reader α) {cs rest : List Char}
    {a : List α} (h : readList depth item cs = .ok (a, rest)) : rest.length < cs.length := by
  unfold readList at h
  grind [length_skipBlank_le, → readItems_shorter]

def list {α : Type} (depth : Nat) (item : Reader α) : Reader (List α) where
  run := readList depth item
  shorter := readList_shorter depth item

/-! ## 4. Objects -/

/-- Reads the colon and value of a member into what was collected so far. -/
structure Member (σ : Type) where
  /-- Takes the key and the text behind it. -/
  run : σ → String → List Char → Except Fault (σ × List Char)
  /-- What is left is shorter than what was given. -/
  shorter : ∀ {s s' : σ} {key : String} {cs rest : List Char},
    run s key cs = .ok (s', rest) → rest.length < cs.length

/-- Reads members from the opening quote of the next key on, up to the closing bracket. -/
def readMembers {σ : Type} (member : Member σ) (s : σ) (cs : List Char) :
    Except Fault (σ × List Char) :=
  match hkey : readString cs with
  | .error e => .error e
  | .ok (key, rest) =>
    have := readString_shorter hkey
    match hmember : member.run s key rest with
    | .error e => .error e
    | .ok (s', rest') =>
      have := member.shorter hmember
      match hrest : skipBlank rest' with
      | [] => .error (.here .endInObject [])
      | c :: after =>
        have := hrest ▸ length_skipBlank_le rest'
        if c = '\x7d' then .ok (s', after)
        else if c = ',' then
          match hnext : skipBlank after with
          | [] => .error (.here .endInValue [])
          | d :: after' =>
            have := hnext ▸ length_skipBlank_le after
            if d = '"' then readMembers member s' after'
            else if d = '\x7d' then .error (.ahead .trailingComma (d :: after'))
            else .error (.ahead .keyMustBeString (d :: after'))
        else .error (.ahead .expectedObjectEnd (c :: after))
termination_by cs.length
decreasing_by simp only [List.length_cons] at *; omega

theorem readMembers_shorter {σ : Type} {member : Member σ} {s s' : σ} {cs rest : List Char}
    (h : readMembers member s cs = .ok (s', rest)) : rest.length < cs.length := by
  fun_induction readMembers member s cs <;> grind

/-- Reads an object behind its opening bracket. -/
def readObject {σ : Type} (member : Member σ) (s : σ) (cs : List Char) :
    Except Fault (σ × List Char) :=
  match skipBlank cs with
  | [] => .error (.here .endInObject [])
  | c :: rest =>
    if c = '\x7d' then .ok (s, rest)
    else if c = '"' then readMembers member s rest
    else .error (.ahead .keyMustBeString (c :: rest))

theorem readObject_shorter {σ : Type} {member : Member σ} {s s' : σ} {cs rest : List Char}
    (h : readObject member s cs = .ok (s', rest)) : rest.length < cs.length := by
  grind [readObject, length_skipBlank_le, → readMembers_shorter]

/-- Takes the value of a member and puts it in front of the entries. -/
def readEntry {α : Type} (value : Reader α) (entries : List (String × α)) (key : String)
    (cs : List Char) : Except Fault (List (String × α) × List Char) :=
  match skipColon cs with
  | .error e => .error e
  | .ok rest =>
    match value.run rest with
    | .error e => .error e
    | .ok (a, rest) => .ok ((key, a) :: entries, rest)

theorem readEntry_shorter {α : Type} (value : Reader α) {entries entries' : List (String × α)}
    {key : String} {cs rest : List Char}
    (h : readEntry value entries key cs = .ok (entries', rest)) : rest.length < cs.length := by
  unfold readEntry at h
  grind [→ skipColon_shorter, → value.shorter]

/-- Collects the members of a map, the last one first. -/
def entry {α : Type} (value : Reader α) : Member (List (String × α)) where
  run := readEntry value
  shorter := readEntry_shorter value

/-- Takes a map as its entries in the order of the text. -/
def readMap {α : Type} (depth : Nat) (value : Reader α) (cs : List Char) :
    Except Fault (List (String × α) × List Char) :=
  match skipBlank cs with
  | [] => .error (.here .endInValue [])
  | c :: rest =>
    if c = '\x7b' then
      if depth = 0 then .error (.ahead .tooDeep (c :: rest))
      else
        match readObject (entry value) [] rest with
        | .error e => .error e
        -- the entries were collected from the last one on
        | .ok (entries, rest) => .ok (entries.reverse, rest)
    else .error (wrongType "a map" (c :: rest))

theorem readMap_shorter {α : Type} (depth : Nat) (value : Reader α) {cs rest : List Char}
    {a : List (String × α)} (h : readMap depth value cs = .ok (a, rest)) :
    rest.length < cs.length := by
  unfold readMap at h
  grind [length_skipBlank_le, → readObject_shorter]

def map {α : Type} (depth : Nat) (value : Reader α) : Reader (List (String × α)) where
  run := readMap depth value
  shorter := readMap_shorter depth value

/-! ## 5. Records -/

/-- A field of a record that is read into a `σ`. -/
structure Field (σ : Type) where
  name : String
  /-- Whether the field has been read. -/
  filled : σ → Bool
  /-- Reads the value and says how to store it. -/
  reader : Reader (σ → σ)
  /-- Whether the field may be left out at the end of a list. -/
  skippable : Bool

/-- A record: the fields collected in a `σ`, and the value they make up. -/
structure Record (σ α : Type) where
  /-- The record's name in messages. -/
  name : String
  fields : List (Field σ)
  initial : σ
  finish : σ → Except Cause α

/-- The text behind the closing bracket, if it comes next. -/
def skipClose (close : Char) (cs : List Char) : List Char :=
  match skipBlank cs with
  | [] => []
  | c :: rest => if c = close then rest else c :: rest

/-- Takes the value of a field by its name. -/
def readField {σ : Type} (fields : List (Field σ)) (s : σ) (key : String) (cs : List Char) :
    Except Fault (σ × List Char) :=
  match fields.find? (fun field => field.name == key) with
  -- a member that is no field is skipped
  | none =>
    match skipColon cs with
    | .error e => .error e
    | .ok rest =>
      match skipValue rest with
      | .error e => .error e
      | .ok rest => .ok (s, rest)
  | some field =>
    -- a field comes once; that it comes again is noticed before its value is read
    if field.filled s then .error (.here (.duplicateField key) (skipClose '\x7d' cs))
    else
      match skipColon cs with
      | .error e => .error e
      | .ok rest =>
        match field.reader.run rest with
        | .error e => .error e
        | .ok (store, rest) => .ok (store s, rest)

theorem readField_shorter {σ : Type} (fields : List (Field σ)) {s s' : σ} {key : String}
    {cs rest : List Char} (h : readField fields s key cs = .ok (s', rest)) :
    rest.length < cs.length := by
  unfold readField at h
  split at h
  next => grind [→ skipColon_shorter, → skipValue_shorter]
  next field _ => grind [→ skipColon_shorter, → field.reader.shorter]

def fieldMember {σ : Type} (fields : List (Field σ)) : Member σ where
  run := readField fields
  shorter := readField_shorter fields

/-- The text from the next item of a list on: behind a comma, unless it is the first one. -/
def nextItem (first : Bool) (cs : List Char) : Except Fault (List Char) :=
  if first then .ok cs
  else
    match cs with
    | ',' :: rest =>
      match skipBlank rest with
      | [] => .error (.here .endInValue [])
      | d :: rest' =>
        if d = ']' then .error (.ahead .trailingComma (d :: rest')) else .ok (d :: rest')
    | _ => .error (.ahead .expectedListEnd cs)

theorem nextItem_le {first : Bool} {cs rest : List Char} (h : nextItem first cs = .ok rest) :
    rest.length ≤ cs.length := by
  unfold nextItem at h
  split at h
  next => cases h; exact Nat.le_refl _
  next => split at h <;> grind [length_skipBlank_le]

/-- Reads fields by their order in a list, up to the closing bracket. `index` counts the fields
before these, `expected` describes the whole list. -/
def readFields {σ : Type} (expected : String) :
    List (Field σ) → Nat → σ → List Char → Except Fault (σ × List Char)
  | [], _, s, cs =>
    match skipBlank cs with
    | [] => .error (.here .endInList [])
    | c :: rest =>
      if c = ']' then .ok (s, rest)
      else if c = ',' then
        match skipBlank rest with
        | d :: rest' =>
          .error (.ahead (if d = ']' then .trailingComma else .trailingCharacters) (d :: rest'))
        | [] => .error (.here .trailingCharacters [])
      else .error (.ahead .trailingCharacters (c :: rest))
  | field :: fields, index, s, cs =>
    match skipBlank cs with
    | [] => .error (.here .endInList [])
    | c :: rest =>
      -- a list may end early if the fields that are left can do without a value
      if c = ']' then
        if field.skippable then readFields expected fields (index + 1) s (c :: rest)
        else .error (.here (.wrongLength index expected) rest)
      else
        match nextItem (index = 0) (c :: rest) with
        | .error e => .error e
        | .ok cs =>
          match field.reader.run cs with
          | .error e => .error e
          | .ok (store, rest) => readFields expected fields (index + 1) (store s) rest

theorem readFields_shorter {σ : Type} {expected : String} {fields : List (Field σ)} {index : Nat}
    {s s' : σ} {cs rest : List Char}
    (h : readFields expected fields index s cs = .ok (s', rest)) : rest.length < cs.length := by
  induction fields generalizing index s cs with
  | nil => grind [readFields, length_skipBlank_le]
  | cons field fields ih =>
    grind [readFields, length_skipBlank_le, → nextItem_le, → field.reader.shorter]

/-- What a list of the fields of a record is called in messages. -/
def Record.expectedList {σ α : Type} (r : Record σ α) : String :=
  r.name ++ " with " ++ r.fields.length.repr ++
    (if r.fields.length = 1 then " element" else " elements")

/-- Takes a record, if a bracket may still be opened. -/
def readRecord {σ α : Type} (depth : Nat) (r : Record σ α) (cs : List Char) :
    Except Fault (α × List Char) :=
  match skipBlank cs with
  | [] => .error (.here .endInValue [])
  | c :: rest =>
    if c = '[' ∨ c = '\x7b' then
      if depth = 0 then .error (.ahead .tooDeep (c :: rest))
      else
        let fields :=
          if c = '[' then readFields r.expectedList r.fields 0 r.initial rest
          else readObject (fieldMember r.fields) r.initial rest
        match fields with
        | .error e => .error e
        | .ok (s, rest) =>
          match r.finish s with
          | .ok a => .ok (a, rest)
          | .error cause => .error (.here cause rest)
    else .error (wrongType r.name (c :: rest))

theorem readRecord_shorter {σ α : Type} (depth : Nat) (r : Record σ α) {cs rest : List Char} {a : α}
    (h : readRecord depth r cs = .ok (a, rest)) : rest.length < cs.length := by
  unfold readRecord at h
  grind [length_skipBlank_le, → readFields_shorter, → readObject_shorter]

def record {σ α : Type} (depth : Nat) (r : Record σ α) : Reader α where
  run := readRecord depth r
  shorter := readRecord_shorter depth r

/-! ## 6. Variants -/

/-- Reads the value of a variant, from its colon to the closing bracket. -/
def readPayload {α : Type} (reader : Reader α) (cs : List Char) : Except Fault (α × List Char) :=
  match skipColon cs with
  | .error e => .error e
  | .ok rest =>
    match reader.run rest with
    | .error e => .error e
    | .ok (a, rest) =>
      match skipBlank rest with
      | [] => .error (.here .endInObject [])
      | c :: rest =>
        if c = '\x7d' then .ok (a, rest) else .error (.here .expectedValue (c :: rest))

theorem readPayload_shorter {α : Type} {reader : Reader α} {cs rest : List Char} {a : α}
    (h : readPayload reader cs = .ok (a, rest)) : rest.length < cs.length := by
  grind [readPayload, length_skipBlank_le, → skipColon_shorter, → reader.shorter]

/-- Takes a variant with a value, behind its opening bracket. -/
def readKeyed {α : Type} (plain : String → Option α) (payload : String → Option (Reader α))
    (cs : List Char) : Except Fault (α × List Char) :=
  match skipBlank cs with
  | [] => .error (.here .endInObject [])
  | c :: rest =>
    if c = '"' then
      match readString rest with
      | .error e => .error e
      | .ok (name, rest) =>
        match (plain name).map (fun a => null.map fun _ => a) <|> payload name with
        | none => .error (.here (.unknownVariant name) rest)
        | some reader => readPayload reader rest
    else .error (.ahead .keyMustBeString (c :: rest))

theorem readKeyed_shorter {α : Type} (plain : String → Option α)
    (payload : String → Option (Reader α)) {cs rest : List Char} {a : α}
    (h : readKeyed plain payload cs = .ok (a, rest)) : rest.length < cs.length := by
  unfold readKeyed at h
  grind [length_skipBlank_le, → readString_shorter, → readPayload_shorter]

def readVariant {α : Type} (depth : Nat) (plain : String → Option α)
    (payload : String → Option (Reader α)) (cs : List Char) :
    Except Fault (α × List Char) :=
  match skipBlank cs with
  | [] => .error (.here .endInValue [])
  | c :: rest =>
    if c = '"' then
      match readString rest with
      | .error e => .error e
      | .ok (name, rest) =>
        match plain name with
        | some a => .ok (a, rest)
        | none =>
          let cause := if (payload name).isSome then .bareVariant name else .unknownVariant name
          .error (.here cause rest)
    else if c = '\x7b' then
      if depth = 0 then .error (.ahead .tooDeep (c :: rest))
      else readKeyed plain payload rest
    else .error (.ahead .expectedValue (c :: rest))

theorem readVariant_shorter {α : Type} (depth : Nat) (plain : String → Option α)
    (payload : String → Option (Reader α)) {cs rest : List Char} {a : α}
    (h : readVariant depth plain payload cs = .ok (a, rest)) : rest.length < cs.length := by
  unfold readVariant at h
  grind [length_skipBlank_le, → readString_shorter, → readKeyed_shorter]

/-- Reads a variant: a name of `plain`, or an object whose only key is a name with its value. The
value of a plain name is `null`. -/
def variant {α : Type} (depth : Nat) (plain : String → Option α)
    (payload : String → Option (Reader α)) : Reader α where
  run := readVariant depth plain payload
  shorter := readVariant_shorter depth plain payload

/-! ## 7. Whole texts -/

/-- Reads a text that is one value and nothing else. -/
def read {α : Type} (reader : Reader α) (text : List Char) : Except Fault α :=
  match reader.run text with
  | .error e => .error e
  | .ok (a, rest) =>
    match skipBlank rest with
    | [] => .ok a
    | c :: rest => .error (.ahead .trailingCharacters (c :: rest))

end TreeScript.Json
