/-!
# Quoted TOML strings

Four kinds of strings: basic ones resolve escapes, literal ones do not, and each may span lines
between triple quotes.
-/

namespace TreeScript.Toml

/-! ## 1. Characters -/

/-- Whether `c` may stand in a text as itself: no control character except the tab. -/
def isTextChar (c : Char) : Bool :=
  c = '\t' || 0x20 ≤ c.toNat && c.toNat ≠ 0x7f

/-- Blanks within a line. -/
def isSpace (c : Char) : Bool :=
  c = ' ' || c = '\t'

def hexValue? (c : Char) : Option Nat :=
  if c.isDigit then some (c.toNat - '0'.toNat)
  else if 'a' ≤ c ∧ c ≤ 'f' then some (c.toNat - 'a'.toNat + 10)
  else if 'A' ≤ c ∧ c ≤ 'F' then some (c.toNat - 'A'.toNat + 10)
  else none

/-- Takes a character by the `count` digits of its code point. -/
def codePoint? (count : Nat) (cs : List Char) : Option (Char × List Char) := do
  let digits := cs.take count
  if digits.length = count then
    let n ← digits.foldlM (fun n c => (hexValue? c).map (n * 16 + ·)) 0
    if n.isValidChar then some (Char.ofNat n, cs.drop count) else none
  else none

/-- Takes an escape, behind its backslash. -/
def escape? (cs : List Char) : Option (Char × List Char) :=
  match cs with
  | 'b' :: rest => some ('\x08', rest)
  | 't' :: rest => some ('\t', rest)
  | 'n' :: rest => some ('\n', rest)
  | 'f' :: rest => some ('\x0c', rest)
  | 'r' :: rest => some ('\r', rest)
  | '"' :: rest => some ('"', rest)
  | '\\' :: rest => some ('\\', rest)
  | 'u' :: rest => codePoint? 4 rest
  | 'U' :: rest => codePoint? 8 rest
  | _ => none

theorem codePoint?_le {count : Nat} {cs rest : List Char} {c : Char}
    (h : codePoint? count cs = some (c, rest)) : rest.length ≤ cs.length := by
  simp only [codePoint?, Option.bind_eq_bind] at h
  split at h
  next =>
    simp only [Option.bind_eq_some_iff] at h
    obtain ⟨n, _, h⟩ := h
    split at h
    · cases h; simp
    · cases h
  next => cases h

theorem escape?_shorter {cs rest : List Char} {c : Char} (h : escape? cs = some (c, rest)) :
    rest.length < cs.length := by
  unfold escape? at h
  grind [→ codePoint?_le]

/-! ## 2. Line ends -/

/-- The text behind a line end, if one comes next. -/
def newline? : List Char → Option (List Char)
  | '\n' :: cs => some cs
  | '\r' :: '\n' :: cs => some cs
  | _ => none

/-- The text behind blanks and line ends. -/
def skipBlankLines : List Char → List Char
  | '\r' :: '\n' :: cs => skipBlankLines cs
  | c :: cs => if isSpace c || c = '\n' then skipBlankLines cs else c :: cs
  | [] => []

/-- The text behind a line end that a backslash hides, and the blanks that follow it. -/
def hiddenNewline? (cs : List Char) : Option (List Char) :=
  (newline? (cs.dropWhile isSpace)).map skipBlankLines

theorem newline?_shorter {cs rest : List Char} (h : newline? cs = some rest) :
    rest.length < cs.length := by
  unfold newline? at h
  split at h
  next => cases h; simp only [List.length_cons]; omega
  next => cases h; simp only [List.length_cons]; omega
  next => cases h

theorem skipBlankLines_le (cs : List Char) : (skipBlankLines cs).length ≤ cs.length := by
  fun_induction skipBlankLines cs <;> grind

theorem hiddenNewline?_shorter {cs rest : List Char} (h : hiddenNewline? cs = some rest) :
    rest.length < cs.length := by
  simp only [hiddenNewline?, Option.map_eq_some_iff] at h
  obtain ⟨after, hafter, rfl⟩ := h
  have hnewline := newline?_shorter hafter
  have hskip := skipBlankLines_le after
  have hspace := (List.dropWhile_suffix (l := cs) isSpace).length_le
  omega

/-! ## 3. Strings on one line -/

/-- Takes a basic string up to its closing quote; `read` holds its characters so far in reverse. -/
def basicFrom? (read : List Char) (cs : List Char) : Option (String × List Char) :=
  match cs with
  | [] => none
  | c :: rest =>
    if c = '"' then some (String.ofList read.reverse, rest)
    else if c = '\\' then
      match h : escape? rest with
      | none => none
      | some (char, rest') =>
        have := escape?_shorter h
        basicFrom? (char :: read) rest'
    else if isTextChar c then basicFrom? (c :: read) rest
    else none
termination_by cs.length
decreasing_by all_goals simp only [List.length_cons]; omega

def literalFrom? (read : List Char) : List Char → Option (String × List Char)
  | [] => none
  | c :: rest =>
    if c = '\'' then some (String.ofList read.reverse, rest)
    else if isTextChar c then literalFrom? (c :: read) rest
    else none

theorem basicFrom?_shorter {read cs rest : List Char} {s : String}
    (h : basicFrom? read cs = some (s, rest)) : rest.length < cs.length := by
  fun_induction basicFrom? read cs <;> grind

theorem literalFrom?_shorter {read cs rest : List Char} {s : String}
    (h : literalFrom? read cs = some (s, rest)) : rest.length < cs.length := by
  fun_induction literalFrom? read cs <;> grind

/-! ## 4. Strings on several lines -/

/-- The text behind a line end right after the opening quotes. -/
def dropFirstNewline (cs : List Char) : List Char :=
  (newline? cs).getD cs

/-- Takes a basic string up to its closing triple quote. Up to two quotes may stand right before
it. -/
def multiBasicFrom? (read : List Char) (cs : List Char) : Option (String × List Char) :=
  match cs with
  | [] => none
  | '"' :: '"' :: '"' :: '"' :: '"' :: rest =>
    some (String.ofList ('"' :: '"' :: read).reverse, rest)
  | '"' :: '"' :: '"' :: '"' :: rest => some (String.ofList ('"' :: read).reverse, rest)
  | '"' :: '"' :: '"' :: rest => some (String.ofList read.reverse, rest)
  | '\r' :: '\n' :: rest => multiBasicFrom? ('\n' :: read) rest
  | c :: rest =>
    if c = '\\' then
      match hn : hiddenNewline? rest with
      | some rest' =>
        have := hiddenNewline?_shorter hn
        multiBasicFrom? read rest'
      | none =>
        match he : escape? rest with
        | none => none
        | some (char, rest') =>
          have := escape?_shorter he
          multiBasicFrom? (char :: read) rest'
    else if c = '\n' || isTextChar c then multiBasicFrom? (c :: read) rest
    else none
termination_by cs.length
decreasing_by all_goals simp only [List.length_cons]; omega

/-- Takes a literal string up to its closing triple quote. -/
def multiLiteralFrom? (read : List Char) : List Char → Option (String × List Char)
  | [] => none
  | '\'' :: '\'' :: '\'' :: '\'' :: '\'' :: rest =>
    some (String.ofList ('\'' :: '\'' :: read).reverse, rest)
  | '\'' :: '\'' :: '\'' :: '\'' :: rest => some (String.ofList ('\'' :: read).reverse, rest)
  | '\'' :: '\'' :: '\'' :: rest => some (String.ofList read.reverse, rest)
  | '\r' :: '\n' :: rest => multiLiteralFrom? ('\n' :: read) rest
  | c :: rest =>
    if c = '\n' || isTextChar c then multiLiteralFrom? (c :: read) rest else none

theorem multiBasicFrom?_shorter {read cs rest : List Char} {s : String}
    (h : multiBasicFrom? read cs = some (s, rest)) : rest.length < cs.length := by
  fun_induction multiBasicFrom? read cs <;> grind

theorem multiLiteralFrom?_shorter {read cs rest : List Char} {s : String}
    (h : multiLiteralFrom? read cs = some (s, rest)) : rest.length < cs.length := by
  fun_induction multiLiteralFrom? read cs <;> grind

theorem dropFirstNewline_le (cs : List Char) : (dropFirstNewline cs).length ≤ cs.length := by
  unfold dropFirstNewline
  cases h : newline? cs with
  | none => simp
  | some rest => have := newline?_shorter h; simp only [Option.getD_some]; omega

/-! ## 5. Strings -/

/-- Takes a string on one line, if a quote comes next. -/
def lineString? (cs : List Char) : Option (String × List Char) :=
  match cs with
  | '"' :: rest => basicFrom? [] rest
  | '\'' :: rest => literalFrom? [] rest
  | _ => none

/-- Takes a string of any kind, if a quote comes next. -/
def anyString? (cs : List Char) : Option (String × List Char) :=
  match cs with
  | '"' :: '"' :: '"' :: rest => multiBasicFrom? [] (dropFirstNewline rest)
  | '\'' :: '\'' :: '\'' :: rest => multiLiteralFrom? [] (dropFirstNewline rest)
  | _ => lineString? cs

theorem lineString?_shorter {cs rest : List Char} {s : String}
    (h : lineString? cs = some (s, rest)) : rest.length < cs.length := by
  unfold lineString? at h
  split at h
  · have := basicFrom?_shorter h; simp only [List.length_cons]; omega
  · have := literalFrom?_shorter h; simp only [List.length_cons]; omega
  · cases h

theorem anyString?_shorter {cs rest : List Char} {s : String}
    (h : anyString? cs = some (s, rest)) : rest.length < cs.length := by
  unfold anyString? at h
  split at h
  next tail =>
    have := multiBasicFrom?_shorter h
    have := dropFirstNewline_le tail
    simp only [List.length_cons]
    omega
  next tail =>
    have := multiLiteralFrom?_shorter h
    have := dropFirstNewline_le tail
    simp only [List.length_cons]
    omega
  next => exact lineString?_shorter h

end TreeScript.Toml
