import TreeScript.Json.Number

/-!
# Blanks, words and strings of JSON

The tokens that carry no nesting. Strings are read with their escapes resolved; a string of a
skipped value is only checked, and there a lone surrogate is no fault.
-/

namespace TreeScript.Json

open TreeScript.Text (size)

/-! ## 1. Blanks and words -/

/-- The white space of JSON. -/
def isBlank (c : Char) : Bool :=
  c = ' ' ∨ c = '\n' ∨ c = '\t' ∨ c = '\r'

/-- The text behind leading white space. -/
def skipBlank (cs : List Char) : List Char :=
  cs.dropWhile isBlank

theorem length_skipBlank_le (cs : List Char) : (skipBlank cs).length ≤ cs.length :=
  length_dropWhile_le isBlank cs

def skipWord : List Char → List Char → Except Fault (List Char)
  | [], cs => .ok cs
  | _ :: _, [] => .error (.here .endInValue [])
  | w :: word, c :: cs =>
    if c = w then skipWord word cs else .error (.ahead .expectedWord (c :: cs))

theorem skipWord_le {word cs rest : List Char} (h : skipWord word cs = .ok rest) :
    rest.length ≤ cs.length := by
  induction word generalizing cs with
  | nil => cases h; exact Nat.le_refl _
  | cons w word ih =>
    cases cs with
    | nil => cases h
    | cons c cs =>
      unfold skipWord at h
      split at h
      · have := ih h; simp only [List.length_cons]; omega
      · cases h

/-! ## 2. Escapes -/

def hexDigit? (c : Char) : Option Nat :=
  if '0' ≤ c ∧ c ≤ '9' then some (c.toNat - '0'.toNat)
  else if 'a' ≤ c ∧ c ≤ 'f' then some (c.toNat - 'a'.toNat + 10)
  else if 'A' ≤ c ∧ c ≤ 'F' then some (c.toNat - 'A'.toNat + 10)
  else none

/-- What is wrong with a text that has no four hexadecimal digits: four bytes are looked at. -/
def hexFault (cs : List Char) : Fault :=
  if size cs < 4 then ⟨.endInString, 0⟩ else ⟨.invalidEscape, size cs - 4⟩

def readHex (cs : List Char) : Except Fault (Nat × List Char) :=
  match cs with
  | a :: b :: c :: d :: rest =>
    match hexDigit? a, hexDigit? b, hexDigit? c, hexDigit? d with
    | some a, some b, some c, some d => .ok (((a * 16 + b) * 16 + c) * 16 + d, rest)
    | _, _, _, _ => .error (hexFault cs)
  | _ => .error (hexFault cs)

/-- Whether a code unit is the first of a surrogate pair. -/
def isLeadingSurrogate (n : Nat) : Bool := 0xd800 ≤ n ∧ n ≤ 0xdbff

/-- Whether a code unit is the second of a surrogate pair. -/
def isTrailingSurrogate (n : Nat) : Bool := 0xdc00 ≤ n ∧ n ≤ 0xdfff

def surrogatePair (leading trailing : Nat) : Char :=
  Char.ofNat ((leading - 0xd800) * 0x400 + (trailing - 0xdc00) + 0x10000)

def readTrailing (leading : Nat) (cs : List Char) : Except Fault (Char × List Char) :=
  match cs with
  | [] => .error (.here .endInString [])
  | '\\' :: [] => .error (.here .endInString [])
  | '\\' :: 'u' :: rest =>
    match readHex rest with
    | .error e => .error e
    | .ok (trailing, rest) =>
      if isTrailingSurrogate trailing then .ok (surrogatePair leading trailing, rest)
      else .error (.here .loneSurrogate rest)
  | '\\' :: rest => .error (.ahead .brokenSurrogatePair rest)
  | _ => .error (.ahead .brokenSurrogatePair cs)

/-- Reads an escape by code units, behind its `u`. -/
def readUnicode (cs : List Char) : Except Fault (Char × List Char) :=
  match readHex cs with
  | .error e => .error e
  | .ok (unit, rest) =>
    if isTrailingSurrogate unit then .error (.here .loneSurrogate rest)
    else if isLeadingSurrogate unit then readTrailing unit rest
    else .ok (Char.ofNat unit, rest)

/-- The character of an escape by a letter or sign. -/
def escapeLetter? : Char → Option Char
  | '"' => some '"'
  | '\\' => some '\\'
  | '/' => some '/'
  | 'b' => some '\x08'
  | 'f' => some '\x0c'
  | 'n' => some '\n'
  | 'r' => some '\r'
  | 't' => some '\t'
  | _ => none

/-- Reads an escape, behind its backslash. -/
def readEscape (cs : List Char) : Except Fault (Char × List Char) :=
  match cs with
  | [] => .error (.here .endInString [])
  | c :: rest =>
    match escapeLetter? c with
    | some char => .ok (char, rest)
    | none => if c = 'u' then readUnicode rest else .error (.ahead .invalidEscape cs)

/-- Skips an escape, behind its backslash. -/
def skipEscape (cs : List Char) : Except Fault (List Char) :=
  match cs with
  | [] => .error (.here .endInString [])
  | c :: rest =>
    if (escapeLetter? c).isSome then .ok rest
    else if c = 'u' then (readHex rest).map Prod.snd
    else .error (.ahead .invalidEscape cs)

theorem readHex_shorter {cs rest : List Char} {n : Nat} (h : readHex cs = .ok (n, rest)) :
    rest.length < cs.length := by
  unfold readHex at h
  split at h
  next =>
    split at h
    · cases h; simp only [List.length_cons]; omega
    · cases h
  next => cases h

theorem readTrailing_shorter {leading : Nat} {cs rest : List Char} {c : Char}
    (h : readTrailing leading cs = .ok (c, rest)) : rest.length < cs.length := by
  unfold readTrailing at h
  split at h
  next => cases h
  next => cases h
  next =>
    split at h
    next => cases h
    next heq =>
      split at h
      · have := readHex_shorter heq
        simp only [Except.ok.injEq, Prod.mk.injEq] at h
        simp only [List.length_cons, ← h.2]
        omega
      · cases h
  next => cases h
  next => cases h

theorem readUnicode_shorter {cs rest : List Char} {c : Char}
    (h : readUnicode cs = .ok (c, rest)) : rest.length < cs.length := by
  unfold readUnicode at h
  split at h
  next => cases h
  next heq =>
    have := readHex_shorter heq
    split at h
    · cases h
    · split at h
      · have := readTrailing_shorter h; omega
      · cases h; omega

theorem readEscape_shorter {cs rest : List Char} {c : Char}
    (h : readEscape cs = .ok (c, rest)) : rest.length < cs.length := by
  unfold readEscape at h
  split at h
  next => cases h
  next =>
    simp only [List.length_cons]
    split at h
    next => cases h; omega
    next =>
      split at h
      · have := readUnicode_shorter h; omega
      · cases h

theorem skipEscape_shorter {cs rest : List Char} (h : skipEscape cs = .ok rest) :
    rest.length < cs.length := by
  unfold skipEscape at h
  split at h
  next => cases h
  next c tail =>
    simp only [List.length_cons]
    split at h
    next => cases h; omega
    next =>
      split at h
      next =>
        cases hhex : readHex tail with
        | error e => simp [hhex, Except.map] at h
        | ok p =>
          obtain ⟨unit, after⟩ := p
          have := readHex_shorter hhex
          simp only [hhex, Except.map, Except.ok.injEq] at h
          subst h
          omega
      next => cases h

/-! ## 3. Strings -/

/-- Reads a string up to its closing quote; `read` holds its characters so far in reverse. -/
def readStringFrom (read : List Char) (cs : List Char) : Except Fault (String × List Char) :=
  match cs with
  | [] => .error (.here .endInString [])
  | c :: rest =>
    if c = '"' then .ok (String.ofList read.reverse, rest)
    else if c = '\\' then
      match h : readEscape rest with
      | .error e => .error e
      | .ok (char, rest') =>
        have := readEscape_shorter h
        readStringFrom (char :: read) rest'
    else if c.toNat < 0x20 then .error (.here .controlCharacter rest)
    else readStringFrom (c :: read) rest
termination_by cs.length
decreasing_by all_goals simp only [List.length_cons]; omega

/-- Reads a string, behind its opening quote. -/
def readString (cs : List Char) : Except Fault (String × List Char) :=
  readStringFrom [] cs

/-- Skips a string, behind its opening quote. -/
def skipString (cs : List Char) : Except Fault (List Char) :=
  match cs with
  | [] => .error (.here .endInString [])
  | c :: rest =>
    if c = '"' then .ok rest
    else if c = '\\' then
      match h : skipEscape rest with
      | .error e => .error e
      | .ok rest' =>
        have := skipEscape_shorter h
        skipString rest'
    else if c.toNat < 0x20 then .error (.here .controlCharacter cs)
    else skipString rest
termination_by cs.length
decreasing_by all_goals simp only [List.length_cons]; omega

theorem readStringFrom_shorter {read cs rest : List Char} {s : String}
    (h : readStringFrom read cs = .ok (s, rest)) : rest.length < cs.length := by
  fun_induction readStringFrom read cs with
  | case1 => cases h
  | case2 => cases h; simp
  | case3 => cases h
  | case4 read rest' _ _ _ _ hshort ih => have := ih h; simp only [List.length_cons]; omega
  | case5 => cases h
  | case6 read c tail _ _ _ ih => have := ih h; simp only [List.length_cons]; omega

theorem readString_shorter {cs rest : List Char} {s : String}
    (h : readString cs = .ok (s, rest)) : rest.length < cs.length :=
  readStringFrom_shorter h

theorem skipString_shorter {cs rest : List Char} (h : skipString cs = .ok rest) :
    rest.length < cs.length := by
  fun_induction skipString cs with
  | case1 => cases h
  | case2 => cases h; simp
  | case3 => cases h
  | case4 => rename_i ih; have := ih h; simp only [List.length_cons]; omega
  | case5 => cases h
  | case6 => rename_i ih; have := ih h; simp only [List.length_cons]; omega

end TreeScript.Json
