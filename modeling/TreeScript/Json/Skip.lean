import TreeScript.Json.Token

/-!
# Skipped JSON values

A value that nobody asked for is checked for its form only. The brackets that are open are kept on
a stack, so there is no limit on nesting here.
-/

namespace TreeScript.Json

/-- A bracket that is open. -/
inductive Frame where
  | list
  | object
deriving DecidableEq, Repr

namespace Frame

def close : Frame → Char
  | .list => ']'
  | .object => '\x7d'

/-- The fault of a text that ends inside a frame. -/
def atEnd : Frame → Cause
  | .list => .endInList
  | .object => .endInObject

/-- The fault of anything but a comma or the closing bracket behind a value. -/
def unclosed : Frame → Cause
  | .list => .expectedListEnd
  | .object => .expectedObjectEnd

end Frame

def skipColon (cs : List Char) : Except Fault (List Char) :=
  match skipBlank cs with
  | [] => .error (.here .endInObject [])
  | c :: rest => if c = ':' then .ok rest else .error (.ahead .expectedColon (c :: rest))

def skipKey (cs : List Char) : Except Fault (List Char) :=
  match skipBlank cs with
  | [] => .error (.here .endInObject [])
  | c :: rest =>
    if c = '"' then
      match skipString rest with
      | .error e => .error e
      | .ok rest => skipColon rest
    else .error (.ahead .keyMustBeString (c :: rest))

/-- Skips a value without brackets that starts with `c`. -/
def skipScalar (c : Char) (rest : List Char) : Except Fault (List Char) :=
  match c with
  | 'n' => skipWord ['u', 'l', 'l'] rest
  | 't' => skipWord ['r', 'u', 'e'] rest
  | 'f' => skipWord ['a', 'l', 's', 'e'] rest
  | '-' => skipNumber rest
  | '"' => skipString rest
  | c => if c.isDigit then skipNumber (c :: rest) else .error (.ahead .expectedValue (c :: rest))

/-- What comes next while values are skipped. -/
inductive Awaited where
  /-- A value. -/
  | value
  /-- The end of the innermost frame or what it goes on with; `comma` tells whether a value has
  come before. -/
  | more (comma : Bool)
deriving DecidableEq, Repr

/-- Order of the two: `more` may ask for a value before it takes any text. -/
def Awaited.rank : Awaited → Nat
  | .value => 0
  | .more _ => 1

theorem skipColon_shorter {cs rest : List Char} (h : skipColon cs = .ok rest) :
    rest.length < cs.length := by
  have hblank := length_skipBlank_le cs
  unfold skipColon at h
  split at h
  next => cases h
  next heq =>
    rw [heq] at hblank
    split at h
    · cases h; simp only [List.length_cons] at hblank; omega
    · cases h

theorem skipKey_shorter {cs rest : List Char} (h : skipKey cs = .ok rest) :
    rest.length < cs.length := by
  have hblank := length_skipBlank_le cs
  unfold skipKey at h
  split at h
  next => cases h
  next heq =>
    rw [heq] at hblank
    simp only [List.length_cons] at hblank
    split at h
    next =>
      split at h
      next => cases h
      next hstring =>
        have := skipString_shorter hstring
        have := skipColon_shorter h
        omega
    next => cases h

theorem skipScalar_le {c : Char} {cs rest : List Char} (h : skipScalar c cs = .ok rest) :
    rest.length ≤ cs.length := by
  unfold skipScalar at h
  split at h
  · exact skipWord_le h
  · exact skipWord_le h
  · exact skipWord_le h
  · exact Nat.le_of_lt (skipNumber_shorter h)
  · exact Nat.le_of_lt (skipString_shorter h)
  · split at h
    · have := skipNumber_shorter h; simp only [List.length_cons] at this; omega
    · cases h

/-- Skips what is awaited and everything up to the end of the outermost frame. -/
def skip (awaited : Awaited) (frames : List Frame) (cs : List Char) : Except Fault (List Char) :=
  match awaited with
  | .value =>
    match h : skipBlank cs with
    | [] => .error (.here .endInValue [])
    | c :: rest =>
      have := h ▸ length_skipBlank_le cs
      if c = '[' then skip (.more false) (.list :: frames) rest
      else if c = '\x7b' then skip (.more false) (.object :: frames) rest
      else
        match hscalar : skipScalar c rest with
        | .error e => .error e
        | .ok rest' =>
          have := skipScalar_le hscalar
          skip (.more true) frames rest'
  | .more comma =>
    match frames with
    | [] => .ok cs
    | frame :: outer =>
      match h : skipBlank cs with
      | [] => .error (.here frame.atEnd [])
      | c :: rest =>
        have := h ▸ length_skipBlank_le cs
        if c = frame.close then skip (.more true) outer rest
        else if comma ∧ c ≠ ',' then .error (.ahead frame.unclosed (c :: rest))
        else
          let inner := if comma then rest else c :: rest
          match frame with
          | .list => skip .value (.list :: outer) inner
          | .object =>
            match hkey : skipKey inner with
            | .error e => .error e
            | .ok rest' =>
              have := skipKey_shorter hkey
              skip .value (.object :: outer) rest'
termination_by (cs.length, awaited.rank)
decreasing_by
  all_goals
    simp only [List.length_cons, Awaited.rank, Prod.lex_def] at *
    grind

def skipValue (cs : List Char) : Except Fault (List Char) :=
  skip .value [] cs

theorem skip_le {awaited : Awaited} {frames : List Frame} {cs rest : List Char}
    (h : skip awaited frames cs = .ok rest) :
    rest.length + (1 - awaited.rank) ≤ cs.length := by
  fun_induction skip awaited frames cs <;> simp_all [Awaited.rank] <;> grind

/-- A value has at least one character. -/
theorem skipValue_shorter {cs rest : List Char} (h : skipValue cs = .ok rest) :
    rest.length < cs.length :=
  skip_le h

end TreeScript.Json
