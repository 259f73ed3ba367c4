import TreeScript.Decimal.Shortest
import TreeScript.Json.Fault

/-!
# JSON numbers

A number without fraction and exponent that fits into 64 bits is an integer; every other number,
and `-0`, is a binary64 float. Digits are collected into 64 bits as long as they fit and the result
is scaled by a power of ten, so a float is near, not always nearest, to what is written.

* `readNumber` reads a number behind its sign, `skipNumber` only checks its form.
* `Number.found` is the number as messages name it.
-/

namespace TreeScript.Json

open TreeScript.Text (size)
open TreeScript.Decimal (Binary Scaled shortest)

/-! ## 1. Numbers and their text -/

inductive Number where
  | integer (value : Int)
  | float (value : Float)

/-- Digits with a point, or with an exponent if the leading digit is not at `10 ^ -5` to
`10 ^ 15`. -/
def decimalText (d : Scaled) : String :=
  let digits := d.digits.repr.toList
  let leading := d.exponent + digits.length - 1
  if -5 ≤ leading ∧ leading ≤ 15 then
    -- all digits before the point, the point among them, or zeros between it and them
    if 0 ≤ d.exponent then
      String.ofList (digits ++ List.replicate d.exponent.toNat '0' ++ ['.', '0'])
    else if 0 ≤ leading then
      let whole := leading.toNat + 1
      String.ofList (digits.take whole ++ '.' :: digits.drop whole)
    else
      String.ofList ('0' :: '.' :: (List.replicate (-leading - 1).toNat '0' ++ digits))
  else
    let mantissa :=
      match digits with
      | first :: second :: rest => first :: '.' :: second :: rest
      | short => short
    let sign := if leading < 0 then '-' else '+'
    String.ofList (mantissa ++ 'e' :: sign :: leading.natAbs.repr.toList)

/-- The highest of 64 bits. -/
def signBit : Nat := 0x8000000000000000

/-- The shortest text that stands for a finite float. -/
def floatText (x : Float) : String :=
  let bits := x.toBits.toNat
  let magnitude := bits % signBit
  let sign := if signBit ≤ bits then "-" else ""
  if magnitude = 0 then sign ++ "0.0"
  else sign ++ decimalText (shortest (Binary.ofBits magnitude))

def Number.found : Number → Found
  | .integer value => .integer value
  | .float value => .float (floatText value)

/-! ## 2. Scaling -/

/-- The largest integer that digits are collected into. -/
def maxSignificand : Nat := 0xffffffffffffffff

/-- The largest exponent that is counted exactly. -/
def maxExponent : Nat := 0x7fffffff

def digitValue (c : Char) : Nat := c.toNat - '0'.toNat

/-- Appends digits to a significand as long as it stays within 64 bits; the rest is left over. -/
def absorb (significand : Nat) : List Char → Nat × List Char
  | [] => (significand, [])
  | d :: ds =>
    if significand * 10 + digitValue d ≤ maxSignificand then
      absorb (significand * 10 + digitValue d) ds
    else (significand, d :: ds)

/-- `10 ^ exponent` as a float, for exponents up to 308. -/
def powerOfTen (exponent : Nat) : Float :=
  Float.ofScientific 1 false exponent

/-- Divides by `10 ^ exponent` in steps that the range of floats allows. -/
def scaleDown (x : Float) (exponent : Nat) : Float :=
  if exponent ≤ 308 then x / powerOfTen exponent
  else if x == 0.0 then x
  else scaleDown (x / powerOfTen 308) (exponent - 308)
termination_by exponent

/-- `significand * 10 ^ exponent`, unless it is too large for a float. -/
def scale? (significand : Nat) (exponent : Int) : Option Float :=
  let x := significand.toUInt64.toFloat
  if exponent < 0 then some (scaleDown x exponent.natAbs)
  else if exponent ≤ 308 then
    let scaled := x * powerOfTen exponent.toNat
    if scaled.isInf then none else some scaled
  else if significand = 0 then some x
  else none

/-- A float with its sign, or a fault if it is too large. -/
def signedFloat (positive : Bool) (significand : Nat) (exponent : Int) (rest : List Char) :
    Except Fault (Number × List Char) :=
  match scale? significand exponent with
  | some x => .ok (.float (if positive then x else -x), rest)
  | none => .error (.here .numberOutOfRange rest)

/-! ## 3. Reading -/

/-- Collects the digits of an exponent; stops behind the first digit that makes it too large. -/
def collectExponent (exponent : Nat) : List Char → Nat ⊕ List Char
  | [] => .inl exponent
  | d :: ds =>
    if exponent * 10 + digitValue d ≤ maxExponent then
      collectExponent (exponent * 10 + digitValue d) ds
    else .inr ds

def exponentSign : List Char → Bool × List Char
  | '+' :: cs => (true, cs)
  | '-' :: cs => (false, cs)
  | cs => (true, cs)

/-- Reads the exponent of a number, behind its `e`. -/
def readExponent (positive : Bool) (significand : Nat) (start : Int) (cs : List Char) :
    Except Fault (Number × List Char) :=
  let (up, digits) := exponentSign cs
  match digits with
  | [] => .error (.here .endInValue [])
  | c :: _ =>
    if c.isDigit then
      let rest := digits.dropWhile Char.isDigit
      match collectExponent 0 (digits.takeWhile Char.isDigit) with
      | .inl exponent =>
        signedFloat positive significand (if up then start + exponent else start - exponent) rest
      -- an exponent beyond counting gives zero, unless the number grows with it
      | .inr unread =>
        if significand ≠ 0 ∧ up then .error (.here .numberOutOfRange (unread ++ rest))
        else signedFloat positive 0 0 rest
    else .error (.ahead .invalidNumber digits)

/-- Reads what follows the fraction of a number. -/
def readAfterFraction (positive : Bool) (significand : Nat) (exponent : Int) (cs : List Char) :
    Except Fault (Number × List Char) :=
  match cs with
  | 'e' :: rest | 'E' :: rest => readExponent positive significand exponent rest
  | _ => signedFloat positive significand exponent cs

/-- The integer with this sign, or a float if it is `-0` or below the least 64-bit integer. -/
def signedInteger (positive : Bool) (significand : Nat) : Number :=
  if positive then .integer significand
  else if significand ≠ 0 ∧ significand ≤ signBit then .integer (-significand)
  else .float (-significand.toUInt64.toFloat)

/-- Reads what follows the digits before the point; `dropped` of them did not fit. -/
def readAfterWhole (positive : Bool) (significand dropped : Nat) (cs : List Char) :
    Except Fault (Number × List Char) :=
  match cs with
  | '.' :: rest =>
    let digits := rest.takeWhile Char.isDigit
    if digits.isEmpty then
      .error (.ahead (if rest.isEmpty then .endInValue else .invalidNumber) rest)
    else
      let (significand, unread) := absorb significand digits
      let places := digits.length - unread.length
      readAfterFraction positive significand ((dropped : Int) - places)
        (rest.dropWhile Char.isDigit)
  | 'e' :: rest | 'E' :: rest => readExponent positive significand dropped rest
  | _ =>
    if dropped = 0 then .ok (signedInteger positive significand, cs)
    else signedFloat positive significand dropped cs

def startsWithDigit : List Char → Bool
  | [] => false
  | c :: _ => c.isDigit

def readNumber (positive : Bool) (cs : List Char) : Except Fault (Number × List Char) :=
  match cs with
  | [] => .error (.here .endInValue [])
  | c :: rest =>
    -- no digit follows a zero in front
    if c = '0' then
      if startsWithDigit rest then .error (.ahead .invalidNumber rest)
      else readAfterWhole positive 0 0 rest
    else if c.isDigit then
      let (significand, unread) := absorb 0 (cs.takeWhile Char.isDigit)
      readAfterWhole positive significand unread.length (cs.dropWhile Char.isDigit)
    else .error (.ahead .invalidNumber cs)

/-! ## 4. Skipping -/

def skipExponent (cs : List Char) : Except Fault (List Char) :=
  let digits := (exponentSign cs).2
  if startsWithDigit digits then .ok (digits.dropWhile Char.isDigit)
  else .error (.ahead .invalidNumber digits)

def skipAfterWhole (cs : List Char) : Except Fault (List Char) :=
  match cs with
  | '.' :: rest =>
    if startsWithDigit rest then
      match rest.dropWhile Char.isDigit with
      | 'e' :: rest' | 'E' :: rest' => skipExponent rest'
      | rest' => .ok rest'
    else .error (.ahead .invalidNumber rest)
  | 'e' :: rest | 'E' :: rest => skipExponent rest
  | _ => .ok cs

def skipNumber (cs : List Char) : Except Fault (List Char) :=
  match cs with
  | [] => .error (.here .invalidNumber [])
  | c :: rest =>
    if c = '0' then
      if startsWithDigit rest then .error (.ahead .invalidNumber rest) else skipAfterWhole rest
    else if c.isDigit then skipAfterWhole (rest.dropWhile Char.isDigit)
    else .error (.ahead .invalidNumber cs)

/-! ## 5. Numbers take text -/

theorem length_dropWhile_le {α : Type} (p : α → Bool) (l : List α) :
    (l.dropWhile p).length ≤ l.length :=
  (List.dropWhile_suffix p).length_le

theorem length_exponentSign_le (cs : List Char) : (exponentSign cs).2.length ≤ cs.length := by
  unfold exponentSign
  split <;> simp

theorem signedFloat_le {positive : Bool} {significand : Nat} {exponent : Int}
    {cs rest : List Char} {n : Number}
    (h : signedFloat positive significand exponent cs = .ok (n, rest)) :
    rest.length ≤ cs.length := by
  unfold signedFloat at h
  split at h <;> simp_all

theorem readExponent_le {positive : Bool} {significand : Nat} {start : Int}
    {cs rest : List Char} {n : Number}
    (h : readExponent positive significand start cs = .ok (n, rest)) :
    rest.length ≤ cs.length := by
  have hsign := length_exponentSign_le cs
  have hdrop := length_dropWhile_le Char.isDigit (exponentSign cs).2
  unfold readExponent at h
  split at h
  rename_i up digits hdigits
  simp only [hdigits] at hsign hdrop
  split at h
  next => cases h
  next =>
    split at h
    next =>
      simp only at h
      split at h
      next => have := signedFloat_le h; omega
      next =>
        split at h
        · cases h
        · have := signedFloat_le h; omega
    next => cases h

theorem readAfterFraction_le {positive : Bool} {significand : Nat} {exponent : Int}
    {cs rest : List Char} {n : Number}
    (h : readAfterFraction positive significand exponent cs = .ok (n, rest)) :
    rest.length ≤ cs.length := by
  unfold readAfterFraction at h
  split at h
  next => have := readExponent_le h; simp only [List.length_cons]; omega
  next => have := readExponent_le h; simp only [List.length_cons]; omega
  next => have := signedFloat_le h; omega

theorem readAfterWhole_le {positive : Bool} {significand dropped : Nat}
    {cs rest : List Char} {n : Number}
    (h : readAfterWhole positive significand dropped cs = .ok (n, rest)) :
    rest.length ≤ cs.length := by
  unfold readAfterWhole at h
  split at h
  next tail =>
    have hdrop := length_dropWhile_le Char.isDigit tail
    simp only at h
    split at h
    · cases h
    · have := readAfterFraction_le h
      simp only [List.length_cons]
      omega
  next => have := readExponent_le h; simp only [List.length_cons]; omega
  next => have := readExponent_le h; simp only [List.length_cons]; omega
  next =>
    split at h
    · cases h; exact Nat.le_refl _
    · have := signedFloat_le h; omega

/-- A number has at least one character. -/
theorem readNumber_shorter {positive : Bool} {cs rest : List Char} {n : Number}
    (h : readNumber positive cs = .ok (n, rest)) : rest.length < cs.length := by
  unfold readNumber at h
  split at h
  next => cases h
  next c tail =>
    split at h
    next =>
      split at h
      · cases h
      · have := readAfterWhole_le h; simp only [List.length_cons]; omega
    next =>
      split at h
      next hdigit =>
        simp only at h
        have hle := readAfterWhole_le h
        have hdrop := length_dropWhile_le Char.isDigit tail
        simp only [List.dropWhile_cons, hdigit, if_true] at hle
        simp only [List.length_cons]
        omega
      next => cases h

theorem skipExponent_le {cs rest : List Char} (h : skipExponent cs = .ok rest) :
    rest.length ≤ cs.length := by
  have hsign := length_exponentSign_le cs
  have hdrop := length_dropWhile_le Char.isDigit (exponentSign cs).2
  unfold skipExponent at h
  simp only at h
  split at h
  · cases h; omega
  · cases h

theorem skipAfterWhole_le {cs rest : List Char} (h : skipAfterWhole cs = .ok rest) :
    rest.length ≤ cs.length := by
  unfold skipAfterWhole at h
  split at h
  next tail =>
    have hdrop := length_dropWhile_le Char.isDigit tail
    simp only [List.length_cons]
    split at h
    next =>
      split at h
      next heq => have := skipExponent_le h; rw [heq] at hdrop; simp at hdrop; omega
      next heq => have := skipExponent_le h; rw [heq] at hdrop; simp at hdrop; omega
      next => cases h; omega
    next => cases h
  next => have := skipExponent_le h; simp only [List.length_cons]; omega
  next => have := skipExponent_le h; simp only [List.length_cons]; omega
  next => cases h; exact Nat.le_refl _

/-- A skipped number has at least one character. -/
theorem skipNumber_shorter {cs rest : List Char} (h : skipNumber cs = .ok rest) :
    rest.length < cs.length := by
  unfold skipNumber at h
  split at h
  next => cases h
  next c tail =>
    have hdrop := length_dropWhile_le Char.isDigit tail
    simp only [List.length_cons]
    split at h
    next =>
      split at h
      · cases h
      · have := skipAfterWhole_le h; omega
    next =>
      split at h
      · have := skipAfterWhole_le h; omega
      · cases h

end TreeScript.Json
