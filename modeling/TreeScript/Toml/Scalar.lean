import TreeScript.Toml.Value

/-!
# Bare TOML values

Booleans, numbers and dates are written without quotes. Such a value is a run of letters, digits
and signs, and the run as a whole has to have one of their forms.
-/

namespace TreeScript.Toml

def isScalarChar (c : Char) : Bool :=
  c.isAlphanum || c = '_' || c = '-' || c = '+' || c = '.' || c = ':'

/-! ## 1. Numbers -/

/-- Splits off a sign; the flag tells whether it is a minus. -/
def sign : List Char → Bool × List Char
  | '-' :: cs => (true, cs)
  | '+' :: cs => (false, cs)
  | cs => (false, cs)

/-- Whether `c` may stand between the digits of a decimal number. -/
def isDigitOrMark (c : Char) : Bool :=
  c.isDigit || c = '_'

/-- The digits before the point: only zero itself starts with a zero. -/
def whole? (cs : List Char) : Option (List Char) :=
  match digits? 10 cs with
  | some ('0' :: rest) => if rest.isEmpty then some ['0'] else none
  | other => other

def exponent? (cs : List Char) : Option Int :=
  let (negative, digits) := sign cs
  (digits? 10 digits).map fun digits =>
    if negative then -(valueOf 10 digits : Int) else valueOf 10 digits

/-- The least number that is rounded to infinity: half a unit above the largest binary64 float. -/
def floatLimit : Nat := Nat.pow 2 1024 - Nat.pow 2 970

/-- The least number that does not fit into 63 bits. -/
def integerLimit : Nat := 0x8000000000000000

/-- Whether `significand * 10 ^ exponent` is too large for a binary64 float. -/
def overflows (significand : Nat) (exponent : Int) : Bool :=
  -- the number of digits decides, except close to the limit
  let magnitude := significand.repr.length + exponent
  if significand = 0 ∨ magnitude < 308 then false
  else if 310 < magnitude then true
  else if 0 ≤ exponent then floatLimit ≤ significand * Nat.pow 10 exponent.toNat
  else floatLimit * Nat.pow 10 (-exponent).toNat ≤ significand

def float? (negative : Bool) (significand : Nat) (exponent : Int) : Option Value :=
  -- a negative number of any size is accepted
  if !negative && overflows significand exponent then none else some .float

/-- A decimal number: an integer of 64 bits, or a float if it has a fraction or an exponent. -/
def decimal? (cs : List Char) : Option Value := do
  let (negative, body) := sign cs
  let whole ← whole? (body.takeWhile isDigitOrMark)
  match body.dropWhile isDigitOrMark with
  | [] =>
    let n := valueOf 10 whole
    if n < integerLimit then some (.integer (if negative then -n else n))
    -- the least integer has no positive counterpart
    else if negative ∧ n = integerLimit then some (.integer (-n))
    else none
  | '.' :: rest =>
    let fraction ← digits? 10 (rest.takeWhile isDigitOrMark)
    let significand := valueOf 10 (whole ++ fraction)
    match rest.dropWhile isDigitOrMark with
    | [] => float? negative significand (-fraction.length)
    | c :: rest =>
      if c = 'e' ∨ c = 'E' then float? negative significand ((← exponent? rest) - fraction.length)
      else none
  | c :: rest =>
    if c = 'e' ∨ c = 'E' then float? negative (valueOf 10 whole) (← exponent? rest) else none

/-- An integer of another base, behind its two letters. -/
def based? (base : Nat) (cs : List Char) : Option Value := do
  let n := valueOf base (← digits? base cs)
  if n < integerLimit then some (.integer n) else none

/-! ## 2. Bare values -/

/-- The value of a run of characters without quotes. -/
def bare? (cs : List Char) : Option Value :=
  match cs with
  | ['t', 'r', 'u', 'e'] => some (.boolean true)
  | ['f', 'a', 'l', 's', 'e'] => some (.boolean false)
  | '0' :: 'x' :: digits => based? 16 digits
  | '0' :: 'o' :: digits => based? 8 digits
  | '0' :: 'b' :: digits => based? 2 digits
  | _ =>
    let unsigned := (sign cs).2
    if unsigned = ['i', 'n', 'f'] ∨ unsigned = ['n', 'a', 'n'] then some .float
    else
      match DateTime.read? cs with
      | some dateTime => some (.dateTime dateTime)
      | none => decimal? cs

end TreeScript.Toml
