/-!
# Digits

Digits of bases up to sixteen, runs of them with underscores in between, and numbers of a fixed
number of digits.
-/

namespace TreeScript.Toml

/-! ## 1. Runs of digits -/

/-- The value of a digit; letters count from ten. -/
def digitValue (c : Char) : Nat :=
  if c.isDigit then c.toNat - '0'.toNat else c.toLower.toNat - 'a'.toNat + 10

/-- Whether `c` is a digit of a base up to sixteen. -/
def isDigitOf (base : Nat) (c : Char) : Bool :=
  (c.isDigit || 'a' ≤ c.toLower && c.toLower ≤ 'f') && digitValue c < base

/-- The digits behind the first one; an underscore may stand before a digit. -/
def moreDigits? (base : Nat) : List Char → Option (List Char)
  | [] => some []
  | '_' :: c :: cs => if isDigitOf base c then (moreDigits? base cs).map (c :: ·) else none
  | c :: cs => if isDigitOf base c then (moreDigits? base cs).map (c :: ·) else none

/-- The digits of a number, without the underscores between them. -/
def digits? (base : Nat) : List Char → Option (List Char)
  | [] => none
  | c :: cs => if isDigitOf base c then (moreDigits? base cs).map (c :: ·) else none

def valueOf (base : Nat) (digits : List Char) : Nat :=
  digits.foldl (fun n c => n * base + digitValue c) 0

/-! ## 2. Numbers of a fixed length -/

/-- Takes a number of exactly `count` digits. -/
def fixedDigits? (count : Nat) (cs : List Char) : Option (Nat × List Char) :=
  let digits := cs.take count
  if digits.length = count ∧ digits.all Char.isDigit then some (valueOf 10 digits, cs.drop count)
  else none

/-- The decimal digits of `n`, with zeros in front up to `count` digits. -/
def fixedDigits (count n : Nat) : List Char :=
  List.leftpad count '0' n.repr.toList

def expect? (c : Char) : List Char → Option (List Char)
  | d :: cs => if d = c then some cs else none
  | [] => none

end TreeScript.Toml
