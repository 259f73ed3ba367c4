import TreeScript.Toml.Digits

/-!
# Dates and times

A date, a time of day, or both, and then perhaps the offset from universal time. Fractions of a
second are kept to the nanosecond.

* `DateTime.read?` reads one.
* `DateTime.text` writes it in its one normal form.
-/

namespace TreeScript.Toml

/-! ## 1. Dates -/

structure Date where
  year : Nat
  month : Nat
  day : Nat
deriving DecidableEq, Repr

namespace Date

/-- The number of days of a month. -/
def daysOf (year month : Nat) : Nat :=
  if month = 2 then
    if year % 4 = 0 ∧ (year % 100 ≠ 0 ∨ year % 400 = 0) then 29 else 28
  else if month = 4 ∨ month = 6 ∨ month = 9 ∨ month = 11 then 30
  else 31

def take? (cs : List Char) : Option (Date × List Char) := do
  let (year, cs) ← fixedDigits? 4 cs
  let (month, cs) ← fixedDigits? 2 (← expect? '-' cs)
  let (day, cs) ← fixedDigits? 2 (← expect? '-' cs)
  if 1 ≤ month ∧ month ≤ 12 ∧ 1 ≤ day ∧ day ≤ daysOf year month then some (⟨year, month, day⟩, cs)
  else none

def text (date : Date) : List Char :=
  fixedDigits 4 date.year ++ '-' :: fixedDigits 2 date.month ++ '-' :: fixedDigits 2 date.day

end Date

/-! ## 2. Times -/

/-- A time of day. A minute may have a leap second. -/
structure Time where
  hour : Nat
  minute : Nat
  second : Nat
  nanosecond : Nat
deriving DecidableEq, Repr

def hourMinute? (cs : List Char) : Option ((Nat × Nat) × List Char) := do
  let (hour, cs) ← fixedDigits? 2 cs
  let (minute, cs) ← fixedDigits? 2 (← expect? ':' cs)
  if hour ≤ 23 ∧ minute ≤ 59 then some ((hour, minute), cs) else none

namespace Time

/-- Takes the fraction of a second, in nanoseconds; what is smaller is cut off. -/
def fraction? : List Char → Option (Nat × List Char)
  | '.' :: cs =>
    let digits := cs.takeWhile Char.isDigit
    if digits.isEmpty then none
    else some (valueOf 10 (List.rightpad 9 '0' (digits.take 9)), cs.dropWhile Char.isDigit)
  | cs => some (0, cs)

def take? (cs : List Char) : Option (Time × List Char) := do
  let ((hour, minute), cs) ← hourMinute? cs
  let (second, cs) ← fixedDigits? 2 (← expect? ':' cs)
  let (nanosecond, cs) ← fraction? cs
  if second ≤ 60 then some (⟨hour, minute, second, nanosecond⟩, cs) else none

/-- The text of a time: the fraction has no zeros at its end, and none is written for zero. -/
def text (time : Time) : List Char :=
  let fraction := (fixedDigits 9 time.nanosecond).reverse.dropWhile (· = '0')
  fixedDigits 2 time.hour ++ ':' :: fixedDigits 2 time.minute ++ ':' :: fixedDigits 2 time.second ++
    (if fraction.isEmpty then [] else '.' :: fraction.reverse)

end Time

/-! ## 3. Offsets -/

/-- The offset of a time from universal time. -/
inductive Offset where
  /-- Universal time itself. -/
  | utc
  /-- So many minutes ahead of it. -/
  | ahead (minutes : Int)
deriving DecidableEq, Repr

namespace Offset

/-- The offset that is all there is. -/
def read? : List Char → Option Offset
  | ['Z'] => some .utc
  | ['z'] => some .utc
  | '+' :: cs =>
    match hourMinute? cs with
    | some ((hour, minute), []) => some (.ahead (hour * 60 + minute : Nat))
    | _ => none
  | '-' :: cs =>
    match hourMinute? cs with
    | some ((hour, minute), []) => some (.ahead (-(hour * 60 + minute : Nat)))
    | _ => none
  | _ => none

def text : Offset → List Char
  | .utc => ['Z']
  | .ahead minutes =>
    (if minutes < 0 then '-' else '+') :: fixedDigits 2 (minutes.natAbs / 60) ++
      ':' :: fixedDigits 2 (minutes.natAbs % 60)

end Offset

/-! ## 4. Both -/

/-- A date, a time, or both. -/
inductive DateTime where
  | day (date : Date)
  | clock (time : Time)
  | moment (date : Date) (time : Time) (offset : Option Offset)
deriving DecidableEq, Repr

namespace DateTime

/-- A date with the time, and perhaps an offset, that is all there is. -/
def atDate? (date : Date) (cs : List Char) : Option DateTime :=
  match Time.take? cs with
  | none => none
  | some (time, []) => some (.moment date time none)
  | some (time, rest) => (Offset.read? rest).map fun offset => .moment date time (some offset)

/-- The date, with or without a time, or the time that is all there is. -/
def read? (cs : List Char) : Option DateTime :=
  match Date.take? cs with
  | some (date, []) => some (.day date)
  | some (date, c :: rest) => if c = 'T' ∨ c = 't' then atDate? date rest else none
  | none =>
    match Time.take? cs with
    | some (time, []) => some (.clock time)
    | _ => none

def text : DateTime → String
  | .day date => String.ofList date.text
  | .clock time => String.ofList time.text
  | .moment date time offset =>
    String.ofList (date.text ++ 'T' :: time.text ++ (offset.map Offset.text).getD [])

end DateTime

end TreeScript.Toml
