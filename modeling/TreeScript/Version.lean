import TreeScript.Text.Blank

/-!
# Versions

A version has a major and a minor number of 32 bits each. It is written with a dot between them; a
major number alone has the minor number zero.
-/

namespace TreeScript

structure Version where
  major : UInt32
  minor : UInt32
deriving DecidableEq, Repr

namespace Version

def text (version : Version) : String :=
  version.major.toNat.repr ++ "." ++ version.minor.toNat.repr

def valueOf (digits : List Char) : Nat :=
  digits.foldl (fun n c => n * 10 + (c.toNat - '0'.toNat)) 0

/-- Reads a number of 32 bits: digits, behind a plus sign or not. -/
def number? (cs : List Char) : Option UInt32 :=
  let digits :=
    match cs with
    | '+' :: rest => rest
    | _ => cs
  if digits ≠ [] ∧ digits.all Char.isDigit ∧ valueOf digits < UInt32.size then
    some (UInt32.ofNat (valueOf digits))
  else none

/-- Reads a version. Blanks around it do not matter. -/
def parse? (s : String) : Option Version := do
  let cs := Text.trimBlank s.toList
  let major ← number? (cs.takeWhile (· ≠ '.'))
  match cs.dropWhile (· ≠ '.') with
  | [] => return ⟨major, 0⟩
  | _ :: minor => return ⟨major, ← number? minor⟩

end Version

end TreeScript
