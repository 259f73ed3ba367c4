/-!
# JSON values and their text

The values that are written as JSON: absent values, naturals, strings, lists and objects whose
members keep their order. `compact` writes a value without blanks, `pretty` with one item per line
and two spaces per level.
-/

namespace TreeScript.Json

inductive Value where
  | null
  | natural (n : Nat)
  | string (s : String)
  | list (items : List Value)
  | object (members : List (String × Value))

/-! ## 1. Strings -/

def hexDigit (n : Nat) : Char :=
  if n < 10 then Char.ofNat ('0'.toNat + n) else Char.ofNat ('a'.toNat + (n - 10))

/-- How one character is written in a string: quote, backslash and controls are escaped. -/
def escapeChar (c : Char) : List Char :=
  match c with
  | '"' => ['\\', '"']
  | '\\' => ['\\', '\\']
  | '\x08' => ['\\', 'b']
  | '\x0c' => ['\\', 'f']
  | '\n' => ['\\', 'n']
  | '\r' => ['\\', 'r']
  | '\t' => ['\\', 't']
  | c =>
    if c.toNat < 0x20 then ['\\', 'u', '0', '0', hexDigit (c.toNat / 16), hexDigit (c.toNat % 16)]
    else [c]

/-- A string between its quotes. -/
def stringText (s : String) : List Char :=
  '"' :: (s.toList.flatMap escapeChar ++ ['"'])

/-! ## 2. Compact text -/

mutual

/-- A value without blanks. -/
def Value.compact : Value → List Char
  | .null => ['n', 'u', 'l', 'l']
  | .natural n => n.repr.toList
  | .string s => stringText s
  | .list items => '[' :: (compactItems items ++ [']'])
  | .object members => '\x7b' :: (compactMembers members ++ ['\x7d'])

/-- Items with commas between them. -/
def compactItems : List Value → List Char
  | [] => []
  | [item] => item.compact
  | item :: items => item.compact ++ ',' :: compactItems items

/-- Members with commas between them. -/
def compactMembers : List (String × Value) → List Char
  | [] => []
  | [(key, value)] => stringText key ++ ':' :: value.compact
  | (key, value) :: members =>
    stringText key ++ ':' :: (value.compact ++ ',' :: compactMembers members)

end

/-! ## 3. Pretty text -/

/-- The start of a line at a level of nesting. -/
def newLine (level : Nat) : List Char :=
  '\n' :: List.replicate (2 * level) ' '

mutual

/-- A value that stands at a level of nesting, one item per line. -/
def Value.pretty (level : Nat) : Value → List Char
  | .null => ['n', 'u', 'l', 'l']
  | .natural n => n.repr.toList
  | .string s => stringText s
  | .list [] => ['[', ']']
  | .list (item :: items) =>
    '[' :: (newLine (level + 1) ++ (item.pretty (level + 1) ++ prettyItems level items))
  | .object [] => ['\x7b', '\x7d']
  | .object ((key, value) :: members) =>
    '\x7b' :: (newLine (level + 1) ++ (stringText key ++ ':' :: ' ' ::
      (value.pretty (level + 1) ++ prettyMembers level members)))

/-- The items behind the first, and the closing bracket. -/
def prettyItems (level : Nat) : List Value → List Char
  | [] => newLine level ++ [']']
  | item :: items =>
    ',' :: (newLine (level + 1) ++ (item.pretty (level + 1) ++ prettyItems level items))

/-- The members behind the first, and the closing bracket. -/
def prettyMembers (level : Nat) : List (String × Value) → List Char
  | [] => newLine level ++ ['\x7d']
  | (key, value) :: members =>
    ',' :: (newLine (level + 1) ++ (stringText key ++ ':' :: ' ' ::
      (value.pretty (level + 1) ++ prettyMembers level members)))

end

end TreeScript.Json
