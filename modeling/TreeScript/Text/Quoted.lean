import TreeScript.Text.Hidden

/-!
# Quoted texts

Names and values stand in messages and listings between double quotes. Quote and backslash are
escaped, the usual controls have a letter each, and every other hidden character is written by its
code point, so a quoted text is one visible line.
-/

namespace TreeScript.Text

/-- How one character is written inside quotes. -/
def quoteChar (c : Char) : List Char :=
  match c with
  | '"' => ['\\', '"']
  | '\\' => ['\\', '\\']
  | '\n' => ['\\', 'n']
  | '\r' => ['\\', 'r']
  | '\t' => ['\\', 't']
  | '\x00' => ['\\', '0']
  | c =>
    if isHidden c then '\\' :: 'u' :: '\x7b' :: (Nat.toDigits 16 c.toNat ++ ['\x7d'])
    else [c]

def quoted (s : String) : String :=
  String.ofList ('"' :: (s.toList.flatMap quoteChar ++ ['"']))

end TreeScript.Text
