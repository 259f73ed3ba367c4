/-!
# Lines and positions

Texts are stored as UTF-8, and a position in a text is counted in bytes: an offset from the start,
or a line and a column. Line feeds end lines.

* `pieces` cuts a text after every line feed; nothing is lost.
* `lines` are the pieces without their line ends.
* `Position.ofOffset` gives line and column of a byte offset, `offsetOf` goes back.
-/

namespace TreeScript.Text

/-! ## 1. Sizes -/

def size : List Char → Nat
  | [] => 0
  | c :: cs => c.utf8Size + size cs

/-! ## 2. Lines -/

/-- Cuts a text after every line feed; `line` holds the current piece in reverse. -/
def piecesFrom (line : List Char) : List Char → List (List Char)
  | [] => if line.isEmpty then [] else [line.reverse]
  | c :: cs =>
    if c = '\n' then (c :: line).reverse :: piecesFrom [] cs
    else piecesFrom (c :: line) cs

/-- The text cut after every line feed. There is no empty last piece. -/
def pieces (cs : List Char) : List (List Char) :=
  piecesFrom [] cs

/-- A piece without its line feed, and without a carriage return right before it. -/
def dropLineEnd (piece : List Char) : List Char :=
  match piece.reverse with
  | '\n' :: '\r' :: rest => rest.reverse
  | '\n' :: rest => rest.reverse
  | _ => piece

/-- The lines of a text, without their ends. A carriage return alone ends no line. -/
def lines (s : String) : List String :=
  (pieces s.toList).map fun piece => String.ofList (dropLineEnd piece)

/-! ## 3. Positions -/

/-- A place in a text: lines count from 1, columns are bytes since the start of the line. -/
structure Position where
  line : Nat
  column : Nat
deriving DecidableEq, Repr

/-- Moves on from `p` through the text by `offset` bytes. -/
def Position.advance (p : Position) (offset : Nat) : List Char → Position
  | [] => p
  | c :: cs =>
    if offset < c.utf8Size then { p with column := p.column + offset }
    else if c = '\n' then Position.advance ⟨p.line + 1, 0⟩ (offset - c.utf8Size) cs
    else Position.advance { p with column := p.column + c.utf8Size } (offset - c.utf8Size) cs

/-- The position `offset` bytes into a text. It is on the next line right after a line feed. -/
def Position.ofOffset (cs : List Char) (offset : Nat) : Position :=
  Position.advance ⟨1, 0⟩ offset cs

/-- The byte offset of a line and a column, both counted from 1. Past the text's end it is a word of 64
bits, which may have wrapped around, and is cut off at the end. -/
def offsetOf (cs : List Char) (line column : Nat) : Nat :=
  let offset := size ((pieces cs).take (line - 1)).flatten + (column - 1)
  if offset ≤ size cs then offset else min (offset % UInt64.size) (size cs)

end TreeScript.Text
