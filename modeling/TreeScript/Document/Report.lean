import TreeScript.Document.Basic
import TreeScript.Text.Blank
import TreeScript.Text.Width

/-!
# Reports of document errors

A document error is shown with the line of the source it was met on and a mark below the place.
The place is found by byte offset and drawn by character: on a line with characters of several
bytes the mark stands further right, and past the end of the text nothing is drawn.
-/

namespace TreeScript

open TreeScript.Text (offsetOf trimEnd width)

namespace Report

/-! ## 1. Lines of a source -/

/-- Characters that end a line of a source. -/
def endsLine (c : Char) : Bool :=
  c = '\n' ∨ c = '\r' ∨ c = '\x0b' ∨ c = '\x0c' ∨ c = '\u0085' ∨ c = ' ' ∨ c = ' '

/-- Cuts a text behind every line end; a carriage return and a line feed end one line together.
`line` holds the current line in reverse. -/
def cutLines (line : List Char) : List Char → List (List Char)
  | [] => if line.isEmpty then [] else [line.reverse]
  | '\r' :: '\n' :: cs => ('\n' :: '\r' :: line).reverse :: cutLines [] cs
  | c :: cs => if endsLine c then (c :: line).reverse :: cutLines [] cs else cutLines (c :: line) cs

/-- The lines of a source with their ends. An empty source has one empty line. -/
def sourceLines (cs : List Char) : List (List Char) :=
  if cs.isEmpty then [[]] else cutLines [] cs

/-- A line of a source: its number, counted from 1, the offset of its first character and its
characters. -/
structure Line where
  number : Nat
  start : Nat
  chars : List Char
deriving DecidableEq, Repr

def numberLines (number start : Nat) : List (List Char) → List Line
  | [] => []
  | chars :: rest => ⟨number, start, chars⟩ :: numberLines (number + 1) (start + chars.length) rest

/-- The line of a character offset: the last one that starts at or before it. -/
def lineAt? (lines : List Line) (offset : Nat) : Option Line :=
  (lines.filter fun line => line.start ≤ offset).getLast?

/-! ## 2. Cells -/

/-- How a character at an index of its line is drawn, and in how many columns. A tab reaches to the
next multiple of four, any other blank is one space. -/
def drawn (c : Char) (index : Nat) : Char × Nat :=
  if c = '\t' then (' ', 4 - index % 4)
  else if Text.isBlank c then (' ', 1)
  else (c, width c)

def drawnLine (chars : List Char) : List Char :=
  (chars.zipIdx.map fun (c, index) =>
    let (shown, columns) := drawn c index
    if c = '\t' ∨ Text.isBlank c then List.replicate columns shown else [shown]).flatten

/-- The number of columns at an index of a line; behind the line each index has one. -/
def columnsAt (chars : List Char) (index : Nat) : Nat :=
  match chars[index]? with
  | some c => (drawn c index).2
  | none => 1

/-- A cell of a number of columns: its first character, and another one that fills the rest. -/
def cell (columns : Nat) (first fill : Char) : List Char :=
  match columns with
  | 0 => []
  | n + 1 => first :: List.replicate n fill

/-- A row of cells below the indices of a line up to `last`. -/
def row (chars : List Char) (last : Nat) (cellAt : Nat → Char × Char) : List Char :=
  (List.range (last + 1)).flatMap fun index =>
    let (first, fill) := cellAt index
    cell (columnsAt chars index) first fill

/-! ## 3. The report -/

/-- A range of characters of a source, its end left out. -/
structure Span where
  first : Nat
  stop : Nat
deriving DecidableEq, Repr

/-- What a report says: its code and title, the place it names, the characters it marks with a
message, and a note. -/
structure Content where
  code : String
  title : String
  place : Nat
  label : Span
  message : String
  note : Option String

/-- The marked line with the mark and the message below it, behind a margin. -/
def excerpt (margin : String) (numberWidth : Nat) (line : Line) (label : Span) (message : String) :
    List String :=
  let chars := trimEnd line.chars
  let column := label.first - line.start
  let last := label.stop - line.start + 1
  -- an empty span is marked by a bar without branches
  let mark := if label.first < label.stop then ('┬', '─') else ('│', ' ')
  let marks := row chars last fun index => if index = column then mark else (' ', ' ')
  let arrow := row chars last fun index =>
    if index < column then (' ', ' ') else if index = column then ('╰', '─') else ('─', '─')
  let number := List.leftpad numberWidth ' ' line.number.repr.toList
  [ " " ++ String.ofList number ++ " │ " ++ String.ofList (drawnLine chars),
    margin ++ "│ " ++ String.ofList marks,
    margin ++ "│ " ++ String.ofList arrow ++ " " ++ message ]

def body (content : Content) (source : Source) : List String :=
  let text := source.text.toList
  let lines := numberLines 1 0 (sourceLines text)
  -- offsets in bytes are compared with lengths in characters; past the end nothing is drawn
  if text.length < content.label.first then []
  else
    match lineAt? lines content.label.first with
    | none => []
    | some line =>
      let numberWidth := line.number.repr.length
      let margin := String.ofList (List.replicate (numberWidth + 2) ' ')
      let place :=
        if text.length < content.place then "?:?"
        else
          match lineAt? lines content.place with
          | none => "?:?"
          | some line => line.number.repr ++ ":" ++ (content.place - line.start + 1).repr
      -- a span that leaves its line has no mark
      let inLine := line.start ≤ content.label.first ∧
        content.label.stop ≤ line.start + line.chars.length
      let shown :=
        if inLine then excerpt margin numberWidth line content.label content.message
        else [margin ++ "│ "]
      let note :=
        match content.note with
        | none => []
        | some note => [margin ++ "│ ", margin ++ "│ Note: " ++ note]
      [margin ++ "╭─[ " ++ source.path ++ ":" ++ place ++ " ]", margin ++ "│"] ++ shown ++ note ++
        [String.ofList (List.replicate (numberWidth + 2) '─') ++ "╯"]

def text (content : Content) (source : Source) : String :=
  let title := "[" ++ content.code ++ "] Error: " ++ content.title
  String.join ((title :: body content source).map (· ++ "\n"))

end Report

/-- What is wrong with most misshapen documents. -/
def elementNote : String :=
  "every element needs a \"tag\"; \"attributes\", \"children\" and \"text\" are optional"

/-- The report of a document error in its source. A malformed document is marked at the fault, a
misshapen one right before it. -/
def DocumentError.report (error : DocumentError) (source : Source) : String :=
  match error with
  | .unreadable .. => "[D1] Error: " ++ error.message ++ "\n"
  | .malformed _ position message =>
    let place := offsetOf source.text.toList position.line position.column
    Report.text
      { code := "D2", title := "Document syntax error.", place, label := ⟨place, place + 1⟩,
        message, note := none } source
  | .misshapen _ position message =>
    let place := offsetOf source.text.toList position.line position.column
    Report.text
      { code := "D3", title := "Malformed element.", place, label := ⟨place - 1, place⟩,
        message, note := some elementNote } source

end TreeScript
