import TreeScript.Text.Lines
import TreeScript.Text.Quoted

/-!
# Faults in JSON texts

Reading a JSON text stops at the first fault: the text ends too early, it is not JSON, or it is
JSON of another shape than the one asked for. A fault remembers its cause and how much of the text
lies behind it; line and column follow from the text.
-/

namespace TreeScript.Json

open TreeScript.Text (size quoted Position)

/-! ## 1. Causes -/

/-- A value that stands where one of another shape was expected. -/
inductive Found where
  | null
  | boolean (value : Bool)
  | integer (value : Int)
  | float (text : String)
  | string (value : String)
  | sequence
  | map
deriving DecidableEq, Repr

def Found.describe : Found → String
  | .null => "null"
  | .boolean true => "boolean `true`"
  | .boolean false => "boolean `false`"
  | .integer (.ofNat n) => "integer `" ++ n.repr ++ "`"
  | .integer (.negSucc n) => "integer `-" ++ (n + 1).repr ++ "`"
  | .float text => "floating point `" ++ text ++ "`"
  | .string value => "string " ++ quoted value
  | .sequence => "sequence"
  | .map => "map"

inductive Cause where
  | endInValue
  | endInString
  | endInList
  | endInObject
  | expectedColon
  | expectedListEnd
  | expectedObjectEnd
  | expectedWord
  | expectedValue
  | invalidEscape
  | invalidNumber
  | numberOutOfRange
  | controlCharacter
  | keyMustBeString
  | loneSurrogate
  | brokenSurrogatePair
  | trailingComma
  | trailingCharacters
  | tooDeep
  | wrongType (found : Found) (expected : String)
  | wrongValue (found : Found) (expected : String)
  | wrongLength (length : Nat) (expected : String)
  | missingField (name : String)
  | duplicateField (name : String)
  | unknownVariant (name : String)
  | bareVariant (name : String)
deriving DecidableEq, Repr

inductive Category where
  /-- The text ends too early. -/
  | truncated
  /-- The text is not JSON. -/
  | malformed
  /-- The text is JSON of a wrong shape. -/
  | misshapen
deriving DecidableEq, Repr

namespace Cause

def category : Cause → Category
  | .endInValue | .endInString | .endInList | .endInObject => .truncated
  | .wrongType .. | .wrongValue .. | .wrongLength .. | .missingField _ | .duplicateField _
  | .unknownVariant _ | .bareVariant _ => .misshapen
  | _ => .malformed

def message : Cause → String
  | .endInValue => "EOF while parsing a value"
  | .endInString => "EOF while parsing a string"
  | .endInList => "EOF while parsing a list"
  | .endInObject => "EOF while parsing an object"
  | .expectedColon => "expected `:`"
  | .expectedListEnd => "expected `,` or `]`"
  | .expectedObjectEnd => "expected `,` or `\x7d`"
  | .expectedWord => "expected ident"
  | .expectedValue => "expected value"
  | .invalidEscape => "invalid escape"
  | .invalidNumber => "invalid number"
  | .numberOutOfRange => "number out of range"
  | .controlCharacter => "control character (\\u0000-\\u001F) found while parsing a string"
  | .keyMustBeString => "key must be a string"
  | .loneSurrogate => "lone leading surrogate in hex escape"
  | .brokenSurrogatePair => "unexpected end of hex escape"
  | .trailingComma => "trailing comma"
  | .trailingCharacters => "trailing characters"
  | .tooDeep => "recursion limit exceeded"
  | .wrongType found expected => "invalid type: " ++ found.describe ++ ", expected " ++ expected
  | .wrongValue found expected => "invalid value: " ++ found.describe ++ ", expected " ++ expected
  | .wrongLength length expected => "invalid length " ++ length.repr ++ ", expected " ++ expected
  | .missingField name => "missing field `" ++ name ++ "`"
  | .duplicateField name => "duplicate field `" ++ name ++ "`"
  | .unknownVariant name => "unknown variant `" ++ name ++ "`"
  | .bareVariant name => "variant `" ++ name ++ "` needs a value"

end Cause

/-! ## 2. Faults and where they are -/

/-- A cause, and the number of bytes of the text behind the place it was met. -/
structure Fault where
  cause : Cause
  left : Nat
deriving DecidableEq, Repr

namespace Fault

/-- A fault met when `rest` is what is left of the text. -/
def here (cause : Cause) (rest : List Char) : Fault :=
  ⟨cause, size rest⟩

/-- A fault met one byte into `rest`, or at the end of the text if nothing is left. -/
def ahead (cause : Cause) (rest : List Char) : Fault :=
  ⟨cause, size rest - 1⟩

/-- The place of a fault in the text that was read. -/
def position (fault : Fault) (text : List Char) : Position :=
  Position.ofOffset text (size text - fault.left)

def message (fault : Fault) (text : List Char) : String :=
  let place := fault.position text
  fault.cause.message ++ " at line " ++ place.line.repr ++ " column " ++ place.column.repr

end Fault

end TreeScript.Json
