import RepairLedger.Json.Text
import RepairLedger.Text.Quoted

/-!
# Faults of a JSON text

What can be wrong with a text that should hold a value of a certain shape.  A text ends too early,
or it is not JSON, or it is JSON so far and does not have the shape.
-/

namespace RepairLedger.Json

/-- How a message names a value that was found; of an array or an object it says only that it is
one. -/
def Value.describe : Value → String
  | .null => "null"
  | .bool b => if b then "boolean `true`" else "boolean `false`"
  | .number (.integer i) => s!"integer `{Numeral.textOf i.value}`"
  | .number (.real bits) => "floating point `" ++ String.ofList (realChars bits) ++ "`"
  | .string s => "string " ++ Text.quote s
  | .array _ => "sequence"
  | .object _ => "map"

/-- Why a value does not have the wanted shape. -/
inductive Mismatch where
  | wrongKind (found : Value) (wanted : String)
  | wrongValue (found : Value) (wanted : String)
  | missingField (name : String)
  | duplicateField (name : String)
  /-- An array that stands for a record ends before this element. -/
  | tooShort (length : Nat) (wanted : String)
  | unknownVariant (name : String) (wanted : String)
  /-- The value has the right kind, but the type it is read as refuses it. -/
  | refused (reason : String)

/-- The text of a mismatch. -/
def Mismatch.message : Mismatch → String
  | .wrongKind found wanted => s!"invalid type: {found.describe}, expected {wanted}"
  | .wrongValue found wanted => s!"invalid value: {found.describe}, expected {wanted}"
  | .missingField name => s!"missing field `{name}`"
  | .duplicateField name => s!"duplicate field `{name}`"
  | .tooShort length wanted => s!"invalid length {length}, expected {wanted}"
  | .unknownVariant name wanted => s!"unknown variant `{name}`, expected {wanted}"
  | .refused reason => reason

inductive Fault where
  | endInValue
  | endInArray
  | endInObject
  | endInString
  | valueExpected
  | wordExpected
  | colonExpected
  | commaOrBracketExpected
  | commaOrBraceExpected
  | keyNotString
  | trailingComma
  | trailingText
  | badNumber
  | numberTooLarge
  | badEscape
  | loneSurrogate
  | surrogateExpected
  | controlCharacter
  | strayBytes
  | tooDeep
  | mismatch (m : Mismatch)

/-- The three kinds of faults. -/
inductive FaultKind where
  | ends
  | malformed
  | misshapen
deriving DecidableEq, Repr

/-- The kind of a fault. -/
def Fault.kind : Fault → FaultKind
  | .endInValue | .endInArray | .endInObject | .endInString => .ends
  | .mismatch _ => .misshapen
  | _ => .malformed

/-- The text of a fault.  Where the fault was found is not kept, so no line and no column stand
behind the text. -/
def Fault.message : Fault → String
  | .endInValue => "EOF while parsing a value"
  | .endInArray => "EOF while parsing a list"
  | .endInObject => "EOF while parsing an object"
  | .endInString => "EOF while parsing a string"
  | .valueExpected => "expected value"
  | .wordExpected => "expected ident"
  | .colonExpected => "expected `:`"
  | .commaOrBracketExpected => "expected `,` or `]`"
  | .commaOrBraceExpected => "expected `,` or `\x7d`"
  | .keyNotString => "key must be a string"
  | .trailingComma => "trailing comma"
  | .trailingText => "trailing characters"
  | .badNumber => "invalid number"
  | .numberTooLarge => "number out of range"
  | .badEscape => "invalid escape"
  | .loneSurrogate => "lone leading surrogate in hex escape"
  | .surrogateExpected => "unexpected end of hex escape"
  | .controlCharacter => "control character (\\u0000-\\u001F) found while parsing a string"
  | .strayBytes => "invalid unicode code point"
  | .tooDeep => "recursion limit exceeded"
  | .mismatch m => m.message

end RepairLedger.Json
