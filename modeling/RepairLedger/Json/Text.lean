import RepairLedger.Decimal.Shortest
import RepairLedger.Json.Value
import RepairLedger.Text.Numeral

/-!
# JSON text

Values written as text, on one line or indented.  In a string a backslash stands before a quotation
mark, a backslash and the control characters; everything else is written as it is.  A floating
point number is written with the fewest digits that read back.
-/

namespace RepairLedger.Json

/-! ### Numbers -/

/-- The digits of a decimal with its point: exponents of the leading digit from -5 to 15 are
written positionally, with at least one digit after the point, all others after an `e` with their
sign. -/
def realDigits (d : Decimal) : List Char :=
  let ds := Numeral.digits d.coefficient
  let leading := d.exponent + (ds.length - 1 : Nat)
  if -5 ≤ leading && leading < 16 then
    if 0 ≤ d.exponent then ds ++ List.replicate d.exponent.toNat '0' ++ ['.', '0']
    else if 0 ≤ leading then
      ds.take (leading.toNat + 1) ++ ['.'] ++ ds.drop (leading.toNat + 1)
    else ['0', '.'] ++ List.replicate ((-leading).toNat - 1) '0' ++ ds
  else
    let fraction := if ds.length = 1 then [] else '.' :: ds.drop 1
    ds.take 1 ++ fraction ++ ['e'] ++ (if leading < 0 then ['-'] else ['+']) ++
      Numeral.digits leading.natAbs

/-- The text of a finite floating point number. -/
def realChars (bits : UInt64) : List Char :=
  let x := Binary.ofBits bits
  let size := if x.mantissa = 0 then ['0', '.', '0'] else realDigits x.shortest
  if bits >>> 63 = 1 then '-' :: size else size

/-- The text of a number. -/
def Number.chars : Number → List Char
  | .integer i => Numeral.signed i.value
  | .real bits => realChars bits

/-! ### Strings -/

/-- The letter that names a control character after a backslash. -/
def escapeLetter? (c : Char) : Option Char :=
  if c = '\x08' then some 'b'
  else if c = '\x0c' then some 'f'
  else if c = '\n' then some 'n'
  else if c = '\r' then some 'r'
  else if c = '\t' then some 't'
  else none

/-- A character as it stands in a string. -/
def escapeChar (c : Char) : List Char :=
  if c = '"' then ['\\', '"']
  else if c = '\\' then ['\\', '\\']
  else
    match escapeLetter? c with
    | some letter => ['\\', letter]
    | none =>
      if c.toNat < 0x20 then
        ['\\', 'u', '0', '0', Nat.digitChar (c.toNat / 16), Nat.digitChar (c.toNat % 16)]
      else [c]

/-- The text of a string. -/
def stringChars (s : String) : List Char :=
  '"' :: s.toList.flatMap escapeChar ++ ['"']

/-! ### Values -/

/-- How the parts of a value are laid out. -/
inductive Layout where
  /-- On one line, without blanks. -/
  | compact
  /-- A line for each item and member, indented by so many spaces for each level. -/
  | indented (width : Nat)

/-- What stands before an item, a member or a closing bracket at the given level. -/
def Layout.lineStart : Layout → Nat → List Char
  | .compact, _ => []
  | .indented width, level => '\n' :: List.replicate (width * level) ' '

/-- What stands between the name and the value of a member. -/
def Layout.colon : Layout → List Char
  | .compact => [':']
  | .indented _ => [':', ' ']

mutual

/-- The text of a value that stands at the given level. -/
def Value.chars (layout : Layout) (level : Nat) : Value → List Char
  | .null => ['n', 'u', 'l', 'l']
  | .bool true => ['t', 'r', 'u', 'e']
  | .bool false => ['f', 'a', 'l', 's', 'e']
  | .number n => n.chars
  | .string s => stringChars s
  | .array [] => ['[', ']']
  | .array (v :: vs) =>
    '[' :: layout.lineStart (level + 1) ++ v.chars layout (level + 1) ++
      itemsChars layout (level + 1) vs ++ layout.lineStart level ++ [']']
  | .object [] => ['\x7b', '\x7d']
  | .object ((name, v) :: rest) =>
    '\x7b' :: layout.lineStart (level + 1) ++ stringChars name ++ layout.colon ++
      v.chars layout (level + 1) ++ membersChars layout (level + 1) rest ++
      layout.lineStart level ++ ['\x7d']

/-- The text of the items after the first one. -/
def itemsChars (layout : Layout) (level : Nat) : List Value → List Char
  | [] => []
  | v :: vs =>
    ',' :: layout.lineStart level ++ v.chars layout level ++ itemsChars layout level vs

/-- The text of the members after the first one. -/
def membersChars (layout : Layout) (level : Nat) : List (String × Value) → List Char
  | [] => []
  | (name, v) :: rest =>
    ',' :: layout.lineStart level ++ stringChars name ++ layout.colon ++ v.chars layout level ++
      membersChars layout level rest

end

/-- The text of a value. -/
def Value.text (layout : Layout) (v : Value) : String :=
  String.ofList (v.chars layout 0)

example : realChars 0x3FF8000000000000 = ['1', '.', '5'] := by decide +kernel

example : realChars 0xC341C37937E08000 = "-1e+16".toList := by decide +kernel

end RepairLedger.Json
