import RepairLedger.Text.Cut
import RepairLedger.Text.Numeral
import RepairLedger.Time.Date
import RepairLedger.Toml.Item

/-!
# TOML words

Numbers, truth values, dates and times are words: runs of letters, digits and a few marks.
`Word.item?` says what a word is.
-/

namespace RepairLedger.Toml.Word

/-- May the character stand in a word? -/
def isWordChar (c : Char) : Bool :=
  c.isAlphanum || c = '_' || c = '-' || c = '+' || c = '.' || c = ':'

/-! ### Digits -/

/-- The digits of a run of digits, between two of which there may be an underscore. -/
def digits? (isDigit : Char → Bool) : List Char → Option (List Char)
  | [] => none
  | [d] => if isDigit d then some [d] else none
  | d :: '_' :: rest => if isDigit d then (digits? isDigit rest).map (d :: ·) else none
  | d :: rest => if isDigit d then (digits? isDigit rest).map (d :: ·) else none

/-- Digits that do not begin with a zero, unless it is the only one. -/
def wholeDigits? (cs : List Char) : Option (List Char) :=
  match cs with
  | '0' :: _ :: _ => none
  | cs => digits? Char.isDigit cs

/-- The sign of a word: is it negative? -/
def sign : List Char → Bool × List Char
  | '+' :: rest => (false, rest)
  | '-' :: rest => (true, rest)
  | cs => (false, cs)

/-! ### Integers -/

/-- An integer, if it is one of 64 bits with a sign. -/
def bounded? (i : Int) : Option Int :=
  if -9223372036854775808 ≤ i ∧ i < 9223372036854775808 then some i else none

/-- The value of a digit in a base up to 16. -/
def digitValue (c : Char) : Nat :=
  if c.isDigit then c.toNat - 48 else c.toLower.toNat - 87

/-- The number that digits stand for in a base. -/
def valueIn (base : Nat) (ds : List Char) : Nat :=
  ds.foldl (fun n d => n * base + digitValue d) 0

/-- Is the character a digit in the base? -/
def isDigitOf (base : Nat) (c : Char) : Bool :=
  (c.isDigit || ('a' ≤ c.toLower && c.toLower ≤ 'f')) && digitValue c < base

/-- An integer in the base that a letter stands for. -/
def inBase? (base : Nat) (cs : List Char) : Option Int :=
  (digits? (isDigitOf base) cs).bind fun ds => bounded? (valueIn base ds)

/-- Reads an integer. -/
def integer? (cs : List Char) : Option Int :=
  match cs with
  | '0' :: 'x' :: rest => inBase? 16 rest
  | '0' :: 'o' :: rest => inBase? 8 rest
  | '0' :: 'b' :: rest => inBase? 2 rest
  | cs =>
    let (negative, size) := sign cs
    (wholeDigits? size).bind fun ds =>
      bounded? (if negative then -(Numeral.value ds : Int) else Numeral.value ds)

/-! ### Floating point numbers -/

/-- The smallest number that is rounded up to infinity. -/
def overflow : Nat := Nat.pow 2 1024 - Nat.pow 2 970

/-- Is a coefficient times a power of ten too large for a floating point number? -/
def overflows (coefficient : Nat) (exponent : Int) : Bool :=
  if coefficient = 0 then false
  else
    let size := (Numeral.digits coefficient).length + exponent
    if size < 300 then false
    else if 400 < size then true
    else if 0 ≤ exponent then overflow ≤ coefficient * Nat.pow 10 exponent.toNat
    else overflow * Nat.pow 10 exponent.natAbs ≤ coefficient

/-- The exponent after an `e`. -/
def exponent? (cs : List Char) : Option Int :=
  let (negative, size) := sign cs
  (digits? Char.isDigit size).map fun ds =>
    if negative then -(Numeral.value ds : Int) else Numeral.value ds

/-- Is it a floating point number?  One that is too large is not, unless it is negative. -/
def isReal (cs : List Char) : Bool :=
  let (negative, size) := sign cs
  if size = ['i', 'n', 'f'] ∨ size = ['n', 'a', 'n'] then true
  else
    let (front, exponent) := match (Text.cutFirst 'e' size).or (Text.cutFirst 'E' size) with
      | some (front, exponent) => (front, some exponent)
      | none => (size, none)
    let (whole, fraction) := match Text.cutFirst '.' front with
      | some (whole, fraction) => (whole, some fraction)
      | none => (front, none)
    let places? := match fraction with
      | some fraction => digits? Char.isDigit fraction
      | none => some []
    let exponent? := match exponent with
      | some exponent => exponent? exponent
      | none => some 0
    match wholeDigits? whole, places?, exponent? with
    | some whole, some places, some e =>
      (fraction.isSome || exponent.isSome) &&
        (negative || !overflows (Numeral.value (whole ++ places)) (e - places.length))
    | _, _, _ => false

/-! ### Dates and times -/

/-- A number of exactly so many digits between two bounds. -/
def inRange (width least greatest : Nat) (cs : List Char) : Bool :=
  cs.length = width && cs.all Char.isDigit && least ≤ Numeral.value cs &&
    Numeral.value cs ≤ greatest

/-- Is it a date? -/
def isDate (cs : List Char) : Bool :=
  match Text.pieces '-' cs with
  | [year, month, day] =>
    inRange 4 0 9999 year && inRange 2 1 12 month &&
      inRange 2 1 (daysInMonth (Numeral.value year) (Numeral.value month)) day
  | _ => false

/-- Is it a time of the day in hours and minutes? -/
def isHourMinute (cs : List Char) : Bool :=
  match Text.pieces ':' cs with
  | [hour, minute] => inRange 2 0 23 hour && inRange 2 0 59 minute
  | _ => false

/-- Is it a time of the day, perhaps with a fraction of a second? -/
def isTime (cs : List Char) : Bool :=
  let (front, fraction) := match Text.cutFirst '.' cs with
    | some (front, fraction) => (front, some fraction)
    | none => (cs, none)
  isHourMinute (front.take 5) && front.getD 5 ' ' = ':' && inRange 2 0 60 (front.drop 6) &&
    fraction.all fun ds => !ds.isEmpty && ds.all Char.isDigit

/-- Is it a time of the day, perhaps with an offset from universal time? -/
def isTimeWithOffset (cs : List Char) : Bool :=
  match cs.reverse with
  | 'Z' :: rest | 'z' :: rest => isTime rest.reverse
  | _ =>
    isTime cs ||
      (let offset := cs.drop (cs.length - 6)
       let mark := offset.head?
       (mark = some '+' || mark = some '-') && isHourMinute (offset.drop 1) &&
         isTime (cs.take (cs.length - 6)))

/-- Is it a date, a time, or both? -/
def isMoment (cs : List Char) : Bool :=
  isDate cs || isTime cs ||
    (isDate (cs.take 10) && ['T', 't'].contains (cs.getD 10 ' ') && isTimeWithOffset (cs.drop 11))

/-! ### Words -/

/-- What a word is. -/
def item? (cs : List Char) : Option Item :=
  if cs = ['t', 'r', 'u', 'e'] then some (.boolean true)
  else if cs = ['f', 'a', 'l', 's', 'e'] then some (.boolean false)
  else if isMoment cs then some .moment
  else
    match integer? cs with
    | some i => some (.integer i)
    | none => if isReal cs then some .real else none

end RepairLedger.Toml.Word
