import RepairLedger.Text.Blank
import RepairLedger.Time.Instant

/-!
# Reading instants

An instant is read from a date, a time of the day and an offset from universal time.  The parts may
be set apart by blanks, the numbers need no leading zeros, and the year may have a sign.
-/

namespace RepairLedger.Instant

open Text

/-- Why a text is not an instant. -/
inductive Flaw where
  | endsEarly
  | unexpected
  | outOfRange
  | trailing
  /-- The instant is outside the calendar in universal time. -/
  | impossible
deriving DecidableEq, Repr

/-- The text of a flaw. -/
def Flaw.message : Flaw → String
  | .endsEarly => "premature end of input"
  | .unexpected => "input contains invalid characters"
  | .outOfRange => "input is out of range"
  | .trailing => "trailing input"
  | .impossible => "no possible date and time matching input"

/-- The greatest number that is read. -/
def greatestNumber : Nat := 9223372036854775807

/-- A number of at least one digit and at most `width` digits. -/
def scanDigits (width : Nat) : List Char → Except Flaw (Nat × List Char)
  | [] => .error .endsEarly
  | c :: rest =>
    let ds := ((c :: rest).take width).takeWhile Char.isDigit
    if ds = [] then .error .unexpected
    else if Numeral.value ds ≤ greatestNumber then
      .ok (Numeral.value ds, (c :: rest).drop ds.length)
    else .error .outOfRange

/-- A number of one or two digits between two bounds, after blanks. -/
def scanNumber (least greatest : Nat) (text : List Char) : Except Flaw (Nat × List Char) := do
  let (n, rest) ← scanDigits 2 (trimLeft text)
  if least ≤ n ∧ n ≤ greatest then .ok (n, rest) else .error .outOfRange

/-- The year, after blanks: at most four digits without a sign, and any number of digits with
one. -/
def scanYear (text : List Char) : Except Flaw (Int × List Char) := do
  let (year, rest) ← match trimLeft text with
    | '-' :: rest => do
      let (n, rest) ← scanDigits rest.length rest
      .ok (-(n : Int), rest)
    | '+' :: rest => do
      let (n, rest) ← scanDigits rest.length rest
      .ok ((n : Int), rest)
    | text => do
      let (n, rest) ← scanDigits 4 text
      .ok ((n : Int), rest)
  if -2147483648 ≤ year ∧ year ≤ 2147483647 then .ok (year, rest) else .error .outOfRange

/-- A separator. -/
def scanChar (c : Char) : List Char → Except Flaw (Unit × List Char)
  | [] => .error .endsEarly
  | x :: rest => if x = c then .ok ((), rest) else .error .unexpected

/-- The nanoseconds of a fraction, if there is one; digits after the ninth do not count. -/
def scanFraction : List Char → Except Flaw (Nat × List Char)
  | '.' :: text => do
    let (n, rest) ← scanDigits 9 text
    let used := text.length - rest.length
    .ok (n * Nat.pow 10 (9 - used), rest.dropWhile Char.isDigit)
  | text => .ok (0, text)

/-- Two digits, the first of them at most `greatest`. -/
def scanPair (greatest : Char) : List Char → Except Flaw (Nat × List Char)
  | a :: b :: rest =>
    if a.isDigit ∧ b.isDigit then
      if a ≤ greatest then .ok (Numeral.value [a, b], rest) else .error .outOfRange
    else .error .unexpected
  | [a] => if a.toNat < 128 then .error .endsEarly else .error .unexpected
  | [] => .error .endsEarly

/-- The offset from universal time in minutes. -/
def scanZone : List Char → Except Flaw (Int × List Char)
  | [] => .error .endsEarly
  | c :: rest =>
    if ((c :: rest).take 3).map Char.toLower = ['u', 't', 'c'] then .ok (0, rest.drop 2)
    else if c = 'Z' ∨ c = 'z' then .ok (0, rest)
    else if c = '+' ∨ c = '-' ∨ c = Char.ofNat 0x2212 then do
      let (hours, rest) ← scanPair '9' rest
      let (minutes, rest) ← scanPair '5' (rest.dropWhile fun c => c = ':' || isBlank c)
      let size : Int := hours * 60 + minutes
      .ok (if c = '+' then size else -size, rest)
    else .error .unexpected

/-- What stands between the date and the time. -/
def scanBetween : List Char → Except Flaw (Unit × List Char)
  | [] => .error .endsEarly
  | c :: rest => if c = 'T' ∨ c = 't' ∨ c = ' ' then .ok ((), rest) else .error .unexpected

/-- The instant of a local date and time at an offset in minutes. -/
def ofLocal (year : Int) (month day hour minute second nano : Nat) (offset : Int) :
    Except Flaw Instant :=
  match Date.ofParts? year month day with
  | none => .error .outOfRange
  | some date =>
    if 1440 ≤ offset.natAbs then .error .outOfRange
    else
      let leap := second = 60
      let minutes : Int := hour * 60 + minute - offset
      let date? :=
        if minutes < 0 then date.previous? else if minutes < 1440 then some date else date.next?
      match date? with
      | none => .error .impossible
      | some date =>
        let ofDay := (minutes % 1440).toNat * 60 + (if leap then 59 else second)
        let nano := if leap then 1000000000 + nano else nano
        if h : (ofDay < 86400 ∧ nano < 2000000000 ∧ (1000000000 ≤ nano → ofDay % 60 = 59)) then
          .ok ⟨date, ofDay, nano, h.1, h.2.1⟩
        else .error .outOfRange

/-- Reads an instant. -/
def ofChars (text : List Char) : Except Flaw Instant := do
  let (year, rest) ← scanYear text
  let (_, rest) ← scanChar '-' (trimLeft rest)
  let (month, rest) ← scanNumber 1 12 rest
  let (_, rest) ← scanChar '-' (trimLeft rest)
  let (day, rest) ← scanNumber 1 31 rest
  let (_, rest) ← scanBetween rest
  let (hour, rest) ← scanNumber 0 23 rest
  let (_, rest) ← scanChar ':' (trimLeft rest)
  let (minute, rest) ← scanNumber 0 59 rest
  let (_, rest) ← scanChar ':' (trimLeft rest)
  let (second, rest) ← scanNumber 0 60 rest
  let (nano, rest) ← scanFraction rest
  let (offset, rest) ← scanZone (trimLeft rest)
  if trimLeft rest ≠ [] then .error .trailing
  else ofLocal year month day hour minute second nano offset

/-- Reads an instant. -/
def ofText (text : String) : Except Flaw Instant :=
  ofChars text.toList

end RepairLedger.Instant
