import RepairLedger.Json.Fault
import RepairLedger.Text.Utf8

/-!
# Number literals

A number literal is read in two steps: `Literal.scan` takes it apart by the grammar, and
`Literal.number` finds the number that it stands for.

A whole literal within the range of `Integer` stands for that integer, except that `-0` is the
floating point number.  Every other literal is a floating point number.  Its digits are gathered
in a significand of 64 bits; from the first digit that no longer fits, digits only count towards
the power of ten.  The significand is then multiplied or divided once by that power.  This is fast
and not always the nearest floating point number.
-/

namespace RepairLedger.Json

open Text

/-- The parts of a number literal. -/
structure Literal where
  negative : Bool
  whole : List Nat
  /-- The digits after the point. -/
  fraction : Option (List Nat)
  /-- Is the exponent negative, and its digits. -/
  exponent : Option (Bool × List Nat)

/-! ### The grammar -/

/-- The digit that a symbol is. -/
def digit? : Symbol → Option Nat
  | .char c => if c.isDigit then some (Numeral.digitValue c) else none
  | .stray _ => none

/-- The digits that a text starts with, and the rest. -/
def scanDigits : List Symbol → List Nat × List Symbol
  | [] => ([], [])
  | s :: rest =>
    match digit? s with
    | some d => let (ds, rest) := scanDigits rest; (d :: ds, rest)
    | none => ([], s :: rest)

theorem scanDigits_length (text : List Symbol) :
    (scanDigits text).2.length ≤ text.length := by
  fun_induction scanDigits text <;> simp_all
  omega

/-- The fault of a text that goes on without the digit that is due. -/
def digitFault : List Symbol → Fault
  | [] => .endInValue
  | _ :: _ => .badNumber

/-- At least one digit. -/
def scanSomeDigits (text : List Symbol) : Except Fault (List Nat × List Symbol) :=
  match scanDigits text with
  | ([], rest) => .error (digitFault rest)
  | (ds, rest) => .ok (ds, rest)

/-- The digits before the point: a zero stands alone. -/
def scanWhole (text : List Symbol) : Except Fault (List Nat × List Symbol) := do
  let (ds, rest) ← scanSomeDigits text
  match ds with
  | 0 :: _ :: _ => .error .badNumber
  | _ => .ok (ds, rest)

/-- The digits after a point, if there is one. -/
def scanFraction : List Symbol → Except Fault (Option (List Nat) × List Symbol)
  | .char '.' :: rest => do
    let (ds, rest) ← scanSomeDigits rest
    .ok (some ds, rest)
  | text => .ok (none, text)

/-- The sign of an exponent: is it negative? -/
def scanSign : List Symbol → Bool × List Symbol
  | .char '+' :: rest => (false, rest)
  | .char '-' :: rest => (true, rest)
  | text => (false, text)

/-- The exponent, if there is one. -/
def scanExponent : List Symbol → Except Fault (Option (Bool × List Nat) × List Symbol)
  | .char c :: rest =>
    if c = 'e' ∨ c = 'E' then do
      let (negative, rest) := scanSign rest
      let (ds, rest) ← scanSomeDigits rest
      .ok (some (negative, ds), rest)
    else .ok (none, .char c :: rest)
  | text => .ok (none, text)

/-- The literal that a text starts with, after a minus sign if `negative`. -/
def Literal.scan (negative : Bool) (text : List Symbol) :
    Except Fault (Literal × List Symbol) := do
  let (whole, rest) ← scanWhole text
  let (fraction, rest) ← scanFraction rest
  let (exponent, rest) ← scanExponent rest
  .ok (⟨negative, whole, fraction, exponent⟩, rest)

/-! ### The number -/

/-- Appends digits to a significand as long as it stays below `2^64`, and gives the digits that
are left over. -/
def gather (significand : Nat) : List Nat → Nat × List Nat
  | [] => (significand, [])
  | d :: ds =>
    if significand * 10 + d < 18446744073709551616 then gather (significand * 10 + d) ds
    else (significand, d :: ds)

/-- The floating point number nearest to `10 ^ n`. -/
def powerOfTen (n : Nat) : Float :=
  Float.ofScientific 1 false n

/-- Divides by `10 ^ n`, in steps of at most `10 ^ 308`. -/
def scaleDown (x : Float) (n : Nat) : Float :=
  if n ≤ 308 then x / powerOfTen n
  else if x == 0 then x
  else scaleDown (x / powerOfTen 308) (n - 308)
termination_by n
decreasing_by omega

/-- The floating point number of a significand and a power of ten. -/
def realOf (negative : Bool) (significand : Nat) (power : Int) : Except Fault Number :=
  let start := (UInt64.ofNat significand).toFloat
  let size? : Except Fault Float :=
    if power < 0 then .ok (scaleDown start power.natAbs)
    else if significand = 0 then .ok start
    else if 308 < power then .error .numberTooLarge
    else
      let product := start * powerOfTen power.natAbs
      if product.isInf then .error .numberTooLarge else .ok product
  size?.map fun size => .real (if negative then -size else size).toBits

/-- The greatest exponent that is worked out; with a greater one, the number is zero or too
large. -/
def exponentLimit : Nat := 2147483647

/-- The number that a literal stands for. -/
def Literal.number (l : Literal) : Except Fault Number :=
  let (significand, unread) := gather 0 l.whole
  match l.fraction, l.exponent, unread with
  | none, none, [] =>
    let value : Int := if l.negative then -significand else significand
    if h : (-9223372036854775808 ≤ value ∧ value < 18446744073709551616) then
      if l.negative && significand = 0 then realOf true 0 0 else .ok (.integer ⟨value, h⟩)
    else realOf l.negative significand 0
  | fraction, exponent, _ =>
    let fraction := fraction.getD []
    let (significand, dropped) := gather significand fraction
    let power : Int := unread.length - (fraction.length - dropped.length : Nat)
    match exponent with
    | none => realOf l.negative significand power
    | some (below, ds) =>
      let size := ds.foldl (fun n d => n * 10 + d) 0
      if size ≤ exponentLimit then
        realOf l.negative significand (if below then power - size else power + size)
      else if significand = 0 ∨ below then realOf l.negative 0 0
      else .error .numberTooLarge

end RepairLedger.Json
