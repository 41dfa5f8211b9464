/-!
# Shortest decimals of binary floating point numbers

A 64-bit floating point number stands for an interval of reals, namely those that round to it.
Its shortest decimal is the one with the fewest digits in that interval; of several such it is the
nearest to the number itself.  `Binary.shortest` finds it in exact integer arithmetic: for one,
two, … digits it tries the two decimals with that many digits next to the number.
-/

namespace RepairLedger

/-- A finite number that is not negative: `mantissa * 2 ^ exponent`. -/
structure Binary where
  mantissa : Nat
  exponent : Int
  /-- The next smaller number is half as far away as the next greater one. -/
  narrowBelow : Bool

/-- The absolute value of the finite number with these bits. -/
def Binary.ofBits (bits : UInt64) : Binary :=
  let field := (bits >>> 52 &&& 0x7FF).toNat
  let fraction := (bits &&& 0xFFFFFFFFFFFFF).toNat
  if field = 0 then ⟨fraction, -1074, false⟩
  else ⟨0x10000000000000 + fraction, (field : Int) - 1075, fraction = 0 && 1 < field⟩

/-- The decimal number `coefficient * 10 ^ exponent`. -/
structure Decimal where
  coefficient : Nat
  exponent : Int
deriving Repr, DecidableEq

/-- How a decimal compares with `b * 2 ^ j`. -/
def Decimal.compareTo (d : Decimal) (b : Nat) (j : Int) : Ordering :=
  compare (d.coefficient * Nat.pow 10 d.exponent.toNat * Nat.pow 2 (-j).toNat)
    (b * Nat.pow 2 j.toNat * Nat.pow 10 (-d.exponent).toNat)

/-- Does the decimal round to the number?  The ends of the interval belong to the number with the
even mantissa. -/
def Binary.covers (x : Binary) (d : Decimal) : Bool :=
  let lowest := if x.narrowBelow then 4 * x.mantissa - 1 else 4 * x.mantissa - 2
  let atLowest := d.compareTo lowest (x.exponent - 2)
  let atHighest := d.compareTo (4 * x.mantissa + 2) (x.exponent - 2)
  let ends := x.mantissa % 2 = 0
  (atLowest = .gt || (ends && atLowest = .eq)) && (atHighest = .lt || (ends && atHighest = .eq))

/-- The least `k` such that the number is below `10 ^ k`. -/
def Binary.magnitude (x : Binary) : Int :=
  let estimate := ((Nat.log2 x.mantissa : Int) + x.exponent) * 30103 / 100000
  let below (k : Int) : Bool := Decimal.compareTo ⟨1, k⟩ x.mantissa x.exponent = .gt
  if below estimate then estimate else if below (estimate + 1) then estimate + 1
  else estimate + 2

/-- The decimal among the multiples of `10 ^ grid` that rounds to the number; the nearer one if
two do, and the even one if both are equally near. -/
def Binary.onGrid? (x : Binary) (grid : Int) : Option Decimal :=
  let numerator := x.mantissa * Nat.pow 2 x.exponent.toNat * Nat.pow 10 (-grid).toNat
  let denominator := Nat.pow 2 (-x.exponent).toNat * Nat.pow 10 grid.toNat
  let below := numerator / denominator
  match x.covers ⟨below, grid⟩, x.covers ⟨below + 1, grid⟩ with
  | true, true =>
    match compare (2 * numerator) ((2 * below + 1) * denominator) with
    | .lt => some ⟨below, grid⟩
    | .gt => some ⟨below + 1, grid⟩
    | .eq => some ⟨if below % 2 = 0 then below else below + 1, grid⟩
  | true, false => some ⟨below, grid⟩
  | false, true => some ⟨below + 1, grid⟩
  | false, false => none

/-- A decimal without the zeros at its end; `digits` bounds their number. -/
def Decimal.strip (d : Decimal) : (digits : Nat) → Decimal
  | 0 => d
  | digits + 1 =>
    if d.coefficient % 10 = 0 then strip ⟨d.coefficient / 10, d.exponent + 1⟩ digits else d

/-- The shortest decimal of a positive number.  Seventeen digits are always enough; beyond them
stands the exact value. -/
def Binary.shortest (x : Binary) : Decimal :=
  let magnitude := x.magnitude
  let withDigits (digits : Nat) : Option Decimal := x.onGrid? (magnitude - digits)
  match (List.range' 1 17).findSome? withDigits with
  | some d => d.strip 17
  | none =>
    ⟨x.mantissa * Nat.pow 2 x.exponent.toNat * Nat.pow 5 (-x.exponent).toNat, min x.exponent 0⟩

example : (Binary.ofBits 0x3FB999999999999A).shortest = ⟨1, -1⟩ := by decide +kernel

example : (Binary.ofBits 0x44B52D02C7E14AF6).shortest = ⟨1, 23⟩ := by decide +kernel

example : (Binary.ofBits 1).shortest = ⟨5, -324⟩ := by decide +kernel

end RepairLedger
