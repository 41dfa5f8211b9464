import RepairLedger.Text.Blank
import RepairLedger.Text.Numeral

/-!
# Spans of time

How long something took or may take, in nanoseconds.
-/

namespace RepairLedger

structure Span where
  nanos : Nat
deriving DecidableEq, Repr

namespace Span

/-- The span of so many milliseconds. -/
def ofMillis (n : Nat) : Span :=
  ⟨n * 1000000⟩

/-- A number of units with the fraction that is left, of so many digits; zeros at its end are not
written. -/
def unitsText (units fraction digits : Nat) (unit : String) : String :=
  let places := Text.trimRightOf '0' (Numeral.padded digits fraction)
  let places := if fraction = 0 then [] else '.' :: places
  String.ofList (Numeral.digits units ++ places) ++ unit

/-- The span in the greatest unit of which it holds at least one. -/
def text (s : Span) : String :=
  let n := s.nanos
  if 1000000000 ≤ n then unitsText (n / 1000000000) (n % 1000000000) 9 "s"
  else if 1000000 ≤ n then unitsText (n / 1000000) (n % 1000000) 6 "ms"
  else if 1000 ≤ n then unitsText (n / 1000) (n % 1000) 3 "µs"
  else unitsText n 0 0 "ns"

example : (ofMillis 1500).text = "1.5s" := by decide +kernel

example : (ofMillis 50).text = "50ms" := by decide +kernel

end Span

end RepairLedger
