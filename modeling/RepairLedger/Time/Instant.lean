import RepairLedger.Text.Numeral
import RepairLedger.Time.Date

/-!
# Instants

Points in universal time, to the nanosecond.  A leap second is kept as the second before it with
nanoseconds from `10^9` on, and comes after every instant of that second and before the next one.
It is written as the second that follows: as second 60 if it ends a minute.  A regular instant
(`Instant.IsRegular`) has leap seconds nowhere else.

Instants are ordered by their `position`.
-/

namespace RepairLedger

/-- A point in time. -/
structure Instant where
  date : Date
  /-- Seconds since midnight. -/
  second : Nat
  nano : Nat
  second_lt : second < 86400
  nano_lt : nano < 2000000000
deriving DecidableEq

namespace Instant

/-- If it is in a leap second, that ends a minute. -/
def IsRegular (t : Instant) : Prop :=
  1000000000 ≤ t.nano → t.second % 60 = 59

instance (t : Instant) : Decidable t.IsRegular :=
  inferInstanceAs (Decidable (_ → _))

/-- The instant so many nanoseconds after the beginning of 1970, without leap seconds. -/
def ofNanos? (nanos : Nat) : Option Instant :=
  let seconds := nanos / 1000000000
  (Date.ofDayCount? (seconds / 86400)).map fun date => {
    date
    second := seconds % 86400
    nano := nanos % 1000000000
    second_lt := Nat.mod_lt _ (by decide)
    nano_lt := by omega }

/-- The beginning of 1970. -/
def epoch : Instant :=
  ⟨⟨1970, 1, 1, by decide⟩, 0, 0, by decide, by decide⟩

/-! ### Order -/

/-- A number that grows with time. -/
def position (t : Instant) : Int :=
  (((t.date.year * 16 + t.date.month) * 32 + t.date.day) * 86400 + t.second) * 2000000000 + t.nano

/-- The later of two instants. -/
def later (a b : Instant) : Instant :=
  if a.position ≤ b.position then b else a

/-- Different instants have different positions. -/
theorem eq_of_position_eq {a b : Instant} (h : a.position = b.position) : a = b := by
  obtain ⟨⟨y, m, d, hd⟩, s, n, hs, hn⟩ := a
  obtain ⟨⟨y', m', d', hd'⟩, s', n', hs', hn'⟩ := b
  have := Date.daysInMonth_le y m
  have := Date.daysInMonth_le y' m'
  unfold InCalendar at hd hd'
  simp only [position] at h
  obtain rfl : n = n' := by omega
  obtain rfl : s = s' := by omega
  obtain rfl : d = d' := by omega
  obtain rfl : m = m' := by omega
  obtain rfl : y = y' := by omega
  rfl

/-! ### Text -/

/-- A year: four digits from 0 to 9999, otherwise a sign and at least four digits. -/
def yearChars (year : Int) : List Char :=
  let size := Numeral.padded 4 year.natAbs
  if year < 0 then '-' :: size else if year ≤ 9999 then size else '+' :: size

/-- The date, with hyphens. -/
def dateChars (d : Date) : List Char :=
  yearChars d.year ++ '-' :: Numeral.padded 2 d.month ++ '-' :: Numeral.padded 2 d.day

/-- The time of the day to the second, with colons. -/
def clockChars (t : Instant) : List Char :=
  let leap := if t.nano < 1000000000 then 0 else 1
  Numeral.padded 2 (t.second / 3600) ++ ':' :: Numeral.padded 2 (t.second / 60 % 60) ++
    ':' :: Numeral.padded 2 (t.second % 60 + leap)

/-- The fraction of the second in three, six or nine digits, whichever is exact. -/
def fractionChars (t : Instant) : List Char :=
  let n := t.nano % 1000000000
  if n = 0 then []
  else if n % 1000000 = 0 then '.' :: Numeral.padded 3 (n / 1000000)
  else if n % 1000 = 0 then '.' :: Numeral.padded 6 (n / 1000)
  else '.' :: Numeral.padded 9 n

/-- The instant as it is kept. -/
def text (t : Instant) : String :=
  String.ofList (dateChars t.date ++ 'T' :: clockChars t ++ fractionChars t ++ ['Z'])

/-- The instant as it is shown to a reader. -/
def display (t : Instant) : String :=
  String.ofList (dateChars t.date ++ ' ' :: clockChars t)

/-- The instant to the microsecond, as it stands before a log event. -/
def logText (t : Instant) : String :=
  let micros := Numeral.padded 6 (t.nano % 1000000000 / 1000)
  String.ofList (dateChars t.date ++ 'T' :: clockChars t ++ '.' :: micros ++ ['Z'])

end Instant

end RepairLedger
