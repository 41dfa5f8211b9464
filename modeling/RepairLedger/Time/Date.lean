/-!
# Dates

The Gregorian calendar, extended to all years from -262143 to 262142.  A date is valid by its type,
and every valid date but the last one has a next day (`Date.next?`).
-/

namespace RepairLedger

/-- Has the year a 29th of February? -/
def isLeapYear (year : Int) : Bool :=
  year % 4 = 0 && (year % 100 ≠ 0 || year % 400 = 0)

/-- The number of days of a month. -/
def daysInMonth (year : Int) (month : Nat) : Nat :=
  if month = 2 then if isLeapYear year then 29 else 28
  else if month = 4 ∨ month = 6 ∨ month = 9 ∨ month = 11 then 30
  else 31

/-- The first year of the calendar. -/
def firstYear : Int := -262143

/-- The last year of the calendar. -/
def lastYear : Int := 262142

/-- Is there such a day? -/
def InCalendar (year : Int) (month day : Nat) : Prop :=
  (firstYear ≤ year ∧ year ≤ lastYear) ∧ (1 ≤ month ∧ month ≤ 12) ∧
    1 ≤ day ∧ day ≤ daysInMonth year month

instance (year : Int) (month day : Nat) : Decidable (InCalendar year month day) :=
  inferInstanceAs (Decidable (_ ∧ _))

/-- A day of the calendar. -/
structure Date where
  year : Int
  month : Nat
  day : Nat
  inCalendar : InCalendar year month day
deriving DecidableEq

namespace Date

/-- The day with these parts, if there is one. -/
def ofParts? (year : Int) (month day : Nat) : Option Date :=
  if h : InCalendar year month day then some ⟨year, month, day, h⟩ else none

/-- The day after. -/
def next? (d : Date) : Option Date :=
  (ofParts? d.year d.month (d.day + 1)).or <|
    (ofParts? d.year (d.month + 1) 1).or <| ofParts? (d.year + 1) 1 1

/-- The day before. -/
def previous? (d : Date) : Option Date :=
  (ofParts? d.year d.month (d.day - 1)).or <|
    (ofParts? d.year (d.month - 1) (daysInMonth d.year (d.month - 1))).or <|
      ofParts? (d.year - 1) 12 31

/-- The day that comes so many days after the first of January 1970.  Years are counted from March,
so that a leap day ends its year, and in blocks of 400 years, which are all alike. -/
def ofDayCount? (days : Nat) : Option Date :=
  let fromMarch := days + 719468
  let ofBlock := fromMarch % 146097
  let yearOfBlock := (ofBlock - ofBlock / 1460 + ofBlock / 36524 - ofBlock / 146096) / 365
  let ofYear := ofBlock - (365 * yearOfBlock + yearOfBlock / 4 - yearOfBlock / 100)
  let monthFromMarch := (5 * ofYear + 2) / 153
  let day := ofYear - (153 * monthFromMarch + 2) / 5 + 1
  let month := if monthFromMarch < 10 then monthFromMarch + 3 else monthFromMarch - 9
  let year := yearOfBlock + fromMarch / 146097 * 400
  ofParts? (if month ≤ 2 then year + 1 else year) month day

example : (ofDayCount? 0).map (fun d => (d.year, d.month, d.day)) = some (1970, 1, 1) := by
  decide +kernel

example : (ofDayCount? 11016).map (fun d => (d.year, d.month, d.day)) = some (2000, 2, 29) := by
  decide +kernel

theorem daysInMonth_le (year : Int) (month : Nat) : daysInMonth year month ≤ 31 := by
  unfold daysInMonth
  split
  · split <;> omega
  · split <;> omega

theorem ofParts?_self (d : Date) : ofParts? d.year d.month d.day = some d := by
  simp [ofParts?, d.inCalendar]

end Date

end RepairLedger
