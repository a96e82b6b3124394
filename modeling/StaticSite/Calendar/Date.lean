import StaticSite.Number.Digits

/-!
# Calendar dates

Dates of the Gregorian calendar, carried on to all years before its introduction, and the date of
an instant that is given in seconds since the first of January 1970.
-/

namespace StaticSite.Calendar

structure Date where
  year : Int
  month : Nat
  day : Nat
  deriving DecidableEq, Repr

def isLeapYear (y : Int) : Bool := y % 4 = 0 && (y % 100 ≠ 0 || y % 400 = 0)

def daysInMonth (year : Int) (month : Nat) : Nat :=
  if month = 2 then if isLeapYear year then 29 else 28
  else if month ∈ [4, 6, 9, 11] then 30
  else 31

/-- The date that lies a number of days after the first of January 1970. Days are counted within
periods of 400 years that begin on a first of March. -/
def Date.ofDays (days : Int) : Date :=
  let shifted := days + 719468
  -- 400 years have 146097 days, a hundred have 36524, and four have 1460 and a leap day.
  let period := shifted / 146097
  let inPeriod := (shifted % 146097).toNat
  let yearOfPeriod := (inPeriod - inPeriod / 1460 + inPeriod / 36524 - inPeriod / 146096) / 365
  let dayOfYear := inPeriod - (365 * yearOfPeriod + yearOfPeriod / 4 - yearOfPeriod / 100)
  -- From March on, any five months have 153 days.
  let monthFromMarch := (5 * dayOfYear + 2) / 153
  let day := dayOfYear - (153 * monthFromMarch + 2) / 5 + 1
  let month := if monthFromMarch < 10 then monthFromMarch + 3 else monthFromMarch - 9
  let year := (yearOfPeriod : Int) + period * 400 + (if month ≤ 2 then 1 else 0)
  ⟨year, month, day⟩

def Date.ofSeconds (seconds : Int) : Date := Date.ofDays (seconds / 86400)

def padded (width n : Nat) : String := Number.padded 10 width n

/-- A date as year, month and day. Years outside 0 to 9999 have a sign. -/
def Date.iso (d : Date) : String :=
  let year :=
    if d.year < 0 then "-" ++ padded 4 d.year.natAbs
    else if 9999 < d.year then "+" ++ padded 4 d.year.toNat
    else padded 4 d.year.toNat
  year ++ "-" ++ padded 2 d.month ++ "-" ++ padded 2 d.day

end StaticSite.Calendar
