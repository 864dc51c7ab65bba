/-
# Dates with a time of day

A date and a time of day, with its distance from universal time if that is known.

## Main definitions

* `DateTime` — the fields
* `DateTime.instant?` — seconds on a common scale, when the distance from universal time is known
* `DateTime.denotesSame` — the same instant, or the same fields when neither has a zone
-/

namespace RouteTemplate.Calendar

/-- The year has a 29th of February. -/
def isLeapYear (year : Nat) : Bool :=
  year % 4 = 0 && (year % 100 != 0 || year % 400 = 0)

/-- The number of days of a month. -/
def daysInMonth (year month : Nat) : Nat :=
  if month = 2 then (if isLeapYear year then 29 else 28)
  else if [4, 6, 9, 11].contains month then 30
  else 31

/-- A date and a time of day. The offset is the number of seconds east of universal time, absent
when the zone is unknown. -/
structure DateTime where
  year : Nat
  month : Nat
  day : Nat
  hour : Nat
  minute : Nat
  second : Nat
  offset : Option Int
  deriving DecidableEq, Repr

namespace DateTime

/-- The fields name a day of the calendar between the years 1 and 9999 and a time of that day. -/
def isValid (d : DateTime) : Bool :=
  1 ≤ d.year && d.year ≤ 9999 && 1 ≤ d.month && d.month ≤ 12 &&
    1 ≤ d.day && d.day ≤ daysInMonth d.year d.month &&
    d.hour < 24 && d.minute < 60 && d.second < 60

/-- The number of days before the first of January of a year. -/
def daysBeforeYear (year : Nat) : Nat :=
  (year - 1) * 365 + (year - 1) / 4 - (year - 1) / 100 + (year - 1) / 400

/-- The number of days before the first of a month in its year. -/
def daysBeforeMonth (year month : Nat) : Nat :=
  (List.range (month - 1)).foldl (fun days m => days + daysInMonth year (m + 1)) 0

/-- The seconds from the start of the calendar by the clock that the fields are read from. -/
def localSeconds (d : DateTime) : Nat :=
  (daysBeforeYear d.year + daysBeforeMonth d.year d.month + (d.day - 1)) * 86400 +
    d.hour * 3600 + d.minute * 60 + d.second

/-- The seconds from the start of the calendar in universal time. -/
def instant? (d : DateTime) : Option Int :=
  d.offset.map (d.localSeconds - ·)

/-- Two dates with zones denote the same when their instants agree, two without when their
clocks do. A date with a zone and one without denote different things. -/
def denotesSame (d e : DateTime) : Bool :=
  match d.instant?, e.instant? with
  | some i, some j => i == j
  | none, none => d.localSeconds == e.localSeconds
  | _, _ => false

end DateTime

end RouteTemplate.Calendar
