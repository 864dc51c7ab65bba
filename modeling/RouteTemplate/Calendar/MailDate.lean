/-
# Dates of mail headers

Free-form dates as mail programs write them: an optional name of a day, then day, month and year
in some order, the time of day and a zone. Years of two digits lie between 1969 and 2068.

## Main definitions

* `MailDate.fields?` — the numbers that a text names, whatever their size
* `MailDate.read` — the date that a text names, if it is one
-/

import RouteTemplate.Calendar.DateTime
import RouteTemplate.Number.Numeral
import RouteTemplate.Text.Digit
import RouteTemplate.Text.Uppercase

namespace RouteTemplate.Calendar.MailDate

open RouteTemplate.Number (readInteger?)

/-- A number of a date that no machine word or calendar holds. -/
inductive TooLarge where
  /-- The days of the offset exceed a word of 32 bits. -/
  | offsetBeyondWord
  /-- The days of the offset exceed the greatest duration. -/
  | offsetBeyondDuration (days : Int)
  /-- A field exceeds a word of 64 bits. -/
  | fieldBeyondWord
  /-- A field lies above a word of 32 bits. -/
  | fieldAboveInt
  /-- A field lies below a word of 32 bits. -/
  | fieldBelowInt
  deriving DecidableEq, Repr

/-- The parts of a text between separators, one more than there are separators. -/
def splitWhere (isSeparator : Char → Bool) : List Char → List (List Char)
  | [] => [[]]
  | c :: rest =>
    if isSeparator c then [] :: splitWhere isSeparator rest
    else match splitWhere isSeparator rest with
      | part :: parts => (c :: part) :: parts
      | [] => [[c]]

/-- The parts of a text between occurrences of a character. -/
def splitOn (separator : Char) (text : List Char) : List (List Char) :=
  splitWhere (· == separator) text

/-- The words of a text, which blanks separate. -/
def words (text : List Char) : List (List Char) :=
  (splitWhere Text.isBlank text).filter (!·.isEmpty)

/-- The lower case of a word. Names of days and months have letters of ASCII alone. -/
def lowerWord (word : List Char) : String :=
  String.ofList (word.map Char.toLower)

/-- The months, by their short and by their full names. -/
def monthNames : List String :=
  ["jan", "feb", "mar", "apr", "may", "jun", "jul", "aug", "sep", "oct", "nov", "dec",
   "january", "february", "march", "april", "may", "june", "july", "august", "september",
   "october", "november", "december"]

/-- The days of the week. -/
def dayNames : List String :=
  ["mon", "tue", "wed", "thu", "fri", "sat", "sun"]

/-- The month with a name, counted from one. -/
def month? (word : List Char) : Option Nat :=
  (monthNames.findIdx? (· == lowerWord word)).map (· % 12 + 1)

/-- The zones with a name, as hours and minutes in one number. -/
def zones : List (String × Int) :=
  [("UT", 0), ("UTC", 0), ("GMT", 0), ("Z", 0), ("AST", -400), ("ADT", -300), ("EST", -500),
   ("EDT", -400), ("CST", -600), ("CDT", -500), ("MST", -700), ("MDT", -600), ("PST", -800),
   ("PDT", -700)]

/-- The zone that a word denotes, as hours and minutes in one number. A zero with a minus sign
says that the zone is unknown. -/
def zone? (word : List Char) : Option Int :=
  let name := word.flatMap Text.upperChar
  match zones.lookup (String.ofList name) with
  | some zone => some zone
  | none =>
    match readInteger? name with
    | some number => if number = 0 && name.head? = some '-' then none else some number
    | none => none

/-- Seconds, from hours and minutes in one number. -/
def zoneSeconds (zone : Int) : Int :=
  zone.sign * (zone.natAbs / 100 * 3600 + zone.natAbs % 100 * 60 : Nat)

/-- A word without the comma that ends it. -/
def dropComma (word : List Char) : List Char :=
  if word.getLast? = some ',' then word.dropLast else word

/-- The words without the name of the day, which ends with a comma or is joined to the next word
by one. -/
def dropDayName : List (List Char) → List (List Char)
  | [] => []
  | first :: rest =>
    if first.getLast? = some ',' || dayNames.contains (lowerWord first) then rest
    else (first.reverse.takeWhile (· != ',')).reverse :: rest

/-- Where a zone is joined to a time: the first plus sign or, without one, the first hyphen, if
something stands before it. -/
def splitZone (word : List Char) : List (List Char) :=
  let sign := if word.contains '+' then '+' else '-'
  let time := word.takeWhile (· != sign)
  if time.isEmpty || time.length = word.length then [word, []]
  else [time, word.drop time.length]

/-- The day, the month, the year, the time and the zone, separated. -/
def separate (ws : List (List Char)) : List (List Char) :=
  let ws := match ws with
    | [date, time, zone] =>
      match splitOn '-' date with
      | [day, month, year] => [day, month, year, time, zone]
      | _ => ws
    | _ => ws
  match ws with
  | [day, month, year, time] => [day, month, year] ++ splitZone time
  | _ => ws

/-- The hours, minutes and seconds, separated by colons or, failing that, by points. -/
def timeParts? (time : List Char) : Option (List Char × List Char × List Char) :=
  match splitOn ':' time with
  | [hours, minutes] => some (hours, minutes, ['0'])
  | [hours, minutes, seconds] => some (hours, minutes, seconds)
  | [whole] =>
    match splitOn '.' whole with
    | [hours, minutes] => some (hours, minutes, ['0'])
    | [hours, minutes, seconds] => some (hours, minutes, seconds)
    | _ => none
  | _ => none

/-- The century of a year of two digits: those above 68 belong to the twentieth. -/
def fullYear (year : Int) : Int :=
  if year < 100 then (if 68 < year then year + 1900 else year + 2000) else year

/-- The numbers that a date names. -/
structure Numbers where
  year : Int
  month : Nat
  day : Int
  hour : Int
  minute : Int
  second : Int
  /-- Seconds east of universal time. -/
  offset : Option Int
  deriving DecidableEq, Repr

/-- The numbers of a date whose parts are separated. Day and month may be exchanged, and so may
the year and the time or the zone. -/
def ofParts? (day month year time zone : List Char) : Option Numbers := do
  if day.isEmpty || month.isEmpty || year.isEmpty then none
  let (day, month) ← match month? month with
    | some number => some (day, number)
    | none => (month? day).map fun number => (month.map Char.toLower, number)
  let day := dropComma day
  -- A colon past the first character tells a time, and a digit at the front a year.
  let (year, time) :=
    if year.contains ':' && year.head? != some ':' then (time, year) else (year, time)
  let year := dropComma year
  let first ← year.head?
  let (year, zone) := if Text.isDigit first then (year, zone) else (zone, year)
  let (hours, minutes, seconds) ← timeParts? (dropComma time)
  return ⟨fullYear (← readInteger? year), month, ← readInteger? day, ← readInteger? hours,
    ← readInteger? minutes, ← readInteger? seconds, (zone? zone).map zoneSeconds⟩

/-- The numbers that a text names. -/
def fields? (text : List Char) : Option Numbers :=
  match (separate (dropDayName (words text))).take 5 with
  | [day, month, year, time, zone] => ofParts? day month year time zone
  | _ => none

/-- The offset is no longer than the greatest duration. -/
def checkOffset (offset : Int) : Except TooLarge Unit :=
  let days := offset / 86400
  if days < -2147483648 || 2147483647 < days then .error .offsetBeyondWord
  else if 999999999 < days.natAbs then .error (.offsetBeyondDuration days)
  else .ok ()

/-- The field fits a word of 32 bits. -/
def checkField (field : Int) : Except TooLarge Unit :=
  if field < -9223372036854775808 || 9223372036854775807 < field then .error .fieldBeyondWord
  else if 2147483647 < field then .error .fieldAboveInt
  else if field < -2147483648 then .error .fieldBelowInt
  else .ok ()

/-- The date that the numbers name, if they lie within the calendar, the day and a day's distance
from universal time. -/
def Numbers.toDateTime (n : Numbers) : Except TooLarge (Option DateTime) := do
  n.offset.forM checkOffset
  if n.offset.any fun offset => 86400 ≤ offset.natAbs then return none
  [n.year, n.day, n.hour, n.minute, n.second].forM checkField
  if [n.year, n.day, n.hour, n.minute, n.second].any (· < 0) then return none
  let date : DateTime :=
    ⟨n.year.toNat, n.month, n.day.toNat, n.hour.toNat, n.minute.toNat, n.second.toNat, n.offset⟩
  return if date.isValid then some date else none

/-- The date that a text names, if it names one. -/
def read (text : List Char) : Except TooLarge (Option DateTime) :=
  match fields? text with
  | some numbers => numbers.toDateTime
  | none => .ok none

end RouteTemplate.Calendar.MailDate
