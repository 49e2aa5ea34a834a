import Lineage.Toml.Fraction

/-!
# Dates and times

A time is written as hours, minutes and seconds in two digits each, with colons between them; up to
six digits behind a point count the millionths of a second, however many there are, and what follows
is passed over. A date or a point of time is read by the places of its characters: what separates
its numbers does not matter, if only a dash stands somewhere behind the first character. Behind the
seconds of a point of time stand their fraction, the distance from universal time, or both; a
distance that cannot be read is passed over, and the fraction with it.

A point of time is written with a blank between its date and its time.
-/

namespace Lineage.Toml

/-! ## Days and times -/

/-- How many days a month has. -/
def daysIn (year month : Nat) : Nat :=
  if month = 2 then
    if year % 4 = 0 && (year % 100 ≠ 0 || year % 400 = 0) then 29 else 28
  else if [4, 6, 9, 11].contains month then 30
  else 31

/-- A day of the calendar. -/
structure Day where
  year : Nat
  month : Nat
  day : Nat
  year_bounds : 1 ≤ year ∧ year ≤ 9999
  month_bounds : 1 ≤ month ∧ month ≤ 12
  day_bounds : 1 ≤ day ∧ day ≤ daysIn year month

/-- A time of day. -/
structure Clock where
  hour : Nat
  minute : Nat
  second : Nat
  millionth : Nat
  hour_lt : hour < 24
  minute_lt : minute < 60
  second_lt : second < 60
  millionth_lt : millionth < 1000000

/-- The natural number that an integer is. -/
def natural (value : Int) : Option Nat := if 0 ≤ value then some value.toNat else none

/-- The day with some numbers, if there is one. -/
def day? (year month day : Int) : Option Day := do
  let year ← natural year
  let month ← natural month
  let day ← natural day
  if h : (1 ≤ year ∧ year ≤ 9999) ∧ (1 ≤ month ∧ month ≤ 12) ∧
      1 ≤ day ∧ day ≤ daysIn year month then
    return ⟨year, month, day, h.1, h.2.1, h.2.2⟩
  else none

/-- The time with some numbers, if there is one. -/
def clock? (hour minute second millionth : Int) : Option Clock := do
  let hour ← natural hour
  let minute ← natural minute
  let second ← natural second
  let millionth ← natural millionth
  if h : hour < 24 ∧ minute < 60 ∧ second < 60 ∧ millionth < 1000000 then
    return ⟨hour, minute, second, millionth, h.1, h.2.1, h.2.2.1, h.2.2.2⟩
  else none

/-- How many days the calendar has up to a day. -/
def Day.number (day : Day) : Nat :=
  let years := day.year - 1
  let months := (List.range (day.month - 1)).foldl
    (fun days month => days + daysIn day.year (month + 1)) 0
  365 * years + years / 4 - years / 100 + years / 400 + months + day.day

/-! ## Written forms -/

/-- A number with zeros in front of it, in so many digits at least. -/
def padded (width value : Nat) : List Char :=
  let digits := Nat.toDigits 10 value
  List.replicate (width - digits.length) '0' ++ digits

/-- A day in digits. -/
def Day.chars (day : Day) : List Char :=
  padded 4 day.year ++ '-' :: padded 2 day.month ++ '-' :: padded 2 day.day

/-- A time in digits; the millionths are left out if there are none. -/
def Clock.chars (clock : Clock) : List Char :=
  padded 2 clock.hour ++ ':' :: padded 2 clock.minute ++ ':' :: padded 2 clock.second ++
    (if clock.millionth = 0 then [] else '.' :: padded 6 clock.millionth)

/-- A distance from universal time, as hours and minutes. -/
def distanceChars (minutes : Int) : List Char :=
  (if minutes < 0 then '-' else '+') ::
    padded 2 (minutes.natAbs / 60) ++ ':' :: padded 2 (minutes.natAbs % 60)

theorem Day.chars_ne_nil (day : Day) : day.chars ≠ [] := by simp [Day.chars]

theorem Clock.chars_ne_nil (clock : Clock) : clock.chars ≠ [] := by simp [Clock.chars]

/-- A call by which a value is made, as it stands in a larger value. -/
def callText (name : String) (arguments : List String) : String :=
  "datetime." ++ name ++ "(" ++ ", ".intercalate arguments ++ ")"

/-- The numbers of a day. -/
def Day.arguments (day : Day) : List String := [day.year, day.month, day.day].map Nat.repr

/-- The numbers of a time, without the zeros at its end. -/
def Clock.arguments (clock : Clock) : List String :=
  let most :=
    if clock.millionth ≠ 0 then [clock.second, clock.millionth]
    else if clock.second ≠ 0 then [clock.second]
    else []
  (clock.hour :: clock.minute :: most).map Nat.repr

/-! ## Measures -/

/-- A day as a measure. -/
def Day.measure (day : Day) : Measure :=
  .ofChars .date day.chars (callText "date" day.arguments) true
    (.measure (String.ofList day.chars)) day.chars_ne_nil

/-- A time as a measure. -/
def Clock.measure (clock : Clock) : Measure :=
  .ofChars .time clock.chars (callText "time" clock.arguments) true
    (.measure (String.ofList clock.chars)) clock.chars_ne_nil

/-- The object that stands for a distance. Where it is kept differs from run to run. -/
def distanceText : String := "tzinfo=<toml.tz.TomlTz object at 0x0>"

/-- A point of time whose distance from universal time is not known. -/
def localMeasure (day : Day) (clock : Clock) : Measure :=
  let chars := day.chars ++ ' ' :: clock.chars
  .ofChars .date chars (callText "datetime" (day.arguments ++ clock.arguments)) true
    (.measure (String.ofList chars)) (by simp [chars])

/-- How many minutes have passed at a point of universal time, and millionths of a second then. -/
def instantText (day : Day) (clock : Clock) (distance : Int) : String :=
  let minutes : Int := 1440 * day.number + 60 * clock.hour + clock.minute - distance
  "utc " ++ minutes.repr ++ " " ++ (1000000 * clock.second + clock.millionth).repr

/--
A point of time that is so many minutes ahead of universal time. Points of time with different
distances are equal if they are the same point of universal time.
-/
def distantMeasure (day : Day) (clock : Clock) (distance : Int) : Measure :=
  let chars := day.chars ++ ' ' :: clock.chars ++ distanceChars distance
  let inner := callText "datetime" (day.arguments ++ clock.arguments ++ [distanceText])
  let key := Key.measure (instantText day clock distance)
  if distance.natAbs < 1440 then .ofChars .date chars inner true key (by simp [chars])
  else
    { kind := .date
      written? := none
      inner := inner
      isGiven := true
      key := key
      written_ne_empty := by simp }

/-- A point of time. -/
def pointMeasure (day : Day) (clock : Clock) : (distance : Option Int) → Measure
  | none => localMeasure day clock
  | some distance => distantMeasure day clock distance

/-! ## Reading times -/

/-- Two digits three times, with colons between them, start the text. -/
def startsWithTime (text : List Char) : Bool :=
  match text with
  | a :: b :: ':' :: c :: d :: ':' :: e :: f :: _ => [a, b, c, d, e, f].all Char.isDigit
  | _ => false

/-- The value of some digits. -/
def digitsValue (digits : List Char) : Int := ((digitsValue? 10 digits).getD 0 : Nat)

/-- The time that a text starts with, if there is such a time. -/
def time? (text : List Char) : Option Measure :=
  let number (start : Nat) : Int := digitsValue ((text.drop start).take 2)
  let fraction :=
    match text.drop 8 with
    | '.' :: rest => (rest.take 6).takeWhile Char.isDigit
    | _ => []
  let millionth := if fraction.length < 3 then 0 else digitsValue fraction
  (clock? (number 0) (number 3) (number 6) millionth).map Clock.measure

/-! ## Reading dates -/

/-- How far ahead of universal time a distance is, in minutes. -/
def distance? (text : List Char) : Option Int :=
  if text = ['Z'] then some 0
  else
    match wholeNumber? ((text.drop 1).take 2), wholeNumber? ((text.drop 4).take 2) with
    | some hours, some minutes =>
        let minutes := 60 * hours + minutes
        some (if text.head? = some '-' then -minutes else minutes)
    | _, _ => none

/-- The product of two binary numbers without what is behind its point. -/
def wholeProduct (a b : Binary) : Option Nat :=
  let exponent := a.2 + b.2
  let product :=
    if 0 ≤ exponent then nearest? (a.1 * b.1 * Nat.pow 2 exponent.toNat) 0
    else nearest? (a.1 * b.1 * Nat.pow 5 (-exponent).toNat) exponent
  product.map fun product =>
    let (numerator, denominator) := scaled product 0
    numerator / denominator

/-- The millionths that a number behind a point stands for, given how many characters it has. -/
def millionths (value : Int) (width : Nat) : Except Fault Int :=
  if width ≤ 6 then .ok (value * (Nat.pow 10 (6 - width) : Nat))
  else
    match nearest? value.natAbs 0, nearest? 1 (6 - width) with
    | some number, some unit =>
        match wholeProduct number unit with
        | some count => .ok (if value < 0 then -(count : Int) else count)
        | none => .error .fractionTooLarge
    | _, _ => .error .fractionTooLarge

/-- What a point of time has behind its seconds. -/
structure Precision where
  millionths : Int := 0
  distance : Option Int := none

/-- A fraction of a second, and the distance from universal time behind it. -/
def fractionAndDistance (text : List Char) : List Char × List Char :=
  if text.getLast?.any fun c => c = 'Z' || c = 'z' then (text.dropLast, ['Z'])
  else
    let sign := if text.contains '+' then '+' else '-'
    text.span (· ≠ sign)

/-- What a text has behind the seconds of a point of time, in the twentieth place and after it. -/
def precision (text : List Char) : Except Fault Precision :=
  match text.drop 19 with
  | [] => .ok {}
  | '.' :: rest =>
      let (fraction, distance) := fractionAndDistance rest
      if !distance.isEmpty && (distance? distance).isNone then .ok {}
      else
        match wholeNumber? fraction with
        | none => .ok {}
        | some value =>
            (millionths value fraction.length).map fun count => ⟨count, distance? distance⟩
  | rest => .ok { distance := distance? rest }

/-- The date or the point of time that a text stands for, if it stands for one. -/
def moment? (text : List Char) : Except Fault (Option Measure) := do
  let precision ← precision text
  let number (start width : Nat) := wholeNumber? ((text.drop start).take width)
  return do
    guard ((text.drop 1).contains '-')
    let day ← day? (← number 0 4) (← number 5 2) (← number 8 2)
    if text.length = 10 then return day.measure
    let clock ← clock? (← number 11 2) (← number 14 2) (← number 17 2) precision.millionths
    return pointMeasure day clock precision.distance

end Lineage.Toml
