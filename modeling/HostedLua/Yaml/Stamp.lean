import HostedLua.Yaml.Tag
import HostedLua.Host.Value

/-! Points in time as host values: dates and times of the calendar, shown by their parts. -/

namespace HostedLua.Yaml.Stamp

open Host

-- Powers are those of `Nat`, whatever powers an import adds.
attribute [local instance (2000)] instPowNat

def number (t : Text) : Nat := Text.digitsValue 10 t

def isLeap (year : Nat) : Bool := year % 4 = 0 && (year % 100 ≠ 0 || year % 400 = 0)

def daysIn (year month : Nat) : Nat :=
  if month = 2 then if isLeap year then 29 else 28
  else if month = 4 || month = 6 || month = 9 || month = 11 then 30
  else 31

/-- A part lies in its range, or the fault says which range that is. -/
def check (ok : Bool) (message : Text) : Except Fault Unit :=
  if ok then .ok () else .error (.of "ValueError" message)

/-- The parts of a date make one. -/
def checkDate (year month day : Nat) : Except Fault Unit := do
  check (1 ≤ year) ("year " ++ Text.ofNat year ++ " is out of range")
  check (1 ≤ month && month ≤ 12) "month must be in 1..12"
  check (1 ≤ day && day ≤ daysIn year month) "day is out of range for month"

def daySeconds : Int := 86400

/-- A span of time as it is shown, in days and seconds. -/
def spanText (seconds : Int) : Text :=
  let days := seconds.fdiv daySeconds
  let rest := seconds.fmod daySeconds
  let parts : List Text :=
    (if days = 0 then [] else ["days=" ++ Text.ofInt days]) ++
    (if rest = 0 then [] else ["seconds=" ++ Text.ofInt rest])
  "datetime.timedelta(" ++ (if parts.isEmpty then ("0" : Text) else Text.join ", " parts) ++ ")"

/-- A zone as it is shown; it lies within a day of universal time. -/
def zoneText (negative : Bool) (hours minutes : Nat) : Except Fault Text := do
  let seconds : Int := (3600 * hours + 60 * minutes : Nat)
  let seconds := if negative then -seconds else seconds
  let limits : Text := "strictly between -timedelta(hours=24) and timedelta(hours=24)"
  check (-daySeconds < seconds && seconds < daySeconds)
    ("offset must be a timedelta " ++ limits ++ ", not " ++ spanText seconds ++ ".")
  return if seconds = 0 then "datetime.timezone.utc" else "datetime.timezone(" ++ spanText seconds ++ ")"

/-- The millionths of a second that a fraction gives. -/
def micros (fraction : Text) : Nat :=
  let six := fraction.take 6
  number six * 10 ^ (6 - six.length)

/-- The object of a point in time. -/
def object (s : Stamp) : Except Fault Object := do
  let year := number s.year
  let month := number s.month
  let day := number s.day
  let shown (name : Text) (parts : List Nat) (zone : Option Text) : Object :=
    .shown name ("datetime." ++ name ++ "(" ++
      Text.join ", " (parts.map Text.ofNat ++ (zone.map fun (z : Text) => ("tzinfo=" : Text) ++ z).toList) ++ ")")
  match s.time with
  | none =>
    checkDate year month day
    return shown "date" [year, month, day] none
  | some (hour, minute, second) =>
    let zone ← match s.zone with
      | some (negative, hours, minutes) => some <$> zoneText negative (number hours) (number minutes)
      | none => pure none
    let hour := number hour
    let minute := number minute
    let second := number second
    checkDate year month day
    check (hour ≤ 23) "hour must be in 0..23"
    check (minute ≤ 59) "minute must be in 0..59"
    check (second ≤ 59) "second must be in 0..59"
    let micro := micros s.fraction
    let tail := if micro ≠ 0 then [second, micro] else if second ≠ 0 then [second] else []
    return shown "datetime" ([year, month, day, hour, minute] ++ tail) zone

end HostedLua.Yaml.Stamp
