import HostedLua.Number.Binary
import HostedLua.Text.Basic

/-! Floats in decimal text: digits with a point and an exponent, infinity, and not a number. -/

namespace HostedLua.Decimal

/-- The sign in front of a number, and the rest. -/
def signed (t : Text) : Bool × Text :=
  match t with
  | c :: rest => if c = '-' then (true, rest) else if c = '+' then (false, rest) else (false, t)
  | [] => (false, [])

/-- The run of ASCII digits at the head of a text, and the rest. -/
def digitRun (t : Text) : Text × Text :=
  let run := t.takeWhile CodePoint.isDigit
  (run, t.drop run.length)

/-- An exponent, which may be left out. -/
def exponent? (t : Text) : Option Int :=
  match t with
  | [] => some 0
  | c :: rest =>
    if c.lower = 'e' then
      let (negative, body) := signed rest
      match digitRun body with
      | ([], _) => none
      | (ds, []) =>
        let n : Int := Text.digitsValue 10 ds
        some (if negative then -n else n)
      | _ => none
    else none

/-- The float nearest to the number that digits give. -/
def readDigits? (negative : Bool) (t : Text) : Option Float :=
  let (whole, rest) := digitRun t
  let (fraction, rest) : Text × Text := match rest with
    | c :: tail => if c = '.' then digitRun tail else ([], rest)
    | [] => ([], [])
  let ds := whole ++ fraction
  if ds.isEmpty then none
  else (exponent? rest).map fun e =>
    Binary.ofScaled negative (Text.digitsValue 10 ds) 10 (e - fraction.length) ds.length

def read? (t : Text) : Option Float :=
  let (negative, body) := signed t
  let word := body.lower
  if word = "inf" || word = "infinity" then
    some (if negative then -(1.0 / 0.0) else 1.0 / 0.0)
  else if word = "nan" then some (0.0 / 0.0)
  else readDigits? negative body

end HostedLua.Decimal
