import HostedLua.Number.Binary
import HostedLua.Text.Basic

/-! Decimal text of floats: the fewest digits that read back, or a fixed count of digits. `Digits`
holds digits `d₁ d₂ …` and a point so that the value is `0.d₁d₂… · 10 ^ point`. -/

namespace HostedLua

/-- Decimal digits with the place of the point before them. -/
structure Digits where
  digits : List Nat
  point : Int
  deriving DecidableEq, Repr

namespace Digits

-- Powers are those of `Nat`, whatever powers an import adds.
attribute [local instance (2000)] instPowNat

/-- The decimal digits of a number, the leading one first. -/
def ofNat (n : Nat) : List Nat := (Nat.toDigits 10 n).map fun c => c.toNat - 48

/-- The exponent of the leading decimal digit of a positive ratio. -/
def leading (num den : Nat) : Int :=
  if den ≤ num then ((Nat.toDigits 10 (num / den)).length : Int) - 1
  else -((Nat.toDigits 10 ((den - 1) / num)).length : Int)

/-- The digits without trailing zeros. -/
def trimmed (d : Digits) : Digits :=
  ⟨((d.digits.reverse).dropWhile (· = 0)).reverse, d.point⟩

/-- The number `n` on the grid of multiples of `10 ^ k`, as digits. -/
def onGrid (n : Nat) (k : Int) : Digits :=
  let ds := ofNat n
  ⟨ds, k + ds.length⟩

/-- A positive ratio rounded to `count` digits, a half to the even neighbour. -/
def rounded (count num den : Nat) : Digits :=
  let k := leading num den - count + 1
  onGrid (if 0 ≤ k then Binary.roundHalfEven num (den * 10 ^ k.toNat)
    else Binary.roundHalfEven (num * 10 ^ (-k).toNat) den) k

/-- The point `n` of the grid `10 ^ k` lies between the bounds of the numbers that round to
`m · 2 ^ e`; the bounds themselves do iff `m` is even. -/
def readsBack (m : Nat) (e : Int) (lone : Bool) (n : Nat) (k : Int) : Bool :=
  -- all three numbers in units of 2 ^ (e - 2) and 10 ^ min k 0
  let scaled := n * 10 ^ k.toNat * 2 ^ (2 - e).toNat
  let unit := 10 ^ (-k).toNat * 2 ^ (e - 2).toNat
  let lo := (4 * m - if lone then 1 else 2) * unit
  let hi := (4 * m + 2) * unit
  if m % 2 = 0 then lo ≤ scaled && scaled ≤ hi else lo < scaled && scaled < hi

/-- The nearer of the two neighbours of `m · 2 ^ e` on the grid of `count` digits that read back. -/
def nearest? (m : Nat) (e : Int) (lone : Bool) (count : Nat) : Option Digits :=
  let (num, den) := Binary.ratio m e
  let k := leading num den - count + 1
  let (a, b) := if 0 ≤ k then (num, den * 10 ^ k.toNat) else (num * 10 ^ (-k).toNat, den)
  let low := a / b
  let up := low + 1
  let lowOk := readsBack m e lone low k
  let upOk := readsBack m e lone up k
  let choose (n : Nat) := some (onGrid n k)
  if lowOk && upOk then
    if 2 * (a % b) < b then choose low
    else if b < 2 * (a % b) then choose up
    else if low % 2 = 0 then choose low else choose up
  else if lowOk then choose low
  else if upOk then choose up
  else none

/-- The fewest digits that read back as the positive number `m · 2 ^ e`. -/
def shortest (m : Nat) (e : Int) (lone : Bool) : Digits :=
  (((List.range 17).findSome? fun i => nearest? m e lone (i + 1)).getD
    (let (num, den) := Binary.ratio m e; rounded 17 num den)).trimmed

def digitText (d : Nat) : CodePoint := .ofNat (48 + d)

/-- The digits with a point in positional notation; `.0` closes a whole number on demand. -/
def positional (d : Digits) (closing : Bool) : Text :=
  let ds := d.digits.map digitText
  if d.point ≤ 0 then "0." ++ List.replicate (-d.point).toNat (digitText 0) ++ ds
  else
    let whole := ds.take d.point.toNat
    let padding := List.replicate (d.point.toNat - ds.length) (digitText 0)
    let part := ds.drop d.point.toNat
    whole ++ padding ++
      (if part.isEmpty then if closing then (".0" : Text) else [] else CodePoint.ofChar '.' :: part)

/-- The digits in exponent notation with at least two exponent digits. -/
def exponential (d : Digits) : Text :=
  let e := d.point - 1
  let lead := (d.digits.take 1).map digitText
  let part := (d.digits.drop 1).map digitText
  let exponent := Text.ofNat e.natAbs
  lead ++ (if part.isEmpty then [] else CodePoint.ofChar '.' :: part) ++ (if e < 0 then ("e-" : Text) else "e+") ++
    (if exponent.length < 2 then CodePoint.ofChar '0' :: exponent else exponent)

end Digits

/-- A float in the fewest digits that read back, in positional notation from `10 ^ -4` to below
`10 ^ 16`. -/
def Decimal.shortest (x : Float) : Text :=
  match Binary.ofFloat x with
  | .nan => "nan"
  | .infinite negative => if negative then "-inf" else "inf"
  | .finite negative m e lone =>
    let body : Text :=
      if m = 0 then "0.0"
      else
        let d := Digits.shortest m e lone
        if -4 < d.point ∧ d.point ≤ 16 then d.positional true else d.exponential
    if negative then "-" ++ body else body

/-- A float in at most `count` digits, trailing zeros dropped, in positional notation from `10 ^ -4`
to below `10 ^ count`. -/
def Decimal.general (count : Nat) (x : Float) : Text :=
  match Binary.ofFloat x with
  | .nan => "-nan"
  | .infinite negative => if negative then "-inf" else "inf"
  | .finite negative m e _ =>
    let body : Text :=
      if m = 0 then "0"
      else
        let (num, den) := Binary.ratio m e
        let d := (Digits.rounded count num den).trimmed
        if -4 < d.point ∧ d.point ≤ count then d.positional false else d.exponential
    if negative then "-" ++ body else body

end HostedLua
