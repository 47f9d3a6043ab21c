/-! Floats as exact ratios. A finite float is a sign and a magnitude `m · 2 ^ e`; `ofRatio` rounds a
ratio of natural numbers to the nearest float, a half to the even neighbour. -/

namespace HostedLua

inductive Binary where
  | nan
  | infinite (negative : Bool)
  /-- The magnitude `m · 2 ^ e` under a sign; `lone` marks the least magnitude of its binade, whose
  lower neighbour is nearer than its upper one. -/
  | finite (negative : Bool) (m : Nat) (e : Int) (lone : Bool)
  deriving DecidableEq, Repr

namespace Binary

-- Powers are those of `Nat`, whatever powers an import adds; numerals in exponents carry their type for it.
attribute [local instance (2000)] instPowNat

/-- Reads the fields of a float. -/
def ofFloat (x : Float) : Binary :=
  let bits := x.toBits.toNat
  let negative := bits / 2 ^ (63 : Nat) = 1
  let biased : Nat := bits / 2 ^ (52 : Nat) % 2 ^ (11 : Nat)
  let fraction := bits % 2 ^ (52 : Nat)
  if biased = 2047 then if fraction = 0 then .infinite negative else .nan
  else if biased = 0 then .finite negative fraction (-1074) false
  else .finite negative (2 ^ (52 : Nat) + fraction) ((biased : Int) - 1075) (fraction = 0 && 1 < biased)

def ratio (m : Nat) (e : Int) : Nat × Nat :=
  if 0 ≤ e then (m * 2 ^ e.toNat, 1) else (m, 2 ^ (-e).toNat)

/-- A ratio rounded to the nearest whole number, a half to the even one. -/
def roundHalfEven (num den : Nat) : Nat :=
  let q := num / den
  let r := num % den
  if 2 * r < den then q else if den < 2 * r then q + 1 else if q % 2 = 0 then q else q + 1

/-- The bits of the float nearest to a ratio, without sign. -/
def bitsOfRatio (num den : Nat) : Nat :=
  if num = 0 then 0
  else
    let guess : Int := (num.log2 : Int) - den.log2 - 52
    let fits (e : Int) : Bool :=
      if 0 ≤ e then 2 ^ (52 : Nat) * (den * 2 ^ e.toNat) ≤ num else 2 ^ (52 : Nat) * den ≤ num * 2 ^ (-e).toNat
    let e := max (if fits guess then guess else guess - 1) (-1074)
    let q := if 0 ≤ e then roundHalfEven num (den * 2 ^ e.toNat)
      else roundHalfEven (num * 2 ^ (-e).toNat) den
    if q < 2 ^ (52 : Nat) then q
    else min ((e + 1075).toNat * 2 ^ (52 : Nat) + (q - 2 ^ (52 : Nat))) (2047 * 2 ^ (52 : Nat))

/-- The float nearest to a ratio under a sign; beyond the finite range it is infinite. -/
def ofRatio (negative : Bool) (num den : Nat) : Float :=
  Float.ofBits (UInt64.ofNat (bitsOfRatio num den + if negative then 2 ^ (63 : Nat) else 0))

/-- The float nearest to `m · base ^ e` under a sign; exponents far out of range are cut first. -/
def ofScaled (negative : Bool) (m base : Nat) (e : Int) (digits : Nat) : Float :=
  if m = 0 then ofRatio negative 0 1
  else if 4200 < e + digits then ofRatio negative (2 ^ (2000 : Nat)) 1
  else if e + digits < -4200 then ofRatio negative 0 1
  else if 0 ≤ e then ofRatio negative (m * base ^ e.toNat) 1
  else ofRatio negative m (base ^ (-e).toNat)

/-- The float nearest to a whole number. -/
def ofInt (i : Int) : Float := ofRatio (i < 0) i.natAbs 1

/-- The whole number that a float is, if it is one. -/
def whole? (x : Float) : Option Int :=
  match ofFloat x with
  | .finite negative m e _ =>
    let (num, den) := ratio m e
    if num % den = 0 then
      let n : Int := (num / den : Nat)
      some (if negative then -n else n)
    else none
  | _ => none

/-- The whole part of a finite float, rounded toward zero. -/
def truncated? (x : Float) : Option Int :=
  match ofFloat x with
  | .finite negative m e _ =>
    let (num, den) := ratio m e
    let n : Int := (num / den : Nat)
    some (if negative then -n else n)
  | _ => none

/-- A whole number as a float, if it lies in the finite range after rounding. -/
def ofInt? (i : Int) : Option Float :=
  let x := ofInt i
  match ofFloat x with
  | .finite .. => some x
  | _ => none

/-- A whole number equals a float exactly. -/
def isInt (x : Float) (i : Int) : Bool := whole? x == some i

end Binary

end HostedLua
