import HostedLua.Number.Decimal

/-! Numbers in Lua: 64-bit integers and floats. `Number.read?` reads a numeral as the lexer and
`tonumber` do, and `Number.text` writes a number so that reading gives it back. -/

namespace HostedLua.Lua

inductive Number where
  | int (i : Int64)
  | float (x : Float)

/-- White space between and around numerals. -/
def isSpace (b : UInt8) : Bool := b = 32 || (9 ≤ b && b ≤ 13)

def isDigit (b : UInt8) : Bool := 48 ≤ b && b ≤ 57

/-- The value of a hexadecimal digit. -/
def hexValue? (b : UInt8) : Option Nat :=
  if isDigit b then some (b.toNat - 48)
  else if 97 ≤ b && b ≤ 102 then some (b.toNat - 87)
  else if 65 ≤ b && b ≤ 70 then some (b.toNat - 55)
  else none

def isHexDigit (b : UInt8) : Bool := (hexValue? b).isSome

/-- An ASCII letter or the underscore. -/
def isLetter (b : UInt8) : Bool := (97 ≤ b && b ≤ 122) || (65 ≤ b && b ≤ 90) || b = 95

def isNameByte (b : UInt8) : Bool := isLetter b || isDigit b

def digitsValue (base : Nat) (ds : Bytes) : Nat :=
  ds.foldl (fun n b => n * base + (hexValue? b).getD 0) 0

namespace Number

/-- A sign in front, taken off. -/
def signed (s : Bytes) : Bool × Bytes :=
  match s with
  | 45 :: rest => (true, rest)
  | 43 :: rest => (false, rest)
  | _ => (false, s)

/-- Only white space is left. -/
def blank (s : Bytes) : Bool := s.all isSpace

/-- A hexadecimal mark in front, taken off. -/
def hexMarked? (s : Bytes) : Option Bytes :=
  match s with
  | 48 :: x :: rest => if x = 120 || x = 88 then some rest else none
  | _ => none

/-- Reads an integer numeral. Hexadecimal numerals wrap around; decimal ones out of range are
refused, so that they are read as floats. -/
def readInt? (s : Bytes) : Option Int64 :=
  let (negative, body) := signed (s.dropWhile isSpace)
  match hexMarked? body with
  | some body =>
    let ds := body.takeWhile isHexDigit
    if ds.isEmpty || !blank (body.dropWhile isHexDigit) then none
    else
      let n := Int64.ofNat (digitsValue 16 ds)
      some (if negative then -n else n)
  | none =>
    let ds := body.takeWhile isDigit
    let n := digitsValue 10 ds
    if ds.isEmpty || !blank (body.dropWhile isDigit) then none
    else if negative then if n ≤ 0x8000000000000000 then some (Int64.ofInt (-n)) else none
    else if n < 0x8000000000000000 then some (Int64.ofNat n) else none

/-- Reads an exponent part after its letter; without digits there is none. -/
def readExponent? (s : Bytes) : Option (Int × Bytes) :=
  let (negative, body) := signed s
  let ds := body.takeWhile isDigit
  if ds.isEmpty then none
  else
    -- more than six digits put every numeral out of range
    let n : Int := (digitsValue 10 (if 6 < (ds.dropWhile (· = 48)).length then [57, 57, 57, 57, 57, 57, 57] else ds) : Nat)
    some (if negative then -n else n, body.dropWhile isDigit)

/-- Reads digits with an optional point and exponent, and gives the float and the rest. -/
def readDigits? (base : Nat) (isDigitOf : UInt8 → Bool) (marks : UInt8 × UInt8) (negative : Bool)
    (s : Bytes) : Option (Float × Bytes) :=
  let whole := s.takeWhile isDigitOf
  let s := s.dropWhile isDigitOf
  let (part, s) :=
    match s with
    | 46 :: rest => (rest.takeWhile isDigitOf, rest.dropWhile isDigitOf)
    | _ => ([], s)
  if whole.isEmpty && part.isEmpty then none
  else
    let (e, s) :=
      match s with
      | x :: rest =>
        if x = marks.1 || x = marks.2 then (readExponent? rest).getD (0, s) else (0, s)
      | [] => (0, s)
    let ds := whole ++ part
    let m := digitsValue base ds
    let count := (ds.dropWhile (· = 48)).length
    let x :=
      if base = 16 then Binary.ofScaled negative m 2 (e - 4 * part.length) (4 * count)
      else Binary.ofScaled negative m 10 (e - part.length) count
    some (x, s)

/-- Reads a float numeral, decimal or hexadecimal. -/
def readFloat? (s : Bytes) : Option Float :=
  let (negative, body) := signed (s.dropWhile isSpace)
  let result :=
    match hexMarked? body with
    | some body => readDigits? 16 isHexDigit (112, 80) negative body
    | none => readDigits? 10 isDigit (101, 69) negative body
  match result with
  | some (x, rest) => if blank rest then some x else none
  | none => none

/-- Reads a numeral with white space around it. -/
def read? (s : Bytes) : Option Number :=
  match readInt? s with
  | some i => some (.int i)
  | none => (readFloat? s).map .float

def asciiBytes (t : Text) : Bytes := t.map fun c => UInt8.ofNat c.val

/-- A float in 15 digits, or in 17 where 15 do not read back; a whole number gets `.0`. -/
def floatText (x : Float) : Bytes :=
  let short := asciiBytes (Decimal.general 15 x)
  let text :=
    match readFloat? short with
    | some y => if y == x then short else asciiBytes (Decimal.general 17 x)
    | none => short
  if text.all fun b => isDigit b || b = 45 then text ++ [46, 48] else text

def text : Number → Bytes
  | .int i => Bytes.ofString (toString i.toInt)
  | .float x => floatText x

end Number

/-- The integer that a float equals, if it is whole and in range. -/
def exactInt? (x : Float) : Option Int64 :=
  match Binary.whole? x with
  | some i => if -0x8000000000000000 ≤ i ∧ i < 0x8000000000000000 then some (Int64.ofInt i) else none
  | none => none

/-- The float nearest to an integer. -/
def floatOf (i : Int64) : Float := Binary.ofInt i.toInt

end HostedLua.Lua
