/-! Text as a list of code points. Surrogates are admitted, since text decoded from arbitrary bytes
carries undecodable bytes as the code points U+DC80 to U+DCFF. -/

namespace HostedLua

/-- A Unicode code point, surrogates included. -/
abbrev CodePoint := Fin 0x110000

/-- Text is a list of code points. -/
abbrev Text := List CodePoint

/-- A string of bytes. -/
abbrev Bytes := List UInt8

namespace CodePoint

def ofChar (c : Char) : CodePoint :=
  ⟨c.toNat, by
    have h := c.valid
    unfold UInt32.isValidChar Nat.isValidChar at h
    unfold Char.toNat
    omega⟩

/-- The code point of a number, reduced to range. -/
def ofNat (n : Nat) : CodePoint := Fin.ofNat 0x110000 n

def isSurrogate (c : CodePoint) : Bool := 0xD800 ≤ c.val && c.val ≤ 0xDFFF

/-- The ASCII range from `lo` to `hi`. -/
def within (c : CodePoint) (lo hi : Char) : Bool := lo.toNat ≤ c.val && c.val ≤ hi.toNat

def isLetter (c : CodePoint) : Bool := c.within 'a' 'z' || c.within 'A' 'Z'

def isDigit (c : CodePoint) : Bool := c.within '0' '9'

/-- The value of an ASCII hexadecimal digit. -/
def hexValue? (c : CodePoint) : Option Nat :=
  if c.isDigit then some (c.val - 48)
  else if c.within 'a' 'f' then some (c.val - 87)
  else if c.within 'A' 'F' then some (c.val - 55)
  else none

/-- An ASCII letter in lower case; every other code point stays. -/
def lower (c : CodePoint) : CodePoint := if c.within 'A' 'Z' then ofNat (c.val + 32) else c

end CodePoint

instance : Coe Char CodePoint := ⟨CodePoint.ofChar⟩

namespace Text

def ofString (s : String) : Text := s.toList.map CodePoint.ofChar

instance : Coe String Text := ⟨ofString⟩

/-- ASCII letters in lower case. -/
def lower (t : Text) : Text := t.map CodePoint.lower

/-- Pieces joined by a separator. -/
def join (sep : Text) : List Text → Text
  | [] => []
  | [t] => t
  | t :: ts => t ++ sep ++ join sep ts

def contains (t part : Text) : Bool :=
  match t with
  | [] => part.isEmpty
  | _ :: rest => part.isPrefixOf t || contains rest part

def spaces (n : Nat) : Text := List.replicate n (CodePoint.ofChar ' ')

def padLeft (width : Nat) (t : Text) : Text := spaces (width - t.length) ++ t

/-- The decimal digits of a number. -/
def ofNat (n : Nat) : Text := ofString (toString n)

/-- A whole number in decimal. -/
def ofInt (i : Int) : Text := ofString (toString i)

/-- The hexadecimal digits of a number, in lower case. -/
def hex (n : Nat) : Text := (Nat.toDigits 16 n).map CodePoint.ofChar

/-- The hexadecimal digits of a number, in at least `width` places. -/
def hexPadded (width n : Nat) : Text :=
  let digits := hex n
  List.replicate (width - digits.length) (CodePoint.ofChar '0') ++ digits

def digitsValue (base : Nat) (t : Text) : Nat :=
  t.foldl (fun n c => n * base + (c.hexValue?.getD 0)) 0

/-- Text without the leading and trailing code points of a class. -/
def trim (p : CodePoint → Bool) (t : Text) : Text :=
  (((t.dropWhile p).reverse).dropWhile p).reverse

/-- Pieces between separators; `n` separators give `n + 1` pieces. -/
def splitOn (sep : CodePoint) (t : Text) : List Text :=
  match t with
  | [] => [[]]
  | c :: rest =>
    if c = sep then [] :: splitOn sep rest
    else match splitOn sep rest with
      | [] => [[c]]
      | piece :: pieces => (c :: piece) :: pieces

def isClean (t : Text) : Bool := t.all fun c => !c.isSurrogate

end Text

namespace Bytes

/-- The bytes of an ASCII literal. -/
def ofString (s : String) : Bytes := s.toList.map fun c => UInt8.ofNat c.toNat

/-- The code points of the same numbers. -/
def widen (b : Bytes) : Text := b.map fun x => CodePoint.ofNat x.toNat

end Bytes

end HostedLua
