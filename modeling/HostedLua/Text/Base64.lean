import HostedLua.Text.Basic

/-! Bytes in base 64. Code points outside of the alphabet are passed over, and padding ends the text. -/

namespace HostedLua.Base64

def digit? (c : CodePoint) : Option Nat :=
  if c.within 'A' 'Z' then some (c.val - 65)
  else if c.within 'a' 'z' then some (c.val - 71)
  else if c.isDigit then some (c.val + 4)
  else if c = '+' then some 62
  else if c = '/' then some 63
  else none

/-- The digits of a text up to its padding; the padding of a text with digits left over must fill them up
to a group of four. -/
def digits? (t : Text) : Option (List Nat) := go [] 0 t
where
  /-- Digits so far, the last one first, and padding so far. -/
  go (ds : List Nat) (padding : Nat) : Text → Option (List Nat)
    | [] => if ds.length % 4 = 0 then some ds.reverse else none
    | c :: rest =>
      if c = '=' then
        if 2 ≤ ds.length % 4 && 4 ≤ ds.length % 4 + padding + 1 then some ds.reverse
        else go ds (if 2 ≤ ds.length % 4 then padding + 1 else padding) rest
      else match digit? c with
        | some d => go (d :: ds) 0 rest
        | none => go ds padding rest

def bytes : List Nat → Bytes
  | a :: b :: c :: d :: rest =>
    .ofNat (4 * a + b / 16) :: .ofNat (b % 16 * 16 + c / 4) :: .ofNat (c % 4 * 64 + d) :: bytes rest
  | [a, b, c] => [.ofNat (4 * a + b / 16), .ofNat (b % 16 * 16 + c / 4)]
  | [a, b] => [.ofNat (4 * a + b / 16)]
  | _ => []

def decode? (t : Text) : Option Bytes := (digits? t).map bytes

end HostedLua.Base64
