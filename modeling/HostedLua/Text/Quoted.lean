import HostedLua.Text.Class
import HostedLua.Text.Charset

/-! Quoted text and bytes: in single quotes, or in double quotes where only single quotes occur inside.
Line breaks, tabs, backslashes and the chosen quote are escaped, and so is what cannot be printed. -/

namespace HostedLua

/-- The quote for a content with or without each of the two quotes. -/
def chosenQuote (hasSingle hasDouble : Bool) : CodePoint :=
  if hasSingle && !hasDouble then '"' else '\''

def CodePoint.quoted (quote : CodePoint) (c : CodePoint) : Text :=
  if c = quote || c = '\\' then ['\\', c]
  else if c = '\n' then "\\n"
  else if c = '\r' then "\\r"
  else if c = '\t' then "\\t"
  else if c.isPrintable then [c]
  else c.escapeNotation

def Text.quoted (t : Text) : Text :=
  let quote := chosenQuote (t.contains "'") (t.contains "\"")
  (quote :: t.flatMap (CodePoint.quoted quote)) ++ [quote]

/-- One byte inside quotes; beyond ASCII bytes are escaped. -/
def quotedByte (quote : CodePoint) (b : UInt8) : Text :=
  if b < 0x80 then CodePoint.quoted quote (.ofNat b.toNat) else "\\x" ++ Text.hexPadded 2 b.toNat

def Bytes.quoted (bs : Bytes) : Text :=
  let quote := chosenQuote (bs.contains 39) (bs.contains 34)
  (CodePoint.ofChar 'b' :: quote :: bs.flatMap (quotedByte quote)) ++ [quote]

end HostedLua
