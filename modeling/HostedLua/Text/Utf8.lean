import HostedLua.Text.Basic

/-! UTF-8. `scalar?` reads one well-formed sequence and `unit` writes one; a byte that starts no
well-formed sequence is read as an escape (U+DC80 to U+DCFF) by `decodeEscaped`, or replaced together
with the rest of its truncated sequence by `decodeLossy`. -/

namespace HostedLua.Utf8

def isTail (b : UInt8) : Bool := 0x80 ≤ b && b ≤ 0xBF

/-- The six payload bits of a continuation byte. -/
def payload (b : UInt8) : Nat := b.toNat % 64

/-- The admitted second bytes after a lead byte: no overlong form, no surrogate, nothing above
U+10FFFF. -/
def secondOk (lead second : UInt8) : Bool :=
  isTail second &&
    (if lead = 0xE0 then 0xA0 ≤ second
     else if lead = 0xED then second ≤ 0x9F
     else if lead = 0xF0 then 0x90 ≤ second
     else if lead = 0xF4 then second ≤ 0x8F
     else true)

/-- The first code point of well-formed input, and the bytes after it. -/
def scalar? : Bytes → Option (CodePoint × Bytes)
  | [] => none
  | a :: rest =>
    if a < 0x80 then some (.ofNat a.toNat, rest)
    else if 0xC2 ≤ a && a ≤ 0xDF then
      match rest with
      | b :: rest =>
        if isTail b then some (.ofNat (a.toNat % 32 * 64 + payload b), rest) else none
      | [] => none
    else if 0xE0 ≤ a && a ≤ 0xEF then
      match rest with
      | b :: c :: rest =>
        if secondOk a b && isTail c then
          some (.ofNat (a.toNat % 16 * 4096 + payload b * 64 + payload c), rest)
        else none
      | _ => none
    else if 0xF0 ≤ a && a ≤ 0xF4 then
      match rest with
      | b :: c :: d :: rest =>
        if secondOk a b && isTail c && isTail d then
          some (.ofNat (a.toNat % 8 * 262144 + payload b * 4096 + payload c * 64 + payload d), rest)
        else none
      | _ => none
    else none

theorem scalar?_shorter {bs rest : Bytes} {c : CodePoint} (h : scalar? bs = some (c, rest)) :
    rest.length < bs.length := by
  unfold scalar? at h
  repeat' split at h
  all_goals first
    | (simp only [Option.some.injEq, Prod.mk.injEq] at h; obtain ⟨_, rfl⟩ := h; simp; try omega)
    | simp at h

/-- The length of the truncated sequence at the head of malformed input: the lead byte and the
continuation bytes that could still have been completed. -/
def brokenLength : Bytes → Nat
  | [] => 0
  | [_] => 1
  | a :: b :: rest =>
    if 0xE0 ≤ a && a ≤ 0xEF && secondOk a b then 2
    else if 0xF0 ≤ a && a ≤ 0xF4 && secondOk a b then
      match rest with
      | c :: _ => if isTail c then 3 else 2
      | [] => 2
    else 1

/-- The byte sequence of a code point, surrogates in the same pattern. -/
def unit (c : CodePoint) : Bytes :=
  let n := c.val
  if n < 0x80 then [.ofNat n]
  else if n < 0x800 then [.ofNat (0xC0 + n / 64), .ofNat (0x80 + n % 64)]
  else if n < 0x10000 then
    [.ofNat (0xE0 + n / 4096), .ofNat (0x80 + n / 64 % 64), .ofNat (0x80 + n % 64)]
  else
    [.ofNat (0xF0 + n / 262144), .ofNat (0x80 + n / 4096 % 64), .ofNat (0x80 + n / 64 % 64),
      .ofNat (0x80 + n % 64)]

/-- The code point that stands for an undecodable byte. -/
def escape (b : UInt8) : CodePoint := .ofNat (0xDC00 + b.toNat)

def escaped? (c : CodePoint) : Option UInt8 :=
  if 0xDC80 ≤ c.val && c.val ≤ 0xDCFF then some (.ofNat (c.val - 0xDC00)) else none

/-- Text of the bytes, if they are well formed throughout. -/
def decode? (bs : Bytes) : Option Text :=
  match bs with
  | [] => some []
  | a :: rest =>
    match _h : scalar? (a :: rest) with
    | some (c, tail) => (decode? tail).map (c :: ·)
    | none => none
termination_by bs.length
decreasing_by exact scalar?_shorter _h

/-- Text of any bytes, each undecodable byte as its escape. -/
def decodeEscaped (bs : Bytes) : Text :=
  match bs with
  | [] => []
  | a :: rest =>
    match _h : scalar? (a :: rest) with
    | some (c, tail) => c :: decodeEscaped tail
    | none => escape a :: decodeEscaped rest
termination_by bs.length
decreasing_by
  · exact scalar?_shorter _h
  · simp

def replacement : CodePoint := .ofNat 0xFFFD

/-- Text of any bytes, each broken sequence as one replacement character. -/
def decodeLossy (bs : Bytes) : Text :=
  match bs with
  | [] => []
  | a :: rest =>
    match _h : scalar? (a :: rest) with
    | some (c, tail) => c :: decodeLossy tail
    | none => replacement :: decodeLossy (rest.drop (brokenLength (a :: rest) - 1))
termination_by bs.length
decreasing_by
  · exact scalar?_shorter _h
  · simp only [List.length_drop, List.length_cons]
    omega

inductive Flaw where
  /-- No sequence starts with this byte. -/
  | start
  /-- A byte that should go on with the sequence does not. -/
  | tail
  /-- The bytes end within the sequence. -/
  | ending
  deriving DecidableEq, Repr

def Flaw.text : Flaw → Text
  | .start => "invalid start byte"
  | .tail => "invalid continuation byte"
  | .ending => "unexpected end of data"

/-- A failure to decode: the position of the broken sequence, its bytes and its flaw. -/
structure DecodeError where
  start : Nat
  bytes : Bytes
  flaw : Flaw
  deriving DecidableEq, Repr

/-- The flaw of malformed input, at its head. -/
def flawOf (bs : Bytes) : Flaw :=
  match bs with
  | [] => .ending
  | a :: _ =>
    if a < 0xC2 || 0xF4 < a then .start
    else if brokenLength bs = bs.length then .ending
    else .tail

def DecodeError.message (e : DecodeError) : Text :=
  let place : Text :=
    match e.bytes with
    | [b] => "byte 0x" ++ Text.hexPadded 2 b.toNat ++ " in position " ++ Text.ofNat e.start
    | bs => "bytes in position " ++ Text.ofNat e.start ++ "-" ++ Text.ofNat (e.start + bs.length - 1)
  "'utf-8' codec can't decode " ++ place ++ ": " ++ e.flaw.text

/-- Text of the bytes from a position on, or what is broken about them. -/
def decodeFrom (start : Nat) (bs : Bytes) : Except DecodeError Text :=
  match bs with
  | [] => .ok []
  | a :: rest =>
    match _h : scalar? (a :: rest) with
    | some (c, tail) => (decodeFrom (start + (rest.length + 1 - tail.length)) tail).map (c :: ·)
    | none =>
      .error ⟨start, (a :: rest).take (brokenLength (a :: rest)), flawOf (a :: rest)⟩
termination_by bs.length
decreasing_by exact scalar?_shorter _h

end HostedLua.Utf8
