import HostedLua.Lua.Numeral
import HostedLua.Text.Utf8

/-! The tokens of a Lua chunk. `Lexeme.scan` cuts the bytes of a chunk into lexemes up to its end or to
the first byte that starts no token, where the list ends with the failure. Each lexeme holds the line
that its last byte stands on and the text that messages quote. -/

namespace HostedLua.Lua

def reservedWords : List String :=
  ["and", "break", "do", "else", "elseif", "end", "false", "for", "function", "goto", "if", "in",
   "local", "nil", "not", "or", "repeat", "return", "then", "true", "until", "while"]

inductive Token where
  | eof
  | name (s : Bytes)
  | str (s : Bytes)
  | num (n : Number)
  | word (w : String)
  | op (w : String)
  | byte (b : UInt8)

namespace Token

/-- A certain operator or reserved word. -/
def is (t : Token) (w : String) : Bool :=
  match t with
  | .word v | .op v => v == w
  | _ => false

/-- The name that messages give a token that was expected. -/
def expectedText (w : String) : Bytes :=
  if w.startsWith "<" && w.length > 2 then Bytes.ofString w else Bytes.ofString ("'" ++ w ++ "'")

end Token

/-- A token with its place. -/
structure Lexeme where
  token : Token
  /-- The line that the token ends on. -/
  line : Nat
  /-- The text that messages quote, without quotes. -/
  text : Bytes

/-- A chunk that cannot be read: the line, what is wrong, and what it is near. -/
structure Malformed where
  line : Nat
  what : Bytes
  near : Option Bytes

namespace Lexeme

/-- Bytes in single quotes, up to the first zero byte. -/
def inQuotes (text : Bytes) : Bytes := 39 :: (text.takeWhile (· ≠ 0)) ++ [39]

/-- What a message shows for a token. -/
def near (l : Lexeme) : Bytes :=
  match l.token with
  | .eof => Bytes.ofString "<eof>"
  | .byte b =>
    if 32 ≤ b && b < 127 then [39, b, 39] else Bytes.ofString ("'<\\" ++ toString b.toNat ++ ">'")
  | _ => inQuotes l.text

/-- The four ways to end a line, of which pairs count once. Takes off one line end. -/
def lineEnd? (s : Bytes) : Option Bytes :=
  match s with
  | 10 :: 13 :: rest | 13 :: 10 :: rest | 10 :: rest | 13 :: rest => some rest
  | _ => none

/-- The level of a long bracket after its first bracket: the count of equals signs and the rest after
the second bracket. -/
def longLevel? (open_ : UInt8) (s : Bytes) : Option (Nat × Bytes) :=
  let signs := s.takeWhile (· = 61)
  match s.dropWhile (· = 61) with
  | b :: rest => if b = open_ then some (signs.length, rest) else none
  | [] => none

/-- Reads a long bracket of a level up to its end: the content, the rest and the count of line ends.
Every line end inside becomes a line feed. -/
def longContent (level : Nat) : (fuel : Nat) → (lines : Nat) → (acc : Bytes) → Bytes →
    Except Nat (Bytes × Bytes × Nat)
  | 0, lines, _, _ => .error lines
  | fuel + 1, lines, acc, s =>
    match s with
    | [] => .error lines
    | b :: rest =>
      if b = 93 then
        match longLevel? 93 rest with
        | some (n, after) =>
          if n = level then .ok (acc.reverse, after, lines)
          else longContent level fuel lines (List.replicate n 61 ++ 93 :: acc) (rest.drop n)
        | none => longContent level fuel lines (93 :: acc) rest
      else
        match lineEnd? s with
        | some after => longContent level fuel (lines + 1) (10 :: acc) after
        | none => longContent level fuel lines (b :: acc) rest

/-- The bytes of a number in the extended UTF-8 pattern, up to six bytes for 31 bits. -/
def utf8Bytes (n : Nat) : Bytes :=
  if n < 0x80 then [.ofNat n]
  else
    let rec go (fuel n first : Nat) (acc : Bytes) : Bytes :=
      match fuel with
      | 0 => acc
      | fuel + 1 =>
        if n ≤ first then .ofNat (256 - 2 * (first + 1) + n) :: acc
        else go fuel (n / 64) (first / 2) (.ofNat (0x80 + n % 64) :: acc)
    go 6 n 0x3F []

/-- What an escape sequence in a string gives: its bytes, the rest, and the line ends passed. -/
structure Escape where
  bytes : Bytes
  rest : Bytes
  lines : Nat := 0

/-- The bytes of a wrong escape sequence up to the offending one, and what is wrong. -/
abbrev EscapeError := Bytes × String

/-- A wrong escape: the bytes read so far and the next one. -/
def badEscape (read rest : Bytes) (what : String) : Except EscapeError Escape :=
  .error (read ++ rest.take 1, what)

/-- White space that `\z` skips, with the count of its line ends. -/
def skipBlank : (fuel : Nat) → (lines : Nat) → Bytes → Bytes × Nat
  | 0, lines, s => (s, lines)
  | fuel + 1, lines, s =>
    match lineEnd? s with
    | some rest => skipBlank fuel (lines + 1) rest
    | none =>
      match s with
      | b :: rest => if isSpace b then skipBlank fuel lines rest else (s, lines)
      | [] => (s, lines)

/-- Reads `\u` escapes after the opening brace. -/
def unicodeEscape (s : Bytes) : Except EscapeError Escape :=
  let start := Bytes.ofString "\\u\x7b"
  let rec digits (read : Bytes) (n : Nat) : Bytes → Except EscapeError Escape
    | [] => badEscape read [] "missing '\x7d'"
    | b :: rest =>
      match hexValue? b with
      | some d =>
        if n ≤ 0x7FFFFFF then digits (read ++ [b]) (n * 16 + d) rest
        else badEscape read (b :: rest) "UTF-8 value too large"
      | none => if b = 125 then .ok ⟨utf8Bytes n, rest, 0⟩ else badEscape read (b :: rest) "missing '\x7d'"
  match s with
  | b :: rest =>
    match hexValue? b with
    | some d => digits (start ++ [b]) d rest
    | none => badEscape start s "hexadecimal digit expected"
  | [] => badEscape start s "hexadecimal digit expected"

/-- Reads an escape sequence after its backslash. -/
def escape (s : Bytes) : Except EscapeError Escape :=
  match s with
  | [] => .ok ⟨[], [], 0⟩
  | b :: rest =>
    let one (c : UInt8) : Except EscapeError Escape := .ok ⟨[c], rest, 0⟩
    if b = 97 then one 7
    else if b = 98 then one 8
    else if b = 102 then one 12
    else if b = 110 then one 10
    else if b = 114 then one 13
    else if b = 116 then one 9
    else if b = 118 then one 11
    else if b = 92 || b = 34 || b = 39 then one b
    else if b = 120 then
      match rest with
      | c :: d :: after =>
        match hexValue? c, hexValue? d with
        | some m, some n => .ok ⟨[.ofNat (16 * m + n)], after, 0⟩
        | some _, none => badEscape [92, 120, c] (d :: after) "hexadecimal digit expected"
        | none, _ => badEscape [92, 120] rest "hexadecimal digit expected"
      | [c] =>
        if isHexDigit c then badEscape [92, 120, c] [] "hexadecimal digit expected"
        else badEscape [92, 120] rest "hexadecimal digit expected"
      | [] => badEscape [92, 120] [] "hexadecimal digit expected"
    else if b = 117 then
      match rest with
      | 123 :: after => unicodeEscape after
      | _ => badEscape [92, 117] rest "missing '\x7b'"
    else if b = 122 then
      let (after, lines) := skipBlank rest.length 0 rest
      .ok ⟨[], after, lines⟩
    else if isDigit b then
      let ds := (s.take 3).takeWhile isDigit
      let after := s.drop ds.length
      let n := digitsValue 10 ds
      if n < 256 then .ok ⟨[.ofNat n], after, 0⟩
      else badEscape (92 :: ds) after "decimal escape too large"
    else
      match lineEnd? s with
      | some after => .ok ⟨[10], after, 1⟩
      | none => badEscape [92] s "invalid escape sequence"

/-- Reads a string after its opening quote: the content, the rest and the line ends passed. A failure
holds the text read so far, if it is to be quoted. -/
def shortString (quote : UInt8) : (fuel : Nat) → (lines : Nat) → (acc : Bytes) → Bytes →
    Except (Nat × String × Option Bytes) (Bytes × Bytes × Nat)
  | 0, lines, _, _ => .error (lines, "unfinished string", none)
  | fuel + 1, lines, acc, s =>
    match s with
    | [] => .error (lines, "unfinished string", none)
    | b :: rest =>
      if b = quote then .ok (acc.reverse, rest, lines)
      else if b = 10 || b = 13 then .error (lines, "unfinished string", some (quote :: acc.reverse))
      else if b = 92 then
        match escape rest with
        | .ok e => shortString quote fuel (lines + e.lines) (e.bytes.reverse ++ acc) e.rest
        | .error (read, what) => .error (lines, what, some (quote :: acc.reverse ++ read))
      else shortString quote fuel lines (b :: acc) rest

def isExponentMark (hex : Bool) (b : UInt8) : Bool :=
  if hex then b = 112 || b = 80 else b = 101 || b = 69

/-- The bytes that belong to a numeral: an exponent mark takes a sign with it. -/
def numeralBytes (hex : Bool) : Bytes → Bytes
  | [] => []
  | [b] => if isExponentMark hex b || isHexDigit b || b = 46 then [b] else []
  | b :: c :: tail =>
    if isExponentMark hex b && (c = 43 || c = 45) then b :: c :: numeralBytes hex tail
    else if isExponentMark hex b || isHexDigit b || b = 46 then b :: numeralBytes hex (c :: tail)
    else []

/-- The whole text of a numeral, a letter or underscore that touches it included. -/
def numeral (s : Bytes) : Bytes :=
  let (head, hex) :=
    match Number.hexMarked? s with
    | some _ => (s.take 2, true)
    | none => (s.take 1, false)
  let text := head ++ numeralBytes hex (s.drop head.length)
  match s.drop text.length with
  | b :: _ => if isLetter b then text ++ [b] else text
  | [] => text

/-- The operators of more than one byte, longest first. -/
def longOperators : List String :=
  ["...", "..", "==", "~=", "<=", ">=", "//", "::", "<<", ">>"]

def isOperatorByte (b : UInt8) : Bool := (Bytes.ofString "+-*/%^#&~|<>=()\x7b\x7d[];:,.").contains b

/-- One step of the scan: white space or a comment passed, a token read, or a failure. -/
inductive Step where
  | skip (rest : Bytes) (lines : Nat)
  | token (t : Token) (text : Bytes) (rest : Bytes) (lines : Nat)
  | fail (lines : Nat) (what : Bytes) (near : Option Bytes)

/-- Reads a long bracket as a comment or string. -/
def longStep (comment : Bool) (level : Nat) (line : Nat) (s : Bytes) : Step :=
  let (body, opened) := match lineEnd? s with
    | some rest => (rest, 1)
    | none => (s, 0)
  match longContent level (s.length + 1) opened [] body with
  | .ok (content, rest, lines) =>
    if comment then .skip rest lines
    else
      let bracket (b : UInt8) := b :: List.replicate level 61 ++ [b]
      .token (.str content) (bracket 91 ++ content ++ bracket 93) rest lines
  | .error lines =>
    .fail lines (Bytes.ofString ("unfinished long " ++ (if comment then "comment" else "string") ++
      " (starting at line " ++ toString line ++ ")")) none

/-- Reads what stands at the head of non-empty bytes on a line. -/
def step (line : Nat) (s : Bytes) : Step :=
  match s with
  | [] => .skip [] 0
  | b :: rest =>
    match lineEnd? s with
    | some after => .skip after 1
    | none =>
      if isSpace b then .skip rest 0
      else if b = 45 && rest.head? = some 45 then
        let body := rest.drop 1
        let toEnd := .skip (body.dropWhile fun b => b ≠ 10 && b ≠ 13) 0
        match body with
        | 91 :: after =>
          match longLevel? 91 after with
          | some (level, inside) => longStep true level line inside
          | none => toEnd
        | _ => toEnd
      else if b = 91 && (rest.head? = some 91 || rest.head? = some 61) then
        match longLevel? 91 rest with
        | some (level, inside) => longStep false level line inside
        | none =>
          .fail 0 (Bytes.ofString "invalid long string delimiter") (some (91 :: rest.takeWhile (· = 61)))
      else if b = 34 || b = 39 then
        match shortString b (rest.length + 1) 0 [] rest with
        | .ok (content, after, lines) => .token (.str content) (b :: content ++ [b]) after lines
        | .error (lines, what, near) => .fail lines (Bytes.ofString what) near
      else if isDigit b || (b = 46 && (rest.head?.map isDigit).getD false) then
        let text := numeral s
        match Number.read? text with
        | some n => .token (.num n) text (s.drop text.length) 0
        | none => .fail 0 (Bytes.ofString "malformed number") (some text)
      else if isLetter b then
        let text := s.takeWhile isNameByte
        let after := s.dropWhile isNameByte
        match reservedWords.find? fun w => Bytes.ofString w == text with
        | some w => .token (.word w) text after 0
        | none => .token (.name text) text after 0
      else
        match longOperators.find? fun w => (Bytes.ofString w).isPrefixOf s with
        | some w => .token (.op w) (Bytes.ofString w) (s.drop w.length) 0
        | none =>
          if isOperatorByte b then .token (.op (String.singleton (Char.ofNat b.toNat))) [b] rest 0
          else .token (.byte b) [b] rest 0

/-- The lexemes of a chunk from a line on, ended by the end of the chunk or by a failure. -/
def scan : (fuel : Nat) → (line : Nat) → Bytes → List (Except Malformed Lexeme)
  | 0, line, _ => [.ok ⟨.eof, line, []⟩]
  | fuel + 1, line, s =>
    if s.isEmpty then [.ok ⟨.eof, line, []⟩]
    else
      match step line s with
      | .skip rest lines => scan fuel (line + lines) rest
      | .token t text rest lines => .ok ⟨t, line + lines, text⟩ :: scan fuel (line + lines) rest
      | .fail lines what near =>
        [.error ⟨line + lines, what, some ((near.map inQuotes).getD (Bytes.ofString "<eof>"))⟩]

/-- The lexemes of a whole chunk. -/
def ofBytes (s : Bytes) : List (Except Malformed Lexeme) := scan (s.length + 1) 1 s

end Lexeme

end HostedLua.Lua
