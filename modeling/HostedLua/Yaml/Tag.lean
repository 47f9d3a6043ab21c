import HostedLua.Yaml.Cursor

/-! The tags of nodes, and the tag that a plain scalar has by its form. -/

namespace HostedLua.Yaml

inductive Tag where
  | null | bool | int | float | binary | timestamp | text
  | sequence | mapping | set | orderedMapping | pairs
  /-- The key whose value is merged into its mapping. -/
  | merge
  /-- The key whose value stands for its mapping. -/
  | value
  | unknown
  deriving DecidableEq, Repr

namespace Tag

/-- The beginning of the names of all tags that are known. -/
def standard : Text := "tag:yaml.org,2002:"

def names : List (String × Tag) :=
  [("null", .null), ("bool", .bool), ("int", .int), ("float", .float), ("binary", .binary),
   ("timestamp", .timestamp), ("str", .text), ("seq", .sequence), ("map", .mapping), ("set", .set),
   ("omap", .orderedMapping), ("pairs", .pairs), ("merge", .merge), ("value", .value)]

def ofName (t : Text) : Tag :=
  match names.find? fun (n, _) => t == standard ++ n with
  | some (_, tag) => tag
  | none => .unknown

/-- Values of this tag can be keys. -/
def isScalar : Tag → Bool
  | .null | .bool | .int | .float | .binary | .timestamp | .text => true
  | _ => false

end Tag

/-! ### The forms of plain scalars -/

/-- One text is one of some words, or one of them with a capital, or in capitals. -/
def isWordOf (words : List String) (t : Text) : Bool :=
  words.any fun w =>
    let upper := w.toUpper
    t == (w : Text) || t == (upper : Text) || t == (w.capitalize : Text)

/-- The words for truth values; the first four mean yes. -/
def truthWords : List (String × Bool) :=
  [("yes", true), ("true", true), ("on", true), ("no", false), ("false", false), ("off", false)]

def isSpacedDigit (c : CodePoint) : Bool := c.isDigit || c = '_'

/-- The text without a sign in front. -/
def unsigned (t : Text) : Text :=
  match t with
  | c :: rest => if c = '-' || c = '+' then rest else t
  | [] => []

/-- A digit, then digits and underscores; and the rest. -/
def spacedDigits? (t : Text) : Option (Text × Text) :=
  match t with
  | c :: _ =>
    if c.isDigit then
      let run := t.takeWhile isSpacedDigit
      some (run, t.drop run.length)
    else none
  | [] => none

/-- Numbers below sixty, each after a colon, at least one; and the rest. -/
def sixties? : (fuel : Nat) → Text → Option Text
  | 0, _ => none
  | fuel + 1, t =>
    match t with
    | colon :: a :: rest =>
      if colon = ':' && a.isDigit then
        let tail := if a.within '0' '5' && rest.head?.any CodePoint.isDigit then rest.tail else rest
        some ((sixties? fuel tail).getD tail)
      else none
    | _ => none

/-- An exponent with its sign, or nothing. -/
def isExponent (t : Text) : Bool :=
  match t with
  | [] => true
  | e :: s :: ds => e.lower = 'e' && (s = '-' || s = '+') && !ds.isEmpty && ds.all CodePoint.isDigit
  | _ => false

/-- The form of whole numbers: binary, octal, decimal, hexadecimal, or in base sixty. -/
def isInt (t : Text) : Bool :=
  let body := unsigned t
  let digitsAfter (n : Nat) (p : CodePoint → Bool) : Bool :=
    let ds := body.drop n
    !ds.isEmpty && ds.all fun c => p c || c = '_'
  match body with
  | [] => false
  | c :: rest =>
    if c = '0' then
      rest.isEmpty || digitsAfter 1 (fun d => d.within '0' '7') ||
      (rest.head? = some (CodePoint.ofChar 'b') && digitsAfter 2 fun d => d = '0' || d = '1') ||
      (rest.head? = some (CodePoint.ofChar 'x') && digitsAfter 2 fun d => d.hexValue?.isSome)
    else
      match spacedDigits? body with
      | some (_, []) => true
      | some (_, rest) => sixties? rest.length rest = some []
      | none => false

/-- The form of floats: with a point, in base sixty with a point, infinite, or not a number. -/
def isFloat (t : Text) : Bool :=
  let body := unsigned t
  let point (t : Text) : Bool := t.head? = some (CodePoint.ofChar '.')
  let withPoint : Bool :=
    match spacedDigits? body with
    | some (_, rest) =>
      (point rest && isExponent ((rest.drop 1).dropWhile isSpacedDigit)) ||
      (match sixties? rest.length rest with
       | some tail => point tail && (tail.drop 1).all isSpacedDigit
       | none => false)
    | none => false
  let leadingPoint : Bool :=
    point t && match spacedDigits? (t.drop 1) with
    | some (_, rest) => isExponent rest
    | none => false
  let nan := t == (".nan" : Text) || t == (".NaN" : Text) || t == (".NAN" : Text)
  let infinite := body == (".inf" : Text) || body == (".Inf" : Text) || body == (".INF" : Text)
  withPoint || leadingPoint || infinite || nan

/-- A point in time in text: the digits of its date, and of its time if it has one. -/
structure Stamp where
  year : Text
  month : Text
  day : Text
  time : Option (Text × Text × Text) := none
  fraction : Text := []
  /-- The distance from universal time: its sign, hours and minutes. -/
  zone : Option (Bool × Text × Text) := none

namespace Stamp

/-- Digits at the head of a text, at least so many and at most so many. -/
def digits? (least most : Nat) (t : Text) : Option (Text × Text) :=
  let run := (t.take most).takeWhile CodePoint.isDigit
  if least ≤ run.length then some (run, t.drop run.length) else none

def after? (c : CodePoint) (t : Text) : Option Text :=
  match t with
  | d :: rest => if d = c then some rest else none
  | [] => none

/-- The zone at the end of a time, or nothing. -/
def zone? (t : Text) : Option (Option (Bool × Text × Text)) :=
  match t with
  | [] => some none
  | _ =>
    match t.dropWhile isSpace with
    | s :: rest =>
      if s = 'Z' && rest.isEmpty then some (some (false, "0", "0"))
      else if s = '+' || s = '-' then do
        let (hours, rest) ← digits? 1 2 rest
        match rest with
        | [] => some (some (s = '-', hours, "0"))
        | _ =>
          let (minutes, rest) ← digits? 2 2 (← after? ':' rest)
          if rest.isEmpty then some (some (s = '-', hours, minutes)) else none
      else none
    | [] => none

def time? (s : Stamp) (t : Text) : Option Stamp := do
  let t ← match t with
    | c :: rest =>
      if c = 'T' || c = 't' then some rest
      else if isSpace c then some (rest.dropWhile isSpace)
      else none
    | [] => none
  let (hour, t) ← digits? 1 2 t
  let (minute, t) ← digits? 2 2 (← after? ':' t)
  let (second, t) ← digits? 2 2 (← after? ':' t)
  let (fraction, t) : Text × Text := match after? '.' t with
    | some rest => (rest.takeWhile CodePoint.isDigit, rest.dropWhile CodePoint.isDigit)
    | none => ([], t)
  let zone ← zone? t
  return { s with time := some (hour, minute, second), fraction, zone }

/-- Reads a date, with a time or not. -/
def read? (t : Text) : Option Stamp := do
  let (year, t) ← digits? 4 4 t
  let (month, t) ← digits? 1 2 (← after? '-' t)
  let (day, t) ← digits? 1 2 (← after? '-' t)
  let s : Stamp := { year, month, day }
  if t.isEmpty then return s else s.time? t

/-- A stamp by its form: a date without a time has two digits for its month and its day. -/
def isPlain (s : Stamp) : Bool := s.time.isSome || (s.month.length = 2 && s.day.length = 2)

end Stamp

def Tag.ofPlain (t : Text) : Tag :=
  if isWordOf (truthWords.map (·.1)) t then .bool
  else if isFloat t then .float
  else if isInt t then .int
  else if t == ("<<" : Text) then .merge
  else if t.isEmpty || t == ("~" : Text) || isWordOf ["null"] t then .null
  else if (Stamp.read? t).any Stamp.isPlain then .timestamp
  else if t == ("=" : Text) then .value
  else .text

end HostedLua.Yaml
