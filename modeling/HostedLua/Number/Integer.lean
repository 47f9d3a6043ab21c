import HostedLua.Text.Class

/-! Whole numbers in text: digits of any script with single underscores between them, a sign in front and
white space around. -/

namespace HostedLua.Integer

inductive ReadError where
  | invalid
  | tooLong (digits : Nat)
  deriving DecidableEq, Repr

/-- The longest run of digits that is read or written. -/
def maxDigits : Nat := 4300

/-- The values of digits with single underscores between them. -/
def digits? : Text → Option (List Nat)
  | [] => none
  | [c] => c.decimal?.map ([·])
  | c :: d :: rest =>
    match c.decimal? with
    | none => none
    | some v =>
      if d = '_' then
        match rest with
        | [] => none
        | _ => (digits? rest).map (v :: ·)
      else (digits? (d :: rest)).map (v :: ·)

def value (ds : List Nat) : Nat := ds.foldl (fun n d => 10 * n + d) 0

def read (t : Text) : Except ReadError Int :=
  let (negative, body) : Bool × Text := match t.strip with
    | c :: rest => if c = '-' then (true, rest) else if c = '+' then (false, rest) else (false, c :: rest)
    | [] => (false, [])
  match digits? body with
  | none => .error .invalid
  | some ds =>
    if maxDigits < ds.length then .error (.tooLong ds.length)
    else
      let n : Int := value ds
      .ok (if negative then -n else n)

/-- The decimal text of a whole number that is not too long. -/
def write? (i : Int) : Option Text :=
  if (Text.ofNat i.natAbs).length ≤ maxDigits then some (Text.ofInt i) else none

/-- The text of a failure to write a whole number. -/
def unwritable : Text :=
  "Exceeds the limit (4300 digits) for integer string conversion; use sys.set_int_max_str_digits() to increase the limit"

def ReadError.message (quoted : Text) : ReadError → Text
  | .invalid => "invalid literal for int() with base 10: " ++ quoted
  | .tooLong n => "Exceeds the limit (4300 digits) for integer string conversion: value has " ++ Text.ofNat n ++
      " digits; use sys.set_int_max_str_digits() to increase the limit"

end HostedLua.Integer
