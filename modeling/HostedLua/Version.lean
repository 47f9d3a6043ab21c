import HostedLua.Text.Class
import HostedLua.Number.Integer

/-! The version of Lua in the text by which it names itself. -/

namespace HostedLua.Version

/-- The run of digits of any script at the head of a text, and the rest. -/
def digitRun (t : Text) : Text × Text :=
  let run := t.takeWhile fun (c : CodePoint) => c.decimal?.isSome
  (run, t.drop run.length)

/-- Two numbers with a point between them at the head of a text, as digits. -/
def here? (t : Text) : Option (Text × Text) :=
  match digitRun t with
  | ([], _) => none
  | (major, c :: rest) =>
    match digitRun rest with
    | ([], _) => none
    | (minor, _) => if c = '.' then some (major, minor) else none
  | (_, []) => none

/-- The first two numbers with a point between them, as digits. -/
def find? (t : Text) : Option (Text × Text) :=
  match t with
  | [] => none
  | _ :: rest => (here? t).orElse fun _ => find? rest

/-- The version that is assumed where none is named. -/
def assumed : Int × Int := (5, 1)

def read (t : Text) : Except (Text × Integer.ReadError) (Int × Int) :=
  match find? t with
  | none => .ok assumed
  | some (major, minor) =>
    match Integer.read major, Integer.read minor with
    | .ok a, .ok b => .ok (a, b)
    | .error e, _ => .error (major, e)
    | _, .error e => .error (minor, e)

end HostedLua.Version
