import HostedLua.Host.Recipe
import HostedLua.Number.Integer
import HostedLua.Number.Reading
import HostedLua.Text.Base64
import HostedLua.Yaml.Node
import HostedLua.Yaml.Stamp

/-! The values that nodes are made into. Collections are made level by level, so that of several problems
the one on the outermost level is met first. -/

namespace HostedLua.Yaml

open Host

namespace Tag

def failWith {α : Type} (kind : String) (text : Text) : Except Problem α := .error (.fault (.of kind text))

/-- Reads digits of a base, some of which may stand behind the letter of the base. -/
def readBase (base : Nat) (letter : Char) (t : Text) : Except Problem Int :=
  let body := match t with
    | zero :: c :: rest => if zero = '0' && c.lower = letter then rest else t
    | _ => t
  let isDigitOf (c : CodePoint) : Bool := c.hexValue?.any (· < base)
  if !body.isEmpty && body.all isDigitOf then .ok (Text.digitsValue base body)
  else failWith "ValueError" ("invalid literal for int() with base " ++ Text.ofNat base ++ ": " ++ t.quoted)

def readDecimal (t : Text) : Except Problem Int :=
  match Integer.read t with
  | .ok n => .ok n
  | .error e => failWith "ValueError" (e.message t.quoted)

/-- A sign in front of a number, and the number, which is not empty. -/
def signed (t : Text) : Except Problem (Bool × Text) :=
  match t with
  | [] => failWith "IndexError" "string index out of range"
  | c :: rest => .ok (c = '-', if c = '-' || c = '+' then rest else t)

def makeInt (t : Text) : Except Problem Int := do
  let (negative, body) ← signed (t.filter fun (c : CodePoint) => c ≠ '_')
  let starts (word : String) : Bool := (word : Text).isPrefixOf body
  let magnitude : Int ←
    if body == ("0" : Text) then pure 0
    else if starts "0b" then readBase 2 'b' (body.drop 2)
    else if starts "0x" then readBase 16 'x' (body.drop 2)
    else if starts "0" then readBase 8 'o' body
    else if List.elem (CodePoint.ofChar ':') body then do
      pure ((← (Text.splitOn ':' body).mapM readDecimal).foldl (fun sum n => 60 * sum + n) 0)
    else if body.isEmpty then failWith "IndexError" "string index out of range"
    else readDecimal body
  return if negative then -magnitude else magnitude

/-- Reads a decimal number with a point. -/
def readFloat (t : Text) : Except Problem Float :=
  match Decimal.read? t.strip with
  | some x => .ok x
  | none => failWith "ValueError" ("could not convert string to float: " ++ t.quoted)

def makeFloat (t : Text) : Except Problem Float := do
  let (negative, body) ← signed (Text.lower (t.filter fun (c : CodePoint) => c ≠ '_'))
  let magnitude : Float ←
    if body == (".inf" : Text) then pure (1.0 / 0.0)
    else if body == (".nan" : Text) then pure (0.0 / 0.0)
    else if List.elem (CodePoint.ofChar ':') body then do
      let parts ← (Text.splitOn ':' body).mapM readFloat
      pure (parts.reverse.foldl (fun (sum, base) n => (sum + n * base, base * 60.0)) (0.0, 1.0)).1
    else readFloat body
  return if negative then -magnitude else magnitude

def makeScalar (tag : Tag) (t : Text) : Except Problem Recipe :=
  match tag with
  | .null => .ok (.value .none)
  | .bool =>
    match truthWords.find? fun (w, _) => t.lower == (w : Text) with
    | some (_, b) => .ok (.value (.bool b))
    | none => .error (.fault (.make (.ofString "KeyError") t.lower))
  | .int => (makeInt t).map fun n => .value (.int n)
  | .float => (makeFloat t).map fun x => .value (.float x)
  | .binary =>
    if t.all fun c => c.val < 128 then
      match Base64.decode? t with
      | some b => .ok (.value (.bytes b))
      | none => .error .malformed
    else .error .malformed
  | .timestamp =>
    match Stamp.read? t with
    | some s =>
      match s.object with
      | .ok o => .ok (.object o)
      | .error f => .error (.fault f)
    | none => failWith "AttributeError" "'NoneType' object has no attribute 'groupdict'"
  | .text => .ok (.value (.text t))
  | _ => .error .malformed

end Tag

namespace Node

def tag : Node → Tag
  | .scalar t _ | .sequence t _ | .mapping t _ => t
  | .anchored _ n => n.tag
  | .enclosing _ => .unknown

/-- The text of a node as a scalar: its own, or that of the value that stands for a mapping. -/
def scalarText? : (fuel : Nat) → Node → Option Text
  | 0, _ => none
  | fuel + 1, n =>
    match n.body with
    | .scalar _ t => some t
    | .mapping _ es =>
      match es.find? fun (k, _) => k.tag = .value with
      | some (_, v) => scalarText? fuel v
      | none => none
    | _ => none

/-- The entries of a mapping after those that are merged into it; of several mappings that are merged the
first counts most. -/
def merged : (fuel : Nat) → List (Node × Node) → Option (List (Node × Node))
  | 0, _ => none
  | fuel + 1, es => do
    let entriesOf (n : Node) : Option (List (Node × Node)) :=
      match n.body with
      | .mapping _ es => merged fuel es
      | _ => none
    let sources ← (es.filter fun (k, _) => k.tag = .merge).mapM fun (_, v) =>
      match v.body with
      | .mapping _ es => merged fuel es
      | .sequence _ ns => do return (← ns.mapM entriesOf).reverse.flatten
      | .enclosing _ => some []
      | _ => none
    let own := (es.filter fun (k, _) => k.tag ≠ .merge).map fun (k, v) =>
      match k with
      | .scalar .value t => (.scalar .text t, v)
      | k => (k, v)
    return sources.flatten ++ own

/-- A value, or the problem that is met first in making it with the level that it is met on. -/
abbrev Made (α : Type) := Except (Nat × Problem) α

/-- All values, or the problem among them that is met first. -/
def all {α : Type} : List (Made α) → Made (List α)
  | [] => .ok []
  | x :: xs =>
    match x, all xs with
    | .ok a, .ok as => .ok (a :: as)
    | .ok _, .error e => .error e
    | .error e, .ok _ => .error e
    | .error e, .error f => .error (if f.1 < e.1 then f else e)

def malformed {α : Type} (level : Nat) : Made α := .error (level, .malformed)

/-- Both values, or the problem that is met first. -/
def both {α β : Type} (x : Made α) (y : Made β) : Made (α × β) :=
  match x, y with
  | .ok a, .ok b => .ok (a, b)
  | .ok _, .error e | .error e, .ok _ => .error e
  | .error e, .error f => .error (if f.1 < e.1 then f else e)

def make : (fuel : Nat) → (level : Nat) → Node → Made Recipe
  | 0, level, _ => malformed level
  | fuel + 1, level, n =>
    let inner := level + 1
    let pair (e : Node × Node) : Made (Recipe × Recipe) :=
      both (if e.1.tag.isScalar then make fuel inner e.1 else malformed inner) (make fuel inner e.2)
    let pairs (es : List (Node × Node)) : Made (List (Recipe × Recipe)) :=
      match merged fuel es with
      | none => malformed inner
      | some es => all (es.map pair)
    let single (n : Node) : Made Recipe :=
      match n.body with
      | .mapping _ [(k, v)] =>
        (both (make fuel inner k) (make fuel inner v)).map fun (k, v) => .tuple [k, v]
      | _ => malformed inner
    match n with
    | .enclosing name => .ok (.same name)
    | .anchored name n => (make fuel level n).map fun r =>
      match r with
      | .value v => .value v
      | r => .named name r
    | n =>
      match n.tag, n with
      | .sequence, .sequence _ ns => (all (ns.map (make fuel inner))).map .list
      | .orderedMapping, .sequence _ ns | .pairs, .sequence _ ns => (all (ns.map single)).map .list
      | .mapping, .mapping _ es => (pairs es).map .dict
      | .set, .mapping _ es => (pairs es).map fun _ => .object (.other "set")
      | .sequence, _ | .orderedMapping, _ | .pairs, _ | .mapping, _ | .set, _ => malformed inner
      | tag, n =>
        match scalarText? fuel n with
        | none => malformed level
        | some t => (tag.makeScalar t).mapError fun p => (level, p)

end Node

def document? (t : Text) : Except Problem (Option Recipe) :=
  match Node.ofText? t with
  | .error p => .error p
  | .ok none => .ok none
  | .ok (some n) => ((n.make (4 * t.length + 16) 0).mapError (·.2)).map some

end HostedLua.Yaml
