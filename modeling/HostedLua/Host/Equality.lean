import HostedLua.World

/-! Equality of host values as keys. Numbers and truth values are equal by what they count, text and bytes
by content, tuples and errors part by part, and all else by identity. -/

namespace HostedLua

open Host

namespace Host.Value

/-- Two scalars are equal; numbers of different types may be. -/
def scalarEq (a b : Value) : Bool :=
  match a, b with
  | .none, .none => true
  | .text s, .text t => s == t
  | .bytes s, .bytes t => s == t
  | .float x, .float y => x == y
  | .float x, b =>
    match b.int? with
    | some i => Binary.isInt x i
    | Option.none => false
  | a, .float y =>
    match a.int? with
    | some i => Binary.isInt y i
    | Option.none => false
  | .obj i, .obj j => i == j
  | a, b =>
    match a.int?, b.int? with
    | some i, some j => i == j
    | _, _ => false

end Host.Value

namespace World

def object? (w : World) : Value → Option Object
  | .obj id => w.objects[id]?
  | _ => none

/-- Two values are equal. -/
def valueEq (w : World) : (depth : Nat) → Value → Value → Bool
  | 0, a, b => a.scalarEq b
  | depth + 1, a, b =>
    if a.scalarEq b then true
    else
      let both (s t : List Value) : Bool :=
        s.length == t.length && (s.zip t).all fun (x, y) => valueEq w depth x y
      let pairs (s t : List (Value × Value)) : Bool :=
        s.length == t.length && s.all fun (k, v) =>
          match t.find? fun (l, _) => valueEq w depth k l with
          | some (_, u) => valueEq w depth v u
          | none => false
      match w.object? a, w.object? b with
      | some (.tuple s), some (.tuple t) => both s t
      | some (.list s), some (.list t) => both s t
      | some (.dict s), some (.dict t) => pairs s t
      | some (.dict s), some (.proxy t) | some (.proxy s), some (.dict t) | some (.proxy s), some (.proxy t) =>
        pairs s t
      | some (.error e _), some (.error f _) => e == f
      | some (.shown k s), some (.shown l t) => k == l && s == t
      | some (.byteArray s), some (.byteArray t) => s == t
      | some (.byteArray s), none | none, some (.byteArray s) =>
        match a, b with
        | .bytes t, _ | _, .bytes t => s == t
        | _, _ => false
      | _, _ => false

/-- A value can be a key. -/
def hashable (w : World) : (depth : Nat) → Value → Bool
  | 0, _ => true
  | depth + 1, v =>
    match w.object? v with
    | some (.list _) | some (.dict _) | some (.proxy _) | some (.byteArray _) => false
    | some (.tuple vs) => vs.all (hashable w depth)
    | _ => true

/-- How deep equality looks: no deeper than there are objects that may lie in each other. -/
def eqDepth (w : World) : Nat := w.objects.size + 1

/-- Puts an entry into a mapping: an equal key stays and gets the new value. -/
def putEntry (w : World) (entries : List (Value × Value)) (k v : Value) : List (Value × Value) :=
  match entries with
  | [] => [(k, v)]
  | (l, u) :: rest => if w.valueEq w.eqDepth l k then (l, v) :: rest else (l, u) :: putEntry w rest k v

/-- The value at a key of a mapping. -/
def findEntry (w : World) (entries : List (Value × Value)) (k : Value) : Option Value :=
  (entries.find? fun (l, _) => w.valueEq w.eqDepth l k).map (·.2)

end World

end HostedLua
