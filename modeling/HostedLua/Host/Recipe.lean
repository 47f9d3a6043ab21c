import HostedLua.Host.Equality
import HostedLua.Host.Diagnostics

/-! Recipes: closed descriptions of host values. Making a value from a recipe adds the objects that it
needs; containers may be named before they are filled, so that a recipe can describe sharing and
cycles. -/

namespace HostedLua

open Host

inductive Host.Nesting where
  /-- A list of one item. -/
  | list
  /-- A mapping with one entry. -/
  | dict
  deriving DecidableEq, Repr

inductive Host.Recipe where
  /-- A scalar. -/
  | value (v : Value)
  | list (items : List Recipe)
  | tuple (items : List Recipe)
  /-- A mapping; an entry whose key equals that of an earlier one replaces its value. -/
  | dict (entries : List (Recipe × Recipe))
  | proxy (entries : List (Recipe × Recipe))
  /-- An object without parts that are described. -/
  | object (o : Object)
  /-- A container that is known by a name from before it is filled. -/
  | named (name : Text) (r : Recipe)
  /-- The container of a name. -/
  | same (name : Text)
  /-- A value in so many containers. -/
  | nested (kind : Nesting) (depth : Nat) (r : Recipe)
  /-- An object of the host that nothing is known of; a name stands for one object. -/
  | thing (name : Text)
  /-- The value of a variable. -/
  | variable (name : Text)
  | callback (a : Action)
  /-- A callback that gives a value. -/
  | constant (r : Recipe)

instance : Inhabited Host.Recipe := ⟨.value .none⟩

namespace Bridge

def variableValue (name : Text) : Bridge Value := do
  match ← variableNamed? name with
  | some v => return v
  | none => throw (.make (.ofString "KeyError") name)

def thing (name : Text) : Bridge Value :=
  let isIt : Object → Bool
    | .thing n => n == name
    | _ => false
  soleObject isIt (.thing name)

/-- A mapping from entries in order. -/
def entriesOf (ps : List (Value × Value)) : Bridge (List (Value × Value)) := do
  let w ← get
  return ps.foldl (fun entries (k, v) => w.putEntry entries k v) []

/-- A value in so many containers. -/
def nest (kind : Nesting) : (depth : Nat) → Value → Bridge Value
  | 0, v => return v
  | depth + 1, v => do
    let outer ← match kind with
      | .list => newObject (.list [v])
      | .dict => newObject (.dict [(.text "k", v)])
    nest kind depth outer

/-- Adds an object for a container, at the place that is kept for it if there is one. -/
def placeObject (place : Option Nat) (o : Object) : Bridge Value := do
  match place with
  | some id =>
    setObject id o
    return .obj id
  | none => newObject o

mutual

/-- Makes the value of a recipe in a language, a container at the place that is kept for it. -/
def makeAt (language : Nat) (place : Option Nat) : Recipe → Bridge Value
  | .value v => return v
  | .list rs => do placeObject place (.list (← makeAll language rs))
  | .tuple rs => do placeObject place (.tuple (← makeAll language rs))
  | .dict ps => do placeObject place (.dict (← entriesOf (← makePairs language ps)))
  | .proxy ps => do placeObject place (.proxy (← entriesOf (← makePairs language ps)))
  | .object o => newObject o
  | .named name r => do
    match ← newObject .nothing with
    | .obj id =>
      modify fun w => { w with names := (name, .obj id) :: w.names }
      makeAt language (some id) r
    | v => return v
  | .same name => return ((← get).names.lookup name).getD .none
  | .nested kind depth r => do nest kind depth (← makeAt language none r)
  | .thing name => thing name
  | .variable name => variableValue name
  | .callback a => newObject (.callback (.action a language))
  | .constant r => do newObject (.callback (.action (.const (← makeAt language none r)) language))

def makeAll (language : Nat) : List Recipe → Bridge (List Value)
  | [] => return []
  | r :: rs => do
    let v ← makeAt language none r
    return v :: (← makeAll language rs)

/-- Makes the entries of recipes. -/
def makePairs (language : Nat) : List (Recipe × Recipe) → Bridge (List (Value × Value))
  | [] => return []
  | (k, v) :: rs => do
    let k ← makeAt language none k
    let v ← makeAt language none v
    return (k, v) :: (← makePairs language rs)

end

def make (language : Nat) (r : Recipe) : Bridge Value := makeAt language none r

end Bridge

end HostedLua
