import Std.Data.TreeSet
import HostedLua.World

/-! What the world still holds. A value holds its parts; the roots are the variables, named containers, the
states of languages, what a computation under way holds, and what Lua has been given. -/

namespace HostedLua

open Host

def Host.Object.parts : Object → List Value
  | .list vs | .tuple vs => vs
  | .dict ps | .proxy ps => ps.flatMap fun (k, v) => [k, v]
  | .handle h => h.guest :: (h.function.map Value.obj).toList
  | .callback (.action (.const v) _) => [v]
  | _ => []

namespace World

/-- The objects that Lua holds in a state. -/
def heldByLua (h : Lua.Heap) : List Nat :=
  let ofValue : Lua.Value → Option Nat
    | .host id => some id
    | _ => none
  h.cells.toList.filterMap ofValue ++ h.tables.toList.flatMap fun t =>
    t.toList.flatMap fun (k, v) => (ofValue k.value).toList ++ (ofValue v).toList

/-- Marks objects and all they hold. -/
def mark (w : World) : (fuel : Nat) → (todo : List Nat) → Std.TreeSet Nat → Std.TreeSet Nat
  | 0, _, seen => seen
  | _ + 1, [], seen => seen
  | fuel + 1, id :: todo, seen =>
    if seen.contains id then mark w fuel todo seen
    else
      let parts := (((w.objects[id]?).map Object.parts).getD []).filterMap fun
        | .obj id => some id
        | _ => none
      mark w fuel (parts ++ todo) (seen.insert id)

/-- The objects that the scripts of variables hold. -/
def scriptRoots (w : World) (ids : List Nat) : List Nat :=
  ids.filterMap fun id =>
    match (w.objects[id]? : Option Object) with
    | some (.script s) => (w.scripts[s]?).bind (·.loaded)
    | _ => none

/-- The objects that are still held. -/
def live (w : World) : Std.TreeSet Nat :=
  let ofValue : Value → Option Nat
    | .obj id => some id
    | _ => none
  let named := (w.bindings ++ w.names).filterMap fun (_, v) => ofValue v
  let lua := w.states.toList.flatMap fun s => if s.isOpen then heldByLua s.machine.heap else []
  let roots := named ++ w.held.filterMap ofValue ++ lua
  let parts := (w.objects.toList.map fun o => o.parts.length).foldl (· + ·) 0
  let fuel := 4 * (w.objects.size + roots.length + 4) + parts
  w.mark fuel (roots ++ w.scriptRoots roots) {}

/-- A state is still held, by its language, by a computation or as an object. -/
def stateAlive (w : World) (state : Nat) : Bool :=
  w.languages.any (fun l => l.state = some state) || w.heldStates.contains state ||
  w.live.any fun id => match (w.objects[id]? : Option Object) with
    | some (.state s) => s = state
    | _ => false

end World

namespace Bridge

/-- A state that is still held and open. -/
def openState? (id : Nat) : Bridge (Option LuaState) := do
  let w ← get
  match w.states[id]? with
  | some s => return if s.isOpen && w.stateAlive id then some s else none
  | none => return none

/-- A state is still held. -/
def isAlive (id : Nat) : Bridge Bool := do return (← get).stateAlive id

end Bridge

end HostedLua
