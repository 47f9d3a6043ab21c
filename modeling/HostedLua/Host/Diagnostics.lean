import HostedLua.World

/-! Diagnostics: the record of reports and other side effects. -/

namespace HostedLua.Bridge

open Host

def addEffect (diagnostics : Nat) (e : Effect) : Bridge Unit := modify fun w =>
  { w with diagnostics := w.diagnostics.modify diagnostics (· ++ [e]) }

/-- The topics that something names: one by its name, or the parts of a sequence. -/
def topicsOf (v : View) : Bridge (List View) := do
  match v with
  | .text t => return [.text t]
  | .list vs | .tuple vs => return vs
  | .dict ps => return ps.map (·.1)
  | .bytes b => return b.map fun x => .int x.toNat
  | _ => raise "TypeError" "object is not iterable"

def report (diagnostics : Nat) (message : Text) : Bridge Unit := addEffect diagnostics (.report message)

/-- The side effects on record. -/
def effects (diagnostics : Nat) : Bridge (List Effect) := do
  return ((← get).diagnostics[diagnostics]?).getD []

/-- The messages of the reports on record. -/
def errors (diagnostics : Nat) : Bridge (List Text) := do
  return ((← effects diagnostics).filter (·.isAbout "stderr")).map (·.message)

def clearEffects (diagnostics : Nat) : Bridge Unit := modify fun w =>
  { w with diagnostics := w.diagnostics.set! diagnostics [] }

def newDiagnostics : Bridge Nat := modifyGet fun w =>
  (w.diagnostics.size, { w with diagnostics := w.diagnostics.push [] })

def newConfig (c : Config) : Bridge Nat := modifyGet fun w =>
  (w.configs.size, { w with configs := w.configs.push c })

def config (id : Nat) : Bridge Config := do return ((← get).configs[id]?).getD {}

end HostedLua.Bridge
