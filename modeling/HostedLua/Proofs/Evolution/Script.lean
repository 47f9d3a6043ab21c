import HostedLua.Proofs.Evolution.Engine
import HostedLua.Script

/-! What scripts keep. What is read off the class of a script and the instances made of it keep what operations on
handles keep. -/

namespace HostedLua.Bridge

open Host

variable {I : World → Prop} {R : World → World → Prop} [Admits I R]

@[grind ←] theorem keeps_script (id : Nat) : Keeps I R (script id) := by
  grind [script]

variable {E : Engine} (hE : EngineKeeps I R E)

include hE

theorem keeps_classValue (id : Nat) (key : Text) (default : Value) : Keeps I R (classValue E id key default) := by
  refine (keeps_script id).bind fun s => ?_
  split
  · refine (keeps_object _).bind fun o => ?_
    split
    · exact keeps_getValue hE _ _ _
    · exact .pure _
  · exact .pure _

theorem keeps_globalName (id : Nat) : Keeps I R (globalName E id) := by
  refine (keeps_classValue hE id _ _).bind fun v => ?_
  split
  · exact .pure _
  · exact keeps_str hE _

theorem keeps_baseType (id : Nat) : Keeps I R (baseType E id) := by
  refine (keeps_script id).bind fun s => (keeps_language _).bind fun l => (keeps_config _).bind fun c => ?_
  refine (keeps_classValue hE id _ _).bind fun v => ?_
  split <;> exact .pure _

theorem keeps_isTool (id : Nat) : Keeps I R (isTool E id) :=
  (keeps_classValue hE id _ _).bind fun v => keeps_truthy v

theorem keeps_makeInstance (a : Adapter) (target table : Value) : Keeps I R (makeInstance E a target table) := by
  cases a with
  | record =>
    refine (keeps_lookAt hE _ _ _).bind fun v => (keeps_lookAt hE _ _ _).bind fun t => ?_
    exact (keeps_noteCall _).bind fun _ => keeps_newObject _
  | unimplemented => exact .raise _ _

theorem keeps_instantiate (id : Nat) (target : Value) : Keeps I R (instantiate E id target) := by
  refine (keeps_script id).bind fun s => (keeps_language _).bind fun l => ?_
  split
  · split
    · exact (keeps_report _ _).bind fun _ => .pure _
    · exact keeps_makeInstance hE _ _ _
  · exact (keeps_report _ _).bind fun _ => .pure _

end HostedLua.Bridge
