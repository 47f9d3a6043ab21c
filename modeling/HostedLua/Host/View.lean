import HostedLua.Host.Value

/-! What of a value is shown: a tree without identities, fixed at the time it is taken. -/

namespace HostedLua.Host

inductive View where
  | none
  | bool (b : Bool)
  | int (i : Int)
  | float (x : Float)
  | text (t : Text)
  | bytes (b : Bytes)
  | list (items : List View)
  | tuple (items : List View)
  | dict (items : List (View × View))
  | member (m : Member)
  | error (e : LuaError)
  | fault (f : Fault)
  | thing (name : Text)
  | handle (kind : String) (valid : Bool)
  | coroutine (valid : Bool) (status : CoroutineStatus) (closed : Bool)
  /-- A table with its entries. -/
  | table (items : List (View × View))
  | other (what : Text)

instance : Inhabited View := ⟨.none⟩

/-- A side effect: what it is about and its message. -/
structure Effect where
  topics : List View
  message : Text

namespace Effect

def report (message : Text) : Effect := ⟨[.text "stderr"], message⟩

/-- The topics include one by name. -/
def isAbout (e : Effect) (topic : Text) : Bool :=
  e.topics.any fun
    | .text t => t == topic
    | _ => false

/-- The one topic is a certain name. -/
def isOnly (e : Effect) (topic : Text) : Bool :=
  match e.topics with
  | [.text t] => t == topic
  | _ => false

end Effect

end HostedLua.Host
