import HostedLua.Host.ErrorValue
import HostedLua.Host.Handle

/-! What Lua code reads of a host object: an item where the object has items, and else an attribute. Errors and handles
have what they tell about themselves as attributes, and the function that captures `print` has the names among which it
was made: through them Lua code gets at the class of errors. -/

namespace HostedLua

open Host

def Host.Object.hasItems : Object → Bool
  | .list _ | .tuple _ | .dict _ | .proxy _ | .byteArray _ | .guest _ => true
  | _ => false

def Host.Object.methods : Object → List String
  | .error _ _ => ["get_message", "set_message", "get_status", "set_status"]
  | .handle h =>
    match h.kind with
    | .plain => []
    | .table => ["to_mapping", "to_dictionary", "get_value"]
    | .function | .subFunction => ["invoke", "invokev"]
    | .coroutine => ["create", "get_status", "resume", "resumev", "close"]
  | _ => []

namespace Bridge

def stateObject (state : Nat) : Bridge Value :=
  let isIt : Object → Bool
    | .state s => s = state
    | _ => false
  soleObject isIt (.state state)

def errorClass : Bridge Value :=
  let isIt : Object → Bool
    | .callback .errorClass => true
    | _ => false
  soleObject isIt (.callback .errorClass)

/-- What the module of runners takes from elsewhere, by name and type, the class of errors apart. -/
def importedNames : List (String × String) :=
  [("re", "module"), ("weakref", "module"), ("dataclass", "function"), ("field", "function"), ("Any", "_AnyMeta"),
   ("Dict", "_SpecialGenericAlias"), ("List", "_SpecialGenericAlias"), ("Literal", "_TypedCacheSpecialForm"),
   ("Optional", "_SpecialForm"), ("LuaScriptLanguage", "type")]

def definedNames : List (String × String) :=
  [("_LINE_RE", "Pattern"), ("ExecutionResult", "type"), ("ScriptRunner", "type"), ("_print_text", "function")]

/-- Names with new objects of the types given. -/
def typedNames (names : List (String × String)) : Bridge (List (Value × Value)) :=
  names.mapM fun name => do return (.ofString name.1, ← newObject (.other name.2))

/-- The mapping of the names of the module of runners. -/
def moduleNames : Bridge Value := do
  let imported ← typedNames importedNames
  let defined ← typedNames definedNames
  newObject (.dict ([(.text "__name__", .text "luabridge.lua_runtime"), (.text "__doc__", .none)] ++ imported ++
    [(.text "LuaError", ← errorClass)] ++ defined))

/-- What an object tells about itself, by name. -/
def attributes (o : Object) : List (String × Bridge Value) :=
  match o with
  | .error e _ => [("message", pure (.text e.message)), ("status", pure (.member (.error e.status)))]
  | .handle h =>
    [("state", do if ← isAlive h.state then stateObject h.state else return .none),
     ("guest_object", pure h.guest), ("valid", .bool <$> isValid h)] ++
      if h.kind = .coroutine then [("status", pure (.member (.coroutine h.status))), ("closed", pure (.bool h.closed))]
      else []
  | .callback .errorClass => [("__name__", pure (.text "LuaError")), ("__module__", pure (.text "luabridge.lua_error"))]
  | .callback (.capture _) =>
    [("__name__", pure (.text "lua_print")), ("__module__", pure (.text "luabridge.lua_runtime")),
     ("__doc__", pure .none), ("__globals__", moduleNames)]
  | _ => []

def attributeOf (o : Object) (name : Text) : Bridge Value := do
  match (attributes o).find? fun (known, _) => (known : Text) == name with
  | some (_, x) => x
  | none =>
    if o.methods.any fun known => (known : Text) == name then newObject (.other "method")
    else raise "AttributeError" ("'" ++ o.typeName ++ "' object has no attribute '" ++ name ++ "'")

/-- What Lua code reads of an object under a key. -/
def getMember (E : Engine) (id : Nat) (key : Value) : Bridge (List Value) := do
  let o ← object id
  if o.hasItems then getItem E (.obj id) key
  else match key with
    | .text name => return [← attributeOf o name]
    | v => raise "TypeError" ("attribute name must be string, not '" ++ (← typeName v) ++ "'")

end Bridge

end HostedLua
