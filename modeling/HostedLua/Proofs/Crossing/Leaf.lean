import HostedLua.Proofs.Bridge.Run
import Mathlib.Tactic.SplitIfs

/-! Values that are no containers, on their way to Lua. Under a state that serves, `leafForm?` is the form
in which such a value is pushed, and `pushed?` is the Lua value that a form becomes. -/

namespace HostedLua

open Host

namespace World

/-- A state that is open, with its encoding. -/
structure Opens (w : World) (state : Nat) (s : LuaState) (encoding : Value) : Prop where
  found : w.states[state]? = some s
  isOpen : s.isOpen = true
  encoding_eq : ((w.configs[s.config]?).getD {}).encoding = encoding

/-- An open state as its constructor leaves it: it has whole numbers of its own, and its strings cross in the
set of its encoding; without an encoding no set is asked for. -/
structure Serves (w : World) (state : Nat) (s : LuaState) (encoding : Value) : Prop
    extends w.Opens state s encoding where
  hasIntegers : s.hasIntegers = true
  charset : encoding = .none ∨ Bridge.charset? encoding = some s.charset

theorem Opens.mono {w w' : World} {state : Nat} {s : LuaState} {encoding : Value}
    (hs : w.Opens state s encoding) (h : w'.states = w.states) (hc : w'.configs = w.configs) :
    w'.Opens state s encoding :=
  ⟨h ▸ hs.found, hs.isOpen, hc ▸ hs.encoding_eq⟩

theorem Serves.mono {w w' : World} {state : Nat} {s : LuaState} {encoding : Value}
    (hs : w.Serves state s encoding) (h : w'.states = w.states) (hc : w'.configs = w.configs) :
    w'.Serves state s encoding :=
  ⟨hs.toOpens.mono h hc, hs.hasIntegers, hs.charset⟩

/-- The handles of an open state that is held are valid if they stand for a value. -/
theorem Opens.valid_eq {w : World} {s : LuaState} {encoding : Value} {h : Handle} (hs : w.Opens h.state s encoding)
    (hh : h.state ∈ w.heldStates) : w.valid h = h.stands := by
  rw [valid_of_held hh, opened_eq hs.found, hs.isOpen, Bool.and_true]

def more (w : World) (os : Array Object) : World := { w with objects := w.objects ++ os }

theorem more_more (w : World) (os os' : Array Object) : (w.more os).more os' = w.more (os ++ os') := by
  simp [more, Array.append_assoc]

theorem more_empty (w : World) : w.more #[] = w := by
  simp [more]

theorem object_more {w : World} {os : Array Object} {id : Nat} {o : Object} (h : w.objects[id]? = some o) :
    (w.more os).objects[id]? = some o := by
  have hlt : id < w.objects.size := (Array.getElem?_eq_some_iff.mp h).1
  rw [more, Array.getElem?_append_left hlt, h]

theorem Serves.more {w : World} {state : Nat} {s : LuaState} {encoding : Value} {os : Array Object}
    (hs : w.Serves state s encoding) : (w.more os).Serves state s encoding :=
  hs.mono rfl rfl

/-- The form in which a value that is no container is pushed; none where it cannot be converted. -/
def leafForm? (w : World) (state : Nat) (encoding : Value) (v : Value) : Option Value :=
  match v with
  | .text t =>
    match encoding with
    | .none => ((Charset.utf8.encodeEscaped t).toOption).map .bytes
    | _ => some (.text t)
  | .int i =>
    if Bridge.minInt ≤ i ∧ i ≤ Bridge.maxInt then some (.int i) else (Binary.ofInt? i).map .float
  | .obj id =>
    match w.objects[id]? with
    | some (.handle h) => some (if h.state = state then h.guest else .none)
    | some o => if (Bridge.items? o).isNone then some (.obj id) else none
    | none => none
  | v => some v

/-- What a value is in Lua once it is pushed; none where it is refused. -/
def pushed? (w : World) (state : Nat) (cs : Charset) (v : Value) : Option Lua.Value :=
  match v with
  | .none => some .nil
  | .bool b => some (.bool b)
  | .int i => if Bridge.minInt ≤ i ∧ i ≤ Bridge.maxInt then some (.int (Int64.ofInt i)) else none
  | .float x => some (.float x)
  | .text t => ((cs.encodeEscaped t).toOption).map .str
  | .bytes b => some (.str b)
  | .member m => some (.int (Int64.ofNat m.code))
  | .obj id =>
    match w.objects[id]? with
    | some (.guest g) => if g.state = state then some g.value else none
    | some _ => some (.host id)
    | none => none

end World

namespace Bridge

variable {w : World} {state : Nat} {s : LuaState}

/-- A computation for which a state is held and that only adds objects adds the same objects without it. -/
theorem holding_more {α : Type} {vs : List Value} {x : Bridge α} {a : α} {os : Array Object}
    (h : x { w with held := vs ++ w.held, heldStates := state :: w.heldStates } =
      some (.ok a, World.more { w with held := vs ++ w.held, heldStates := state :: w.heldStates } os)) :
    holding vs state x w = some (.ok a, w.more os) :=
  holding_ok h

theorem push_ok {v : Value} {x : Lua.Value} (hs : w.states[state]? = some s)
    (h : w.pushed? state s.charset v = some x) : push state v w = some (.ok x, w) := by
  cases v with
  | none | bool | float | bytes | member => simp_all [push, World.pushed?]
  | int i =>
    simp only [World.pushed?, Option.ite_none_right_eq_some, Option.some.injEq] at h
    simp [push, h]
  | text t =>
    simp only [World.pushed?, Option.map_eq_some_iff] at h
    obtain ⟨b, hb, rfl⟩ := h
    rw [push, bind_ok (state?_apply state w)]
    cases he : s.charset.encodeEscaped t with
    | error e => simp [he, Except.toOption] at hb
    | ok b' => simp_all [Except.toOption]
  | obj id =>
    rw [push, bind_ok (object_apply id w)]
    cases ho : w.objects[id]? with
    | none => simp [World.pushed?, ho] at h
    | some o =>
      simp only [World.pushed?, ho] at h
      cases o <;> simp_all

/-! ### Conversion -/

/-- A value that is no container is converted without a look at the tables met so far, and at most a report
is made. -/
theorem toGuestAt_leaf (depth : Nat) {encoding v u : Value} {σ : Seen} (hs : w.Opens state s encoding)
    (hw : state ∈ w.heldStates) (h : w.leafForm? state encoding v = some u) :
    ∃ reports, toGuestAt state (depth + 1) v σ w = some (.ok (u, σ), { w with diagnostics := reports }) := by
  cases v with
  | none | bool | float | bytes | member =>
    refine ⟨w.diagnostics, ?_⟩
    simp_all [toGuestAt, World.leafForm?]
  | int i =>
    refine ⟨w.diagnostics, ?_⟩
    rw [toGuestAt]
    simp only [World.leafForm?] at h
    split_ifs at h with hi
    · simp_all
    · obtain ⟨x, hx, rfl⟩ := Option.map_eq_some_iff.mp h
      simp [hi, hx]
  | text t =>
    refine ⟨w.diagnostics, ?_⟩
    rw [toGuestAt, seen_bind_ok (lift_ok (configOf_apply hs.found)), hs.encoding_eq]
    cases encoding with
    | none =>
      obtain ⟨b, hb, rfl⟩ := Option.map_eq_some_iff.mp h
      cases he : Charset.utf8.encodeEscaped t <;> simp_all [Except.toOption]
    | _ =>
      obtain rfl := Option.some.inj h
      cases Charset.utf8.encodeEscaped t <;> rfl
  | obj id =>
    rw [toGuestAt, seen_bind_ok (lift_ok (object_apply id w))]
    cases ho : w.objects[id]? with
    | none => simp [World.leafForm?, ho] at h
    | some o =>
      simp only [World.leafForm?, ho] at h
      cases o with
      | handle g =>
        obtain rfl := Option.some.inj h
        rw [Option.getD_some]
        simp only [seen_bind_ok (lift_ok (valid_apply g w))]
        by_cases hst : g.state = state
        · subst hst
          rw [hs.valid_eq hw, Handle.stands]
          cases g.guest with
          | none => simp [seen_bind_ok (lift_ok (reportTo_apply hs.found))]
          | _ => exact ⟨w.diagnostics, by simp⟩
        · simp [hst, seen_bind_ok (lift_ok (reportTo_apply hs.found))]
      | _ =>
        refine ⟨w.diagnostics, ?_⟩
        simp_all

end Bridge

end HostedLua
