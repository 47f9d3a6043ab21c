import HostedLua.Proofs.Evolution.Handle
import Mathlib.Data.List.Basic

/-! Handles in use. An operation on a handle first asks whether the handle is valid: if not, it makes one report, or
one entry in the log if the state is gone; if it is, the handle and its state are held while the operation runs. -/

namespace HostedLua

open Host

namespace World

def hold (w : World) (vs : List Value) (state : Nat) : World :=
  { w with held := vs ++ w.held, heldStates := state :: w.heldStates }

/-- A world that holds again what another one holds. -/
def release (w' w : World) : World := { w' with held := w.held, heldStates := w.heldStates }

/-- A world in which the use of an invalid handle has been reported, or logged if its state is gone. -/
def complained (w : World) (h : Handle) (what : Text) : World :=
  let message : Text := "InvalidState: " ++ h.kind.name ++ " does not have a valid " ++ what
  if w.stateAlive h.state then
    match w.states[h.state]? with
    | some s => { w with diagnostics := w.diagnostics.modify s.diagnostics (· ++ [.report message]) }
    | none => w
  else { w with logs := ("ERROR: " ++ message) :: w.logs }

variable {w w' : World}

theorem Sound.hold (hw : w.Sound) (vs : List Value) (state : Nat) : (w.hold vs state).Sound := hw.of_eq rfl

/-! ### What a handle notes -/

section Notes

variable {id : Nat} {h h' : Handle}

def withHandle (w : World) (id : Nat) (h : Handle) : World := { w with objects := w.objects.set! id (.handle h) }

/-- A handle is replaced, and every other object is as it was. -/
theorem withHandle_objects (hid : w.objects[id]? = some (.handle h)) (i : Nat) :
    (w.withHandle id h').objects[i]? = if i = id then some (.handle h') else w.objects[i]? := by
  have hlt : id < w.objects.size := (Array.getElem?_eq_some_iff.mp hid).1
  rw [withHandle, Array.set!_eq_setIfInBounds]
  split_ifs with hi
  · rw [hi, Array.getElem?_setIfInBounds_self_of_lt hlt]
  · rw [Array.getElem?_setIfInBounds_ne (Ne.symm hi)]

/-- What the marks reach depends on the parts of objects alone. -/
theorem mark_congr {w' : World}
    (hparts : ∀ i : Nat, (w'.objects[i]?).map Object.parts = (w.objects[i]?).map Object.parts) (fuel : Nat)
    (todo : List Nat) (seen : Std.TreeSet Nat) : w'.mark fuel todo seen = w.mark fuel todo seen := by
  induction fuel generalizing todo seen with
  | zero => rfl
  | succ fuel ih =>
    cases todo with
    | nil => rfl
    | cons i todo => simp only [mark, hparts, ih]

/-- Which state is still held does not depend on what handles note. -/
theorem stateAlive_withHandle (hid : w.objects[id]? = some (.handle h)) (hguest : h'.guest = h.guest)
    (hfunction : h'.function = h.function) (state : Nat) :
    (w.withHandle id h').stateAlive state = w.stateAlive state := by
  have hparts (i : Nat) : ((w.withHandle id h').objects[i]?).map Object.parts = (w.objects[i]?).map Object.parts := by
    rw [withHandle_objects hid]
    split_ifs with hi
    · rw [hi, hid, Option.map_some, Option.map_some, Object.parts, Object.parts, hguest, hfunction]
    · rfl
  have hlist : ((w.withHandle id h').objects.toList.map fun o => o.parts.length) =
      w.objects.toList.map fun o => o.parts.length := by
    refine List.ext_getElem? fun i => ?_
    have := congrArg (Option.map List.length) (hparts i)
    simpa [Option.map_map, Function.comp_def] using this
  have hscripts (ids : List Nat) : (w.withHandle id h').scriptRoots ids = w.scriptRoots ids := by
    refine List.filterMap_congr fun i _ => ?_
    rw [withHandle_objects hid]
    split_ifs with hi
    · rw [hi, hid]
    · rfl
  have hlive : (w.withHandle id h').live = w.live := by
    unfold live
    rw [mark_congr hparts, hscripts, hlist]
    simp [withHandle]
  rw [stateAlive, stateAlive, hlive]
  refine congrArg (fun holds => (w.languages.any fun l => l.state = some state) || w.heldStates.contains state ||
    w.live.any holds) (funext fun i => ?_)
  rw [withHandle_objects hid]
  split_ifs with hi
  · rw [hi, hid]
  · rfl

end Notes

end World

namespace Bridge

variable {α : Type} {w w' : World} {h : Handle} {vs : List Value} {state : Nat} {x : Bridge α}
  {r : Except Fault α}

theorem holding_eq : holding vs state x w = (x (w.hold vs state)).map fun p => (p.1, p.2.release w) :=
  holding_apply vs state x w

theorem holding_of (hx : x (w.hold vs state) = some (r, w')) : holding vs state x w = some (r, w'.release w) := by
  rw [holding_eq, hx]
  rfl

theorem holding_some (h : holding vs state x w = some (r, w')) :
    ∃ v, x (w.hold vs state) = some (r, v) ∧ w' = v.release w := by
  rw [holding_eq] at h
  obtain ⟨⟨_, v⟩, hx, heq⟩ := Option.map_eq_some_iff.mp h
  obtain ⟨rfl, rfl⟩ := Prod.mk.inj heq
  exact ⟨v, hx, rfl⟩

/-- A valid handle has its state. -/
theorem state_of_isValid (hv : isValid h w = some (.ok true, w)) : ∃ s, w.states[h.state]? = some s := by
  obtain ⟨hvalid, -⟩ := Prod.mk.inj (Option.some.inj ((valid_apply h w).symm.trans hv))
  cases hs : w.states[h.state]? with
  | some s => exact ⟨s, rfl⟩
  | none => simp [World.valid, World.opened, hs] at hvalid

theorem requireState_valid (what : Text) (hv : isValid h w = some (.ok true, w)) :
    ∃ s, w.states[h.state]? = some s ∧ requireState h what w = some (.ok (some s), w) := by
  obtain ⟨s, hs⟩ := state_of_isValid hv
  refine ⟨s, hs, ?_⟩
  rw [requireState, bind_ok hv, ← hs]
  rfl

theorem requireState_invalid (what : Text) (hv : isValid h w = some (.ok false, w)) :
    requireState h what w = some (.ok none, w.complained h what) := by
  have halive : isAlive h.state w = some (.ok (w.stateAlive h.state), w) := rfl
  rw [requireState, bind_ok hv, if_neg Bool.false_ne_true]
  dsimp only
  rw [bind_ok halive, World.complained]
  split_ifs
  · cases hs : w.states[h.state]? with
    | none =>
      have hreport (message : Text) : reportTo h.state message w = some (.ok ⟨⟩, w) := by
        rw [reportTo, bind_ok (state?_apply _ _), hs]
        rfl
      exact bind_ok (hreport _)
    | some s => exact bind_ok (reportTo_apply hs)
  · rfl

/-- Which handles are valid does not depend on what handles note. -/
theorem isValid_withHandle {id : Nat} {g g' : Handle} (hid : w.objects[id]? = some (.handle g))
    (hguest : g'.guest = g.guest) (hfunction : g'.function = g.function) {b : Bool}
    (hv : isValid h w = some (.ok b, w)) :
    isValid h (w.withHandle id g') = some (.ok b, w.withHandle id g') := by
  have hsame : (w.withHandle id g').valid h = w.valid h := by
    rw [World.valid, World.valid, World.stateAlive_withHandle hid hguest hfunction]
    rfl
  obtain ⟨hvalid, -⟩ := Prod.mk.inj (Option.some.inj ((valid_apply h w).symm.trans hv))
  rw [valid_apply, hsame, hvalid]

end Bridge

end HostedLua
