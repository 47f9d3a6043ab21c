import HostedLua.Proofs.Container.Frame
import HostedLua.Proofs.Crossing.Held
import Mathlib

/-! Arguments that cannot be converted. A call or a resumption with such arguments comes back with an error value, and
the world is as it was but for that value and for what the conversion has made anew. -/

namespace HostedLua

open Host

namespace World

variable {w : World} {vs : List Value} {state : Nat} {g : Growth}

/-- A world after a conversion that has failed, and of whose failure an error value has been made. -/
def refused (w : World) (state : Nat) (g : Growth) (f : Fault) : World :=
  (w.after state g).more #[.error ⟨f.status, f.message⟩ false]

theorem Adds.of_hold (h : (w.hold vs state).Adds state g) : w.Adds state g :=
  ⟨h.size_le, h.kept, h.objects, h.reports⟩

end World

namespace Bridge

variable {w w' : World} {h : Handle} {id : Nat} {args vs : List Value} {f : Fault} {state : Nat}

/-- Where the conversion of the arguments fails, what would follow it does not matter. -/
theorem holding_refused {g : Growth}
    (hargs : toGuestValues state args (w.hold vs state) =
      some (.ok (.error ⟨f.status, f.message⟩), (w.hold vs state).after state g)) (rest : List Value → Bridge Value) :
    holding vs state (do
      match ← toGuestValues state args with
      | .error e => newError e.status e.message
      | .ok args => rest args) w =
    some (.ok (.obj (w.objects.size + g.objects.size)), w.refused state g f) := by
  rw [holding_of ((bind_ok hargs).trans (newObject_apply _ _))]
  simp [World.refused, World.after, World.more, World.release, World.hold]

theorem invoke_refused {g : Growth} (hv : isValid h w = some (.ok true, w))
    (hargs : toGuestValues h.state args (w.hold (h.guest :: args) h.state) =
      some (.ok (.error ⟨f.status, f.message⟩), (w.hold (h.guest :: args) h.state).after h.state g)) (E : Engine) :
    invoke E h args w = some (.ok (.obj (w.objects.size + g.objects.size)), w.refused h.state g f) := by
  obtain ⟨s, -, hrequire⟩ := requireState_valid "function" hv
  rw [invoke, bind_ok hrequire]
  exact holding_refused hargs _

theorem resume_refused {g : Growth} (hv : isValid h w = some (.ok true, w))
    (hargs : toGuestValues h.state args (w.hold (.obj id :: h.guest :: args) h.state) =
      some (.ok (.error ⟨f.status, f.message⟩), (w.hold (.obj id :: h.guest :: args) h.state).after h.state g))
    (E : Engine) :
    resume E id h args w = some (.ok (.obj (w.objects.size + g.objects.size)), w.refused h.state g f) := by
  obtain ⟨s, -, hrequire⟩ := requireState_valid "thread" hv
  rw [resume, bind_ok hrequire]
  exact holding_refused hargs _

/-- A failure in a conversion comes back with its outcome and its text. -/
theorem toGuestValues_refused (hargs : args.mapM (toGuest state) (w.hold vs state) = some (.error f, w')) :
    ∃ g, w.Adds state g ∧ toGuestValues state args (w.hold vs state) =
      some (.ok (.error ⟨f.status, f.message⟩), (w.hold vs state).after state g) := by
  obtain ⟨g, hg, ⟨guests, hok, -⟩ | ⟨f', hf, hvalues⟩⟩ := toGuestValues_adds state args (w.hold vs state)
  · rw [hargs] at hok
    cases hok
  · rw [hargs] at hf
    obtain ⟨he, -⟩ := Prod.mk.inj (Option.some.inj hf)
    obtain rfl := Except.error.inj he
    exact ⟨g, hg.of_hold, hvalues⟩

/-- A conversion writes into nothing that was there, whatever comes of it. So where the arguments of a call or of a
resumption cannot be converted, what comes back is an error value with the outcome and the text of the fault, and
nothing else is done to the world: whatever engine there is, no Lua code runs and no callback. -/
theorem conversion_frame (w : World) :
    (∀ state v, ∃ r g, toGuest state v w = some (r, w.after state g) ∧ w.Adds state g) ∧
      (∀ h args f w', isValid h w = some (.ok true, w) →
        args.mapM (toGuest h.state) (w.hold (h.guest :: args) h.state) = some (.error f, w') →
        ∃ g, w.Adds h.state g ∧ ∀ E,
          invoke E h args w = some (.ok (.obj (w.objects.size + g.objects.size)), w.refused h.state g f)) ∧
      ∀ id h args f w', isValid h w = some (.ok true, w) →
        args.mapM (toGuest h.state) (w.hold (.obj id :: h.guest :: args) h.state) = some (.error f, w') →
        ∃ g, w.Adds h.state g ∧ ∀ E,
          resume E id h args w = some (.ok (.obj (w.objects.size + g.objects.size)), w.refused h.state g f) := by
  refine ⟨fun state v => ?_, fun h args f w' hv hargs => ?_, fun id h args f w' hv hargs => ?_⟩
  · have hadding : Adding w state (w.still state) (toGuest state v) := adding_toGuest v
    obtain ⟨r, g, hr, hg, -⟩ := hadding.run
    exact ⟨r, g, hr, hg⟩
  · obtain ⟨g, hg, hvalues⟩ := toGuestValues_refused hargs
    exact ⟨g, hg, invoke_refused hv hvalues⟩
  · obtain ⟨g, hg, hvalues⟩ := toGuestValues_refused hargs
    exact ⟨g, hg, resume_refused hv hvalues⟩

/-- A list in a list holds text that no set can write: it is refused to a function and to a coroutine alike. -/
theorem conversion_frame_nested :
    let s : LuaState :=
      { config := 0, diagnostics := 0, charset := .utf8, machine := { heap := {} }, globals := 0 }
    let function : Handle := { kind := .function, state := 0, guest := .obj 1 }
    let coroutine : Handle := { kind := .coroutine, state := 0, guest := .obj 1 }
    let w : World :=
      { objects := #[.nothing, .guest ⟨0, .closure 0, false⟩, .list [.int 1, .obj 3], .list [.text [0xD800]],
                     .handle coroutine]
        configs := #[{}], diagnostics := #[[]], states := #[s]
        languages := #[{ config := 0, diagnostics := 0, state := some 0 }] }
    (∃ f w' g, [Value.obj 2].mapM (toGuest 0) (w.hold [.obj 1, .obj 2] 0) = some (.error f, w') ∧ w.Adds 0 g ∧
      ∀ E, invoke E function [.obj 2] w = some (.ok (.obj (5 + g.objects.size)), w.refused 0 g f)) ∧
    ∃ f w' g, [Value.obj 2].mapM (toGuest 0) (w.hold [.obj 4, .obj 1, .obj 2] 0) = some (.error f, w') ∧ w.Adds 0 g ∧
      ∀ E, resume E 4 coroutine [.obj 2] w = some (.ok (.obj (5 + g.objects.size)), w.refused 0 g f) := by
  intro s function coroutine w
  have hfails (vs : List Value) (h : failsWith (fun _ => true) ([Value.obj 2].mapM (toGuest 0) (w.hold vs 0)) = true) :
      ∃ f w', [Value.obj 2].mapM (toGuest 0) (w.hold vs 0) = some (.error f, w') := by
    obtain ⟨f, w', hf, -⟩ := eq_error_of_failsWith h
    exact ⟨f, w', hf⟩
  have halive : w.stateAlive 0 = true := by simp [World.stateAlive, w]
  have hvalid (h : Handle) (hstate : h.state = 0) (hguest : h.guest = .obj 1) : isValid h w = some (.ok true, w) := by
    simp [isValid, openState?, bind_apply, hstate, hguest, halive, w, s]
  obtain ⟨-, hinvoke, hresume⟩ := conversion_frame w
  obtain ⟨f, v, hf⟩ := hfails [.obj 1, .obj 2] (by cbv)
  obtain ⟨f', v', hf'⟩ := hfails [.obj 4, .obj 1, .obj 2] (by cbv)
  obtain ⟨g, hg, hrefused⟩ := hinvoke function [.obj 2] f v (hvalid function rfl rfl) hf
  obtain ⟨g', hg', hrefused'⟩ := hresume 4 coroutine [.obj 2] f' v' (hvalid coroutine rfl rfl) hf'
  exact ⟨⟨f, v, g, hf, hg, hrefused⟩, f', v', g', hf', hg', hrefused'⟩

end Bridge

end HostedLua
