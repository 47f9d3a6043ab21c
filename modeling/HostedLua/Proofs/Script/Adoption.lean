import HostedLua.Script
import HostedLua.Proofs.Evolution.Language

/-! Reloads. The source of a script is run, and what it gives decides: a table becomes the class of the script, and
anything else is reported and leaves the script invalid. A run that raises or does not end leaves the script to
whatever happened meanwhile. -/

namespace HostedLua

open Host

namespace World

def scriptOf (w : World) (id : Nat) : Script := (w.scripts[id]?).getD { language := 0, source := [] }

def diagnosticsOf (w : World) (id : Nat) : Nat := (w.languageOf (w.scriptOf id).language).diagnostics

/-- A world in which a script has another class and state. -/
def withClass (w : World) (id : Nat) (loaded : Option Nat) (state : ScriptState) : World :=
  { w with scripts := w.scripts.modify id ({ · with loaded, state }) }

def reported (w : World) (diagnostics : Nat) (message : Text) : World :=
  { w with diagnostics := w.diagnostics.modify diagnostics (· ++ [.report message]) }

def IsTable (w : World) (r : Nat) : Prop := ∃ h, w.objects[r]? = some (.handle h) ∧ h.kind = .table

def IsError (w : World) (r : Nat) (e : LuaError) : Prop := ∃ isSub, w.objects[r]? = some (.error e isSub)

variable {w : World} {id : Nat} {loaded : Option Nat} {state : ScriptState}

theorem withClass_scripts (id' : Nat) : (w.withClass id loaded state).scripts[id']? =
    (w.scripts[id']?).map fun s => if id = id' then { s with loaded, state } else s := by
  rw [withClass, Array.getElem?_modify]
  by_cases hid : id = id' <;> simp [hid]

end World

namespace Bridge

open World

/-- What becomes of a script, with the diagnostics of its language, when its source has given something. -/
inductive Adopts (id diagnostics : Nat) (result : Value) (w : World) : ReloadStatus → World → Prop where
  | table {r : Nat} (gives : result = .obj r) (table : w.IsTable r) :
    Adopts id diagnostics result w .ok (w.withClass id (some r) .valid)
  | exhausted {r : Nat} {e : LuaError} (gives : result = .obj r) (error : w.IsError r e)
    (status : e.status = .memory ∨ e.status = .collector) :
    Adopts id diagnostics result w .outOfMemory ((w.reported diagnostics e.text).withClass id none .invalid)
  | unparsed {r : Nat} {e : LuaError} (gives : result = .obj r) (error : w.IsError r e)
    (status : e.status = .badSource) :
    Adopts id diagnostics result w .parseError ((w.reported diagnostics e.text).withClass id none .invalid)
  | failed {r : Nat} {e : LuaError} (gives : result = .obj r) (error : w.IsError r e)
    (status : e.status ≠ .memory ∧ e.status ≠ .collector ∧ e.status ≠ .badSource) :
    Adopts id diagnostics result w .scriptFailed ((w.reported diagnostics e.text).withClass id none .invalid)
  | other (other : ∀ r, result = .obj r → ¬ w.IsTable r ∧ ∀ e, ¬ w.IsError r e) :
    Adopts id diagnostics result w .scriptFailed
      ((w.reported diagnostics "Lua script must return a table").withClass id none .invalid)

variable {E : Engine} {w w' v : World} {id r : Nat} {result : Value} {status : ReloadStatus}

theorem script_apply (id : Nat) (w : World) : script id w = some (.ok (w.scriptOf id), w) := rfl

theorem describe_error {e : LuaError} (h : w.IsError r e) : describe E (.obj r) w = some (.ok e.text, w) := by
  obtain ⟨isSub, hr⟩ := h
  rw [describe, bind_ok (object_apply r w), hr]
  show str E (.obj r) w = _
  rw [str, strWith, bind_ok (object_apply r w), hr]
  rfl

/-- A script takes whatever its source has given. -/
theorem adopt_adopts (E : Engine) (id : Nat) (result : Value) (w : World) :
    ∃ status w', adopt E id result w = some (.ok status, w') ∧ Adopts id (w.diagnosticsOf id) result w status w' := by
  rw [adopt, bind_ok (script_apply id w), bind_ok (language_apply _ w)]
  -- what is neither a table nor an error is told by the kind of object alone
  have hother {r : Nat} (ho : ¬ w.IsTable r ∧ ∀ e, ¬ w.IsError r e) :
      Adopts id (w.diagnosticsOf id) (.obj r) w .scriptFailed
        ((w.reported (w.diagnosticsOf id) "Lua script must return a table").withClass id none .invalid) := by
    refine .other fun r' h => ?_
    obtain rfl := Value.obj.inj h
    exact ho
  cases result with
  | obj r =>
    dsimp only
    rw [bind_ok (object_apply r w)]
    cases hr : w.objects[r]? with
    | none => exact ⟨_, _, rfl, hother (by simp [IsTable, IsError, hr])⟩
    | some o =>
      cases o with
      | error e isSub =>
        have herror : w.IsError r e := ⟨isSub, hr⟩
        dsimp only [Option.getD_some]
        rw [bind_ok (describe_error herror)]
        refine ⟨.ofStatus e.status, (w.reported (w.diagnosticsOf id) e.text).withClass id none .invalid, rfl, ?_⟩
        cases hs : e.status with
        | memory => exact .exhausted rfl herror (.inl hs)
        | collector => exact .exhausted rfl herror (.inr hs)
        | badSource => exact .unparsed rfl herror hs
        | _ => exact .failed rfl herror (by simp [hs])
      | handle h =>
        cases hk : h.kind with
        | table =>
          refine ⟨.ok, w.withClass id (some r) .valid, ?_, .table rfl ⟨h, hr, hk⟩⟩
          dsimp only [Option.getD_some]
          rw [hk]
          rfl
        | _ =>
          refine ⟨_, _, ?_, hother (by simp [IsTable, IsError, hr, hk])⟩
          dsimp only [Option.getD_some]
          rw [hk]
          rfl
      | _ => exact ⟨_, _, rfl, hother (by simp [IsTable, IsError, hr])⟩
  | _ => exact ⟨_, _, rfl, .other fun r h => by cases h⟩

/-- A reload runs the source of the script as it is then, in its language, and takes what that gives. -/
theorem reload_eq (E : Engine) (id : Nat) (w : World) : reload E id w =
    (runIn E (w.scriptOf id).language (.text (w.scriptOf id).source) >>= adopt E id) w := by
  rw [reload, bind_ok (script_apply id w)]

/-- A reload that completes has run the source, and the script has taken what that gave. -/
theorem reload_ok (h : reload E id w = some (.ok status, w')) : ∃ result v,
    runIn E (w.scriptOf id).language (.text (w.scriptOf id).source) w = some (.ok result, v) ∧
      adopt E id result v = some (.ok status, w') ∧ Adopts id (v.diagnosticsOf id) result v status w' := by
  rw [reload_eq] at h
  rcases bind_some h with ⟨f, -, hr⟩ | ⟨result, v, hrun, h⟩
  · cases hr
  · obtain ⟨status', w'', hadopt, hadopts⟩ := adopt_adopts E id result v
    obtain ⟨rfl, rfl⟩ := ok_inj (hadopt.symm.trans h)
    exact ⟨result, v, hrun, hadopt, hadopts⟩

end Bridge

end HostedLua
