import HostedLua.Proofs.Bridge.Run
import HostedLua.Proofs.Container.Visit
import Mathlib.Algebra.Order.Group.Multiset

/-! Handles on the way. `meet` is the walk of `visit` with a note of every handle that it comes to. It notes what the
value is and what the containers that it meets hold, each container once, and no handle more than that. -/

namespace HostedLua.World

open Host Bridge

/-- What a walk has come to: handles, the first one first, and containers, the last one first. -/
structure Met where
  handles : List Handle
  containers : List Nat

variable {w : World} {v : Value} {id : Nat} {es : List (Value × Value)} {m m' m₁ m₂ : Met} {depth : Nat}

/-- What a container holds, in the order of the walk: the value of an entry before its key. -/
def parts (w : World) (id : Nat) : List Value := ((w.entries? (.obj id)).getD []).flatMap fun e => [e.2, e.1]

/-- The walk through a value, depth first. There is none where the way goes too deep. -/
def meet (w : World) : (depth : Nat) → Met → Value → Option Met
  | 0, _, _ => none
  | depth + 1, m, v =>
    match v, w.entries? v with
    | .obj id, some es =>
      if id ∈ m.containers then some m
      else es.foldlM (fun m e => do w.meet depth (← w.meet depth m e.2) e.1) ⟨m.handles, id :: m.containers⟩
    | _, _ => some ⟨m.handles ++ (w.handleAt v).toList, m.containers⟩

/-- The walk through entries. -/
def meetEntries (w : World) (depth : Nat) (m : Met) (es : List (Value × Value)) : Option Met :=
  es.foldlM (fun m e => do w.meet depth (← w.meet depth m e.2) e.1) m

theorem meet_leaf (h : w.entries? v = none) :
    w.meet (depth + 1) m v = some ⟨m.handles ++ (w.handleAt v).toList, m.containers⟩ := by
  cases v <;> simp [meet, h]

theorem meet_again (h : w.entries? (.obj id) = some es) (hid : id ∈ m.containers) :
    w.meet (depth + 1) m (.obj id) = some m := by
  simp [meet, h, hid]

theorem meet_fresh (h : w.entries? (.obj id) = some es) (hid : id ∉ m.containers) :
    w.meet (depth + 1) m (.obj id) = w.meetEntries depth ⟨m.handles, id :: m.containers⟩ es := by
  simp [meet, h, hid, meetEntries]

theorem meetEntries_cons {e : Value × Value} :
    w.meetEntries depth m (e :: es) = some m' ↔ ∃ m₁ m₂, w.meet depth m e.2 = some m₁ ∧
      w.meet depth m₁ e.1 = some m₂ ∧ w.meetEntries depth m₂ es = some m' := by
  simp only [meetEntries, List.foldlM_cons, Option.bind_eq_bind, Option.bind_eq_some_iff]
  constructor
  · rintro ⟨m₂, ⟨m₁, h₁, h₂⟩, h₃⟩
    exact ⟨m₁, m₂, h₁, h₂, h₃⟩
  · rintro ⟨m₁, m₂, h₁, h₂, h₃⟩
    exact ⟨m₂, ⟨m₁, h₁, h₂⟩, h₃⟩

/-- A container is no handle. -/
theorem handleAt_container (h : w.entries? v = some es) : w.handleAt v = none := by
  obtain ⟨id, rfl⟩ := exists_obj_of_entries? h
  rw [handleAt]
  cases ho : w.objects[id]? with
  | none => rfl
  | some o =>
    cases o with
    | handle _ => simp [entries?, ho, items?] at h
    | _ => rfl

theorem meet_congr {w' : World} (ho : w'.objects = w.objects) : w'.meet depth m v = w.meet depth m v := by
  induction depth generalizing m v with
  | zero => rfl
  | succ depth ih => cases v <;> simp only [meet, handleAt, entries?_congr ho, ho, ih]

/-! ### What is met -/

/-- What a walk through values adds to what was met: containers that are new, and the handles among the values and
among what these containers hold. -/
structure Encounters (w : World) (vs : List Value) (m m' : Met) : Prop where
  handles : ∃ hs ids, m'.handles = m.handles ++ hs ∧ m'.containers = ids ++ m.containers ∧
    hs.Perm ((vs ++ ids.flatMap w.parts).filterMap w.handleAt)

namespace Encounters

variable {vs us : List Value}

theorem nil : w.Encounters [] m m := ⟨[], [], by simp⟩

theorem append (h : w.Encounters vs m m₁) (h' : w.Encounters us m₁ m₂) : w.Encounters (vs ++ us) m m₂ := by
  obtain ⟨hs, ids, hhandles, hcontainers, hperm⟩ := h
  obtain ⟨hs', ids', hhandles', hcontainers', hperm'⟩ := h'
  refine ⟨hs ++ hs', ids' ++ ids, ?_, ?_, ?_⟩
  · rw [hhandles', hhandles, List.append_assoc]
  · rw [hcontainers', hcontainers, List.append_assoc]
  · refine (hperm.append hperm').trans ?_
    simp only [List.filterMap_append, List.flatMap_append, ← Multiset.coe_eq_coe, ← Multiset.coe_add]
    rw [add_add_add_comm, add_comm (Multiset.ofList ((ids.flatMap w.parts).filterMap w.handleAt))]

theorem of_leaf : w.Encounters [v] m ⟨m.handles ++ (w.handleAt v).toList, m.containers⟩ :=
  ⟨(w.handleAt v).toList, [], rfl, rfl, by cases h : w.handleAt v <;> simp [h]⟩

theorem of_again (h : w.entries? v = some es) : w.Encounters [v] m m :=
  ⟨[], [], by simp [handleAt_container h]⟩

/-- A container counts for what it holds. -/
theorem of_parts (h : w.entries? (.obj id) = some es)
    (hw : w.Encounters (es.flatMap fun e => [e.2, e.1]) ⟨m.handles, id :: m.containers⟩ m') :
    w.Encounters [.obj id] m m' := by
  obtain ⟨hs, ids, hhandles, hcontainers, hperm⟩ := hw
  refine ⟨hs, ids ++ [id], hhandles, by simp [hcontainers], hperm.trans ?_⟩
  have hparts : w.parts id = es.flatMap fun e => [e.2, e.1] := by simp [parts, h]
  simp only [← hparts, List.singleton_append, List.filterMap_cons_none (handleAt_container h),
    List.filterMap_append, List.flatMap_append, List.flatMap_singleton]
  exact List.perm_append_comm

end Encounters

/-- What holds of a walk through nothing, of two walks one after the other, of a leaf, of a container that was met
before, and of a new one if it holds of its parts, holds of every walk. -/
theorem meet_induction {P : List Value → Met → Met → Prop} (nil : ∀ m, P [] m m)
    (append : ∀ {vs us m m₁ m₂}, P vs m m₁ → P us m₁ m₂ → P (vs ++ us) m m₂)
    (leaf : ∀ {v} m, w.entries? v = none → P [v] m ⟨m.handles ++ (w.handleAt v).toList, m.containers⟩)
    (again : ∀ {id es m}, w.entries? (.obj id) = some es → id ∈ m.containers → P [.obj id] m m)
    (fresh : ∀ {id es m m'}, w.entries? (.obj id) = some es → id ∉ m.containers →
      P (es.flatMap fun e => [e.2, e.1]) ⟨m.handles, id :: m.containers⟩ m' → P [.obj id] m m') :
    ∀ {depth m m' v}, w.meet depth m v = some m' → P [v] m m' := by
  intro depth
  induction depth with
  | zero => simp [meet]
  | succ depth ih =>
    have entries : ∀ {es : List (Value × Value)} {m m' : Met}, w.meetEntries depth m es = some m' →
        P (es.flatMap fun e => [e.2, e.1]) m m' := by
      intro es
      induction es with
      | nil =>
        intro m m' h
        obtain rfl := Option.some.inj h
        exact nil m
      | cons e es ihe =>
        intro m m' h
        obtain ⟨m₁, m₂, h₁, h₂, h₃⟩ := meetEntries_cons.mp h
        exact append (append (ih h₁) (ih h₂)) (ihe h₃)
    intro m m' v h
    cases he : w.entries? v with
    | none =>
      obtain rfl := Option.some.inj ((meet_leaf he).symm.trans h)
      exact leaf m he
    | some es =>
      obtain ⟨id, rfl⟩ := exists_obj_of_entries? he
      by_cases hid : id ∈ m.containers
      · obtain rfl := Option.some.inj ((meet_again he hid).symm.trans h)
        exact again he hid
      · exact fresh he hid (entries ((meet_fresh he hid).symm.trans h))

theorem encounters_of_meet : w.meet depth m v = some m' → w.Encounters [v] m m' :=
  meet_induction (fun _ => .nil) .append (fun _ _ => .of_leaf) (fun he _ => .of_again he) fun he _ h => .of_parts he h

/-- The walk is one through the containers. -/
theorem walked_of_meet : w.meet depth m v = some m' → w.Walked [v] m.containers m'.containers :=
  meet_induction (P := fun vs m m' => w.Walked vs m.containers m'.containers) (fun _ => .nil) .append
    (fun _ he => .of_leaf he) (fun _ hid => .of_seen hid) fun he hid h => .of_parts he hid h

/-- The handles that a walk comes to are the value itself and those that the containers on the way hold, each
container once. -/
theorem handles_of_meet (h : w.meet depth ⟨[], []⟩ v = some m) :
    m.handles.Perm ((v :: m.containers.flatMap w.parts).filterMap w.handleAt) := by
  obtain ⟨hs, ids, hhandles, hcontainers, hperm⟩ := encounters_of_meet h
  obtain rfl : m.handles = hs := by simpa using hhandles
  obtain rfl : m.containers = ids := by simpa using hcontainers
  exact hperm

/-- A walk has come to all there is: to each container that occurs once, and to the handles that the value is or that
the containers hold, each as often as it stands there. -/
structure Complete (w : World) (v : Value) (m : Met) : Prop where
  once : m.containers.Nodup
  containers : ∀ id, id ∈ m.containers ↔ (w.entries? (.obj id)).isSome ∧ w.Occurs v (.obj id)
  handles : m.handles.Perm ((v :: m.containers.flatMap w.parts).filterMap w.handleAt)

theorem complete_of_meet (h : w.meet depth ⟨[], []⟩ v = some m) : w.Complete v m where
  once := (walked_of_meet h).nodup List.nodup_nil
  containers := fun _ => (walked_of_meet h).mem_iff
  handles := handles_of_meet h

end HostedLua.World
