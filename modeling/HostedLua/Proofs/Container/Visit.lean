import HostedLua.Host.Convert
import Mathlib.Data.Finset.Card
import Mathlib.Logic.Relation

/-! Containers as a graph. A value occurs in another if it is a key or a value of an entry somewhere below it.
`visit` is the depth-first walk that a conversion makes, without its tables; what it meets is just what
occurs, each container once, and it never goes deeper than there are containers. -/

namespace HostedLua.World

open Host Bridge

variable {w : World} {v x : Value} {id : Nat} {es : List (Value × Value)} {seen seen' : List Nat} {depth : Nat}

/-- The entries that a container is converted by; none for anything else, and for a container whose walk
fails. -/
def entries? (w : World) (v : Value) : Option (List (Value × Value)) :=
  match v with
  | .obj id =>
    match (w.objects[id]?).bind items? with
    | some (items, none) => some (items.filter fun e => !skipsKey e.1)
    | _ => none
  | _ => none

/-- A value is a key or a value of an entry of a container. -/
def HasPart (w : World) (c x : Value) : Prop :=
  ∃ es, w.entries? c = some es ∧ ∃ e ∈ es, x = e.1 ∨ x = e.2

def Occurs (w : World) (v x : Value) : Prop := Relation.ReflTransGen w.HasPart v x

/-- The containers met once a value has been walked through depth first, the last one first: the value of an
entry before its key, and no container twice. There are none where the way goes too deep. -/
def visit (w : World) : (depth : Nat) → List Nat → Value → Option (List Nat)
  | 0, _, _ => none
  | depth + 1, seen, v =>
    match v, w.entries? v with
    | .obj id, some es =>
      if id ∈ seen then some seen
      else es.foldlM (fun seen e => do w.visit depth (← w.visit depth seen e.2) e.1) (id :: seen)
    | _, _ => some seen

/-- The walk through entries. -/
def visitEntries (w : World) (depth : Nat) (seen : List Nat) (es : List (Value × Value)) : Option (List Nat) :=
  es.foldlM (fun seen e => do w.visit depth (← w.visit depth seen e.2) e.1) seen

theorem exists_obj_of_entries? (h : w.entries? v = some es) : ∃ id, v = .obj id := by
  cases v <;> first | exact ⟨_, rfl⟩ | simp [entries?] at h

theorem visit_leaf (h : w.entries? v = none) : w.visit (depth + 1) seen v = some seen := by
  cases v <;> simp [visit, h]

theorem visit_seen (hid : id ∈ seen) : w.visit (depth + 1) seen (.obj id) = some seen := by
  cases h : w.entries? (.obj id) <;> simp [visit, h, hid]

theorem visit_fresh (h : w.entries? (.obj id) = some es) (hid : id ∉ seen) :
    w.visit (depth + 1) seen (.obj id) = w.visitEntries depth (id :: seen) es := by
  simp [visit, h, hid, visitEntries]

theorem visitEntries_nil : w.visitEntries depth seen [] = some seen := rfl

theorem visitEntries_cons {e : Value × Value} :
    w.visitEntries depth seen (e :: es) = some seen' ↔ ∃ s₁ s₂, w.visit depth seen e.2 = some s₁ ∧
      w.visit depth s₁ e.1 = some s₂ ∧ w.visitEntries depth s₂ es = some seen' := by
  simp only [visitEntries, List.foldlM_cons, Option.bind_eq_bind, Option.bind_eq_some_iff]
  constructor
  · rintro ⟨s₂, ⟨s₁, h₁, h₂⟩, h₃⟩
    exact ⟨s₁, s₂, h₁, h₂, h₃⟩
  · rintro ⟨s₁, s₂, h₁, h₂, h₃⟩
    exact ⟨s₂, ⟨s₁, h₁, h₂⟩, h₃⟩

/-! ### Worlds with the same objects -/

section Same

variable {w' : World} (ho : w'.objects = w.objects)

include ho

theorem entries?_congr : w'.entries? v = w.entries? v := by
  cases v <;> simp [entries?, ho]

theorem occurs_congr : w'.Occurs v x ↔ w.Occurs v x := by
  have hpart : w'.HasPart = w.HasPart := by
    funext c x
    simp only [HasPart, entries?_congr ho]
  rw [Occurs, Occurs, hpart]

theorem visit_congr : w'.visit depth seen v = w.visit depth seen v := by
  induction depth generalizing seen v with
  | zero => rfl
  | succ depth ih => cases v <;> simp only [visit, entries?_congr ho, ih]

end Same

/-! ### What is met -/

/-- What a walk through values has done: it has met new containers, each once, which all occur in one of the
values; and it has met the values that are containers and whatever the new containers hold. -/
structure Walked (w : World) (vs : List Value) (seen seen' : List Nat) : Prop where
  new : ∃ new, seen' = new ++ seen
  nodup : seen.Nodup → seen'.Nodup
  occurs : ∀ id ∈ seen', id ∈ seen ∨ (w.entries? (.obj id)).isSome ∧ ∃ v ∈ vs, w.Occurs v (.obj id)
  closed : ∀ id ∈ seen', id ∈ seen ∨ ∀ c, w.HasPart (.obj id) (.obj c) → (w.entries? (.obj c)).isSome → c ∈ seen'
  root : ∀ c, .obj c ∈ vs → (w.entries? (.obj c)).isSome → c ∈ seen'

namespace Walked

variable {vs us : List Value} {s₁ s₂ : List Nat}

theorem subset (h : w.Walked vs seen seen') : seen ⊆ seen' := by
  obtain ⟨new, rfl⟩ := h.new
  exact List.subset_append_right _ _

theorem nil : w.Walked [] seen seen where
  new := ⟨[], rfl⟩
  nodup := id
  occurs := fun _ => .inl
  closed := fun _ => .inl
  root := by simp

theorem append (h : w.Walked vs seen s₁) (h' : w.Walked us s₁ s₂) : w.Walked (vs ++ us) seen s₂ where
  new := by
    obtain ⟨new, rfl⟩ := h.new
    obtain ⟨new', rfl⟩ := h'.new
    exact ⟨new' ++ new, (List.append_assoc ..).symm⟩
  nodup := h'.nodup ∘ h.nodup
  occurs := by
    intro id hid
    rcases h'.occurs id hid with hid | ⟨hc, v, hv, hocc⟩
    · rcases h.occurs id hid with hid | ⟨hc, v, hv, hocc⟩
      · exact .inl hid
      · exact .inr ⟨hc, v, List.mem_append_left us hv, hocc⟩
    · exact .inr ⟨hc, v, List.mem_append_right vs hv, hocc⟩
  closed := by
    intro id hid
    rcases h'.closed id hid with hid | hid
    · rcases h.closed id hid with hid | hid
      · exact .inl hid
      · exact .inr fun c hc hcont => h'.subset (hid c hc hcont)
    · exact .inr hid
  root := by
    intro c hc hcont
    rcases List.mem_append.mp hc with hc | hc
    · exact h'.subset (h.root c hc hcont)
    · exact h'.root c hc hcont

theorem of_leaf (h : w.entries? v = none) : w.Walked [v] seen seen where
  new := ⟨[], rfl⟩
  nodup := id
  occurs := fun _ => .inl
  closed := fun _ => .inl
  root := by
    intro c hc hcont
    simp_all

theorem of_seen (hid : id ∈ seen) : w.Walked [.obj id] seen seen where
  new := ⟨[], rfl⟩
  nodup := fun h => h
  occurs := fun _ => .inl
  closed := fun _ => .inl
  root := by simp_all

/-- A container whose parts have been walked through has been walked through. -/
theorem of_parts (h : w.entries? (.obj id) = some es) (hid : id ∉ seen)
    (hw : w.Walked (es.flatMap fun e => [e.2, e.1]) (id :: seen) seen') : w.Walked [.obj id] seen seen' where
  new := by
    obtain ⟨new, rfl⟩ := hw.new
    exact ⟨new ++ [id], by simp⟩
  nodup := fun hs => hw.nodup (List.nodup_cons.mpr ⟨hid, hs⟩)
  occurs := by
    intro c hc
    rcases hw.occurs c hc with hc | ⟨hcont, v, hv, hocc⟩
    · rcases List.mem_cons.mp hc with rfl | hc
      · exact .inr ⟨by simp [h], _, List.mem_singleton_self _, .refl⟩
      · exact .inl hc
    · obtain ⟨e, he, hve⟩ := List.mem_flatMap.mp hv
      have hpart : w.HasPart (.obj id) v := ⟨es, h, e, he, by simpa [or_comm] using hve⟩
      exact .inr ⟨hcont, _, List.mem_singleton_self _, .head hpart hocc⟩
  closed := by
    intro c hc
    rcases hw.closed c hc with hc | hc
    · rcases List.mem_cons.mp hc with rfl | hc
      · refine .inr fun d hd hcont => hw.root d ?_ hcont
        obtain ⟨es', h', e, he, hde⟩ := hd
        obtain rfl := Option.some.inj (h.symm.trans h')
        exact List.mem_flatMap.mpr ⟨e, he, by simpa [or_comm] using hde⟩
      · exact .inl hc
    · exact .inr hc
  root := by
    intro c hc _
    obtain rfl : c = id := by simpa using hc
    exact hw.subset (List.mem_cons_self ..)

end Walked

theorem walked_of_visit : ∀ {depth : Nat} {seen seen' : List Nat} {v : Value},
    w.visit depth seen v = some seen' → w.Walked [v] seen seen' := by
  intro depth
  induction depth with
  | zero => simp [visit]
  | succ depth ih =>
    have entries : ∀ {es : List (Value × Value)} {seen seen' : List Nat},
        w.visitEntries depth seen es = some seen' →
        w.Walked (es.flatMap fun e => [e.2, e.1]) seen seen' := by
      intro es
      induction es with
      | nil =>
        intro seen seen' h
        obtain rfl := Option.some.inj h
        exact .nil
      | cons e es ihe =>
        intro seen seen' h
        obtain ⟨s₁, s₂, h₁, h₂, h₃⟩ := visitEntries_cons.mp h
        exact ((ih h₁).append (ih h₂)).append (ihe h₃)
    intro seen seen' v h
    cases he : w.entries? v with
    | none =>
      rw [visit_leaf he] at h
      obtain rfl := Option.some.inj h
      exact .of_leaf he
    | some es =>
      obtain ⟨id, rfl⟩ := exists_obj_of_entries? he
      by_cases hid : id ∈ seen
      · rw [visit_seen hid] at h
        obtain rfl := Option.some.inj h
        exact .of_seen hid
      · rw [visit_fresh he hid] at h
        exact .of_parts he hid (entries h)

/-- A walk from nothing meets exactly the containers that occur in its value. -/
theorem Walked.mem_iff (hw : w.Walked [v] [] seen) :
    id ∈ seen ↔ (w.entries? (.obj id)).isSome ∧ w.Occurs v (.obj id) := by
  constructor
  · intro hid
    simpa using (hw.occurs id hid).resolve_left (List.not_mem_nil)
  · rintro ⟨hcont, hocc⟩
    -- Whatever is on the way to a container is a container itself, so the walk has met it.
    suffices ∀ x, w.Occurs v x → ∀ c, x = .obj c → (w.entries? x).isSome → c ∈ seen from
      this _ hocc id rfl hcont
    intro x hx
    induction hx with
    | refl =>
      rintro c rfl hc
      exact hw.root c (List.mem_singleton_self _) hc
    | tail _ hpart ih =>
      rintro c rfl hc
      have ⟨es, hes, _⟩ := hpart
      obtain ⟨b, rfl⟩ := exists_obj_of_entries? hes
      have hb : b ∈ seen := ih b rfl (by simp [hes])
      exact ((hw.closed b hb).resolve_left List.not_mem_nil) c hpart hc

theorem mem_visit_iff (h : w.visit depth [] v = some seen) :
    id ∈ seen ↔ (w.entries? (.obj id)).isSome ∧ w.Occurs v (.obj id) :=
  (walked_of_visit h).mem_iff

theorem nodup_visit (h : w.visit depth [] v = some seen) : seen.Nodup :=
  (walked_of_visit h).nodup List.nodup_nil

/-! ### How deep the way goes -/

theorem card_fresh_lt {ids : Finset Nat} (hid : id ∈ ids) (hs : id ∉ seen) :
    (ids.filter (· ∉ id :: seen)).card < (ids.filter (· ∉ seen)).card := by
  refine Finset.card_lt_card (Finset.ssubset_iff_of_subset ?_ |>.mpr ⟨id, by simp [hid, hs], by simp⟩)
  intro c hc
  simp_all

theorem card_fresh_le {ids : Finset Nat} (h : seen ⊆ seen') :
    (ids.filter (· ∉ seen')).card ≤ (ids.filter (· ∉ seen)).card := by
  refine Finset.card_le_card fun c hc => ?_
  have hc := Finset.mem_filter.mp hc
  exact Finset.mem_filter.mpr ⟨hc.1, fun hs => hc.2 (h hs)⟩

/-- Cycles do not lead the walk on: it needs no more depth than there are containers left to meet. -/
theorem visit_isSome (ids : Finset Nat) : ∀ {depth : Nat} {seen : List Nat} {v : Value},
    (∀ id, (w.entries? (.obj id)).isSome → w.Occurs v (.obj id) → id ∈ ids) →
    (ids.filter (· ∉ seen)).card < depth → (w.visit depth seen v).isSome := by
  intro depth
  induction depth with
  | zero => simp
  | succ depth ih =>
    have entries : ∀ {es : List (Value × Value)} {seen : List Nat},
        (∀ e ∈ es, ∀ x, x = e.1 ∨ x = e.2 → ∀ id, (w.entries? (.obj id)).isSome → w.Occurs x (.obj id) → id ∈ ids) →
        (ids.filter (· ∉ seen)).card < depth → (w.visitEntries depth seen es).isSome := by
      intro es
      induction es with
      | nil => simp [visitEntries_nil]
      | cons e es ihe =>
        intro seen hall hcard
        have he := hall e (List.mem_cons_self ..)
        obtain ⟨s₁, h₁⟩ := Option.isSome_iff_exists.mp (ih (he e.2 (.inr rfl)) hcard)
        have hcard₁ := (card_fresh_le (walked_of_visit h₁).subset).trans_lt hcard
        obtain ⟨s₂, h₂⟩ := Option.isSome_iff_exists.mp (ih (he e.1 (.inl rfl)) hcard₁)
        have hcard₂ := (card_fresh_le (walked_of_visit h₂).subset).trans_lt hcard₁
        obtain ⟨s₃, h₃⟩ := Option.isSome_iff_exists.mp (ihe (fun e he => hall e (List.mem_cons_of_mem _ he)) hcard₂)
        exact Option.isSome_iff_exists.mpr ⟨s₃, visitEntries_cons.mpr ⟨s₁, s₂, h₁, h₂, h₃⟩⟩
    intro seen v hall hcard
    cases he : w.entries? v with
    | none => simp [visit_leaf he]
    | some es =>
      obtain ⟨id, rfl⟩ := exists_obj_of_entries? he
      by_cases hid : id ∈ seen
      · simp [visit_seen hid]
      · rw [visit_fresh he hid]
        have hlt := card_fresh_lt (hall id (by simp [he]) .refl) hid
        refine entries (fun e hmem x hx c hc hocc => ?_) (by omega)
        exact hall c hc (.head ⟨es, he, e, hmem, hx⟩ hocc)

end HostedLua.World
