import HostedLua.Lua.Heap
import Mathlib.Data.List.Basic
import Mathlib.Data.List.Nodup
import Mathlib.Tactic.SplitIfs

/-! Tables as finite maps. The walk order tells keys apart, so a table gives back what was put into it; and
entries with different keys, put one after another into an empty table, are the entries of the table. -/

namespace HostedLua.Lua

namespace Key

theorem code_int {i : Int64} {k : Key} (h : (int i).code = k.code) : int i = k := by
  have hi : (int i).code = [0, i.toUInt64.toNat] ∨ (int i).code = [1, i.toUInt64.toNat] := by
    simp only [code]
    split_ifs <;> simp
  cases k with
  | int j =>
    have hbits : i.toUInt64 = j.toUInt64 := by
      simp only [code] at h
      split_ifs at h <;> simp only [List.cons.injEq, and_true] at h
      · exact UInt64.toNat_inj.mp h.2
      · simp at h
      · simp at h
      · exact UInt64.toNat_inj.mp h.2
    rw [← Int64.toInt64_toUInt64 i, hbits, Int64.toInt64_toUInt64]
  | _ => rcases hi with hi | hi <;> rw [hi] at h <;> simp [code] at h

/-- Keys with the same place in the walk order are the same. -/
theorem code_injective {a b : Key} (h : a.code = b.code) : a = b := by
  by_cases ha : ∃ i, a = .int i
  · obtain ⟨i, rfl⟩ := ha
    exact code_int h
  by_cases hb : ∃ i, b = .int i
  · obtain ⟨i, rfl⟩ := hb
    exact (code_int h.symm).symm
  cases a <;> cases b <;> simp [code] at h ha hb ⊢
  case bool.bool b c => cases b <;> cases c <;> simp_all
  case float.float x y =>
    obtain ⟨bits, _⟩ := x
    obtain ⟨bits', _⟩ := y
    obtain rfl : bits = bits' := UInt64.toNat_inj.mp h
    rfl
  case str.str => exact List.map_injective_iff.mpr (fun _ _ => UInt8.toNat_inj.mp) h
  case builtin.builtin b c => rw [← Builtin.ofNat_ctorIdx b, h, Builtin.ofNat_ctorIdx]
  all_goals exact h

/-- A key is the key of the value that it came from. -/
theorem key?_value (k : Key) : k.value.key? = .ok k := by
  cases k with
  | float x =>
    obtain ⟨bits, hbits, hint, hnan⟩ := x
    have hofFloat : FloatKey.ofFloat? (Float.ofBits bits) = some ⟨bits, hbits, hint, hnan⟩ := by
      simp only [FloatKey.ofFloat?, hbits, hint, hnan, and_self, dite_true]
    simp only [value, Value.key?, hint, hofFloat]
  | _ => rfl

instance : Std.TransCmp order := inferInstanceAs (Std.TransCmp (compareOn code))

instance : Std.LawfulEqCmp order where
  eq_of_compare h := code_injective (Std.LawfulEqCmp.eq_of_compare h)

end Key

namespace Table

variable {t : Table} {k l : Key} {v y : Value} {es : List (Key × Value)}

/-! ### One entry -/

theorem getElem?_set : (t.set k v).entries[l]? =
    if k = l then (if v.isNil then none else some v) else t.entries[l]? := by
  have hcmp : Key.order k l = .eq ↔ k = l := Std.LawfulEqCmp.compare_eq_iff_eq
  cases v <;> simp only [set, Std.TreeMap.getElem?_erase, Std.TreeMap.getElem?_insert, hcmp] <;>
    split_ifs <;> simp_all [Value.isNil]

theorem get_set_self : (t.set k v).get k = v := by
  rw [get, getElem?_set, if_pos rfl]
  cases v <;> rfl

theorem get_set_of_ne (h : k ≠ l) : (t.set k v).get l = t.get l := by
  rw [get, getElem?_set, if_neg h, get]

/-! ### Many entries -/

def putAll (t : Table) (es : List (Key × Value)) : Table := es.foldl (fun t e => t.set e.1 e.2) t

theorem getElem?_putAll (h : (es.map Prod.fst).Nodup) : (t.putAll es).entries[k]? = some y ↔
    (k, y) ∈ es ∧ y.isNil = false ∨ k ∉ es.map Prod.fst ∧ t.entries[k]? = some y := by
  induction es generalizing t with
  | nil => simp [putAll]
  | cons e es ih =>
    obtain ⟨l, x⟩ := e
    rw [List.map_cons, List.nodup_cons] at h
    obtain ⟨hl, h⟩ := h
    rw [putAll, List.foldl_cons, ← putAll, ih h, getElem?_set]
    by_cases hkl : l = k
    · subst hkl
      have hmem (z : Value) : (l, z) ∉ es := fun hz => hl (List.mem_map.mpr ⟨(l, z), hz, rfl⟩)
      cases hx : x.isNil
      · have hy : x = y ↔ y = x ∧ y.isNil = false := ⟨fun h => ⟨h.symm, h ▸ hx⟩, fun h => h.1.symm⟩
        simpa [hmem, hl, hx] using hy
      · have hy : ¬(y = x ∧ y.isNil = false) := by
          rintro ⟨rfl, hy⟩
          rw [hx] at hy
          contradiction
        simpa [hmem, hl, hx] using hy
    · have hne : k ≠ l := fun he => hkl he.symm
      simp [hkl, hne]

/-- A table has one entry at a key. -/
theorem pairwise_toList (t : Table) : t.toList.Pairwise fun p q => p.1 ≠ q.1 := by
  refine List.Pairwise.imp (fun {p q} hpq heq => hpq ?_) Std.TreeMap.distinct_keys_toList
  rw [heq]
  exact Std.ReflCmp.compare_self

theorem toList_putAll (h : (es.map Prod.fst).Nodup) :
    (putAll {} es).toList.Perm (es.filter fun e => !e.2.isNil) := by
  have hkeys : (putAll {} es).toList.Nodup :=
    (pairwise_toList _).imp fun {a b} hab heq => hab (congrArg Prod.fst heq)
  have hes : (es.filter fun e => !e.2.isNil).Nodup := (List.Nodup.of_map _ h).filter _
  refine (List.perm_ext_iff_of_nodup hkeys hes).mpr fun ⟨k, y⟩ => ?_
  rw [toList, Std.TreeMap.mem_toList_iff_getElem?_eq_some, getElem?_putAll h, List.mem_filter]
  simp

end Table

end HostedLua.Lua
