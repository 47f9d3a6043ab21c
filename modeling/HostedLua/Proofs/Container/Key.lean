import HostedLua.Host.Equality
import HostedLua.Proofs.Container.Image
import HostedLua.Proofs.Number.Float
import HostedLua.Proofs.Text.RoundTrip

/-! Scalars that cross to Lua and come back. They come back as they were; as a key, a float that is a whole
number comes back as that number, which is equal to it. So keys that are different stay different. -/

namespace HostedLua

open Host

namespace Host.Value

def isNone : Value → Bool
  | .none => true
  | _ => false

/-- A scalar that crosses to Lua and back: no value, a truth value, a whole number in Lua's range, a float, or
text without surrogates that the set can write. -/
def IsCovered (cs : Charset) : Value → Prop
  | .none | .bool _ | .float _ => True
  | .int i => Bridge.minInt ≤ i ∧ i ≤ Bridge.maxInt
  | .text t => Text.isClean t ∧ ∃ b, cs.encodeEscaped t = .ok b
  | _ => False

def keyBack (k : Value) : Value :=
  match k with
  | .float x =>
    match Lua.exactInt? x with
    | some i => .int i.toInt
    | Option.none => k
  | k => k

end Host.Value

namespace World

open Bridge

variable {w : World} {state : Nat} {s : LuaState} {encoding k l : Value}

theorem toInt_ofInt {i : Int} (h : minInt ≤ i ∧ i ≤ maxInt) : (Int64.ofInt i).toInt = i :=
  Int64.toInt_ofInt_of_le h.1 (by have := h.2; simp only [maxInt] at this; omega)

theorem entries?_of_isCovered {cs : Charset} (h : k.IsCovered cs) : w.entries? k = none := by
  cases k <;> first | rfl | exact h.elim

/-- A scalar becomes a Lua value that is fetched as the scalar. -/
theorem leaf?_of_isCovered (w : World) (state : Nat) (he : encoding ≠ .none) (h : k.IsCovered s.charset) :
    ∃ y, w.leaf? state s.charset encoding k = some y ∧ fetched s state y = .inl k ∧
      y.isNil = k.isNone := by
  cases k with
  | none => exact ⟨.nil, rfl, rfl, rfl⟩
  | bool b => exact ⟨.bool b, rfl, rfl, rfl⟩
  | float x => exact ⟨.float x, rfl, rfl, rfl⟩
  | int i =>
    have hi : minInt ≤ i ∧ i ≤ maxInt := h
    exact ⟨.int (Int64.ofInt i), by simp [leaf?, leafForm?, pushed?, hi], by simp [fetched, toInt_ofInt hi], rfl⟩
  | text t =>
    obtain ⟨hclean, b, hb⟩ := h
    refine ⟨.str b, ?_, ?_, rfl⟩
    · have hform : w.leafForm? state encoding (.text t) = some (.text t) := by
        cases encoding <;> first | exact absurd rfl he | rfl
      simp [leaf?, hform, pushed?, hb, Except.toOption]
    · rw [fetched, Charset.decodeEscaped_of_encodeFrom hclean hb]
  | _ => exact h.elim

/-! ### Keys -/

theorem exactInt?_eq_some {x : Float} {i : Int64} (h : Lua.exactInt? x = some i) :
    Binary.whole? x = some i.toInt := by
  rw [Lua.exactInt?] at h
  split at h
  · rename_i n hn
    split_ifs at h with hrange
    obtain rfl := Option.some.inj h
    rw [hn, Int64.toInt_ofInt_of_le hrange.1 hrange.2]
  · contradiction

/-- A key becomes a key in Lua that is fetched as the key that comes back. -/
theorem key_of_isCovered (w : World) (state : Nat) (he : encoding ≠ .none) (h : k.IsCovered s.charset)
    (hk : skipsKey k = false) :
    ∃ y κ, w.leaf? state s.charset encoding k = some y ∧ y.key? = .ok κ ∧
      fetched s state κ.value = .inl k.keyBack := by
  obtain ⟨y, hy, hback, -⟩ := leaf?_of_isCovered w state he h
  refine ⟨y, ?_⟩
  cases k with
  | none => simp [skipsKey] at hk
  | bool b =>
    obtain rfl := Option.some.inj hy
    exact ⟨.bool b, rfl, rfl, rfl⟩
  | int i =>
    have hi : minInt ≤ i ∧ i ≤ maxInt := h
    obtain rfl : y = .int (Int64.ofInt i) := by simpa [leaf?, leafForm?, pushed?, hi, eq_comm] using hy
    exact ⟨.int (Int64.ofInt i), hy, rfl, hback⟩
  | float x =>
    obtain rfl := Option.some.inj hy
    have hnan : x.isNaN = false := hk
    cases hx : Lua.exactInt? x with
    | some i => exact ⟨.int i, rfl, by simp [Lua.Value.key?, hx], by simp [Lua.Key.value, fetched, Value.keyBack, hx]⟩
    | none =>
      obtain ⟨κ, hκ, hbits⟩ := Lua.FloatKey.ofFloat?_some hx hnan
      have hkey : Lua.Value.key? (.float x) = .ok (.float κ) := by simp only [Lua.Value.key?, hx, hκ]
      refine ⟨.float κ, rfl, hkey, ?_⟩
      simp only [Lua.Key.value, fetched, Value.keyBack, hx, hbits, ofBits_toBits]
  | text t =>
    obtain ⟨-, b, hb⟩ := h
    have hform : w.leafForm? state encoding (.text t) = some (.text t) := by
      cases encoding <;> first | exact absurd rfl he | rfl
    obtain rfl : y = .str b := by simpa [leaf?, hform, pushed?, hb, Except.toOption, eq_comm] using hy
    exact ⟨.str b, hy, rfl, hback⟩
  | _ => exact h.elim

theorem scalarEq_self {cs : Charset} (h : k.IsCovered cs) (hk : skipsKey k = false) : k.scalarEq k = true := by
  cases k with
  | float x => exact float_beq_self hk
  | none | bool | int | text => simp [Value.scalarEq, Value.int?]
  | _ => exact h.elim

theorem scalarEq_symm {cs : Charset} (hk : k.IsCovered cs) (hl : l.IsCovered cs) (h : k.scalarEq l = true) :
    l.scalarEq k = true := by
  cases k <;> cases l <;> first
    | exact hk.elim
    | exact hl.elim
    | exact float_beq_symm h
    | exact h
    | exact beq_iff_eq.mpr (beq_iff_eq.mp h).symm

/-- The key that comes back is equal to the key. -/
theorem scalarEq_keyBack {cs : Charset} (h : k.IsCovered cs) (hk : skipsKey k = false) :
    k.scalarEq k.keyBack = true := by
  cases k with
  | float x =>
    cases hx : Lua.exactInt? x with
    | some i => simp [Value.keyBack, hx, Value.scalarEq, Value.int?, Binary.isInt, exactInt?_eq_some hx]
    | none => simpa [Value.keyBack, hx] using scalarEq_self h hk
  | none | bool | int | text => exact scalarEq_self h hk
  | _ => exact h.elim

theorem isCovered_keyBack {cs : Charset} (h : k.IsCovered cs) : k.keyBack.IsCovered cs := by
  cases k with
  | float x =>
    cases hx : Lua.exactInt? x with
    | some i =>
      rw [Value.keyBack, hx]
      exact ⟨i.le_toInt, by have := i.toInt_lt; simp only [maxInt]; omega⟩
    | none => simp [Value.keyBack, hx, Value.IsCovered]
  | _ => exact h

/-- A key comes back as it is, or it is a float and comes back as the whole number in Lua's range that it is. -/
theorem keyBack_cases (k : Value) :
    k.keyBack = k ∧ (∀ x i, k = .float x → Binary.whole? x = some i → ¬(minInt ≤ i ∧ i ≤ maxInt)) ∨
      ∃ x i, k = .float x ∧ Binary.whole? x = some i ∧ (minInt ≤ i ∧ i ≤ maxInt) ∧ k.keyBack = .int i := by
  cases k with
  | float x =>
    cases hx : Lua.exactInt? x with
    | some i =>
      have hi : minInt ≤ i.toInt ∧ i.toInt ≤ maxInt :=
        ⟨i.le_toInt, by have := i.toInt_lt; simp only [maxInt]; omega⟩
      exact .inr ⟨x, i.toInt, rfl, exactInt?_eq_some hx, hi, by simp [Value.keyBack, hx]⟩
    | none =>
      refine .inl ⟨by simp [Value.keyBack, hx], ?_⟩
      rintro _ i ⟨⟩ hwhole hi
      have hlt : i < 2 ^ 63 := by
        have := hi.2
        simp only [maxInt] at this
        omega
      rw [Lua.exactInt?, hwhole] at hx
      simp only at hx
      rw [if_pos ⟨hi.1, hlt⟩] at hx
      contradiction
  | _ => exact .inl ⟨rfl, by simp⟩

theorem scalarEq_keyBack_self {cs : Charset} (h : k.IsCovered cs) (hk : skipsKey k = false) :
    k.keyBack.scalarEq k.keyBack = true := by
  rcases keyBack_cases k with ⟨hkb, _⟩ | ⟨_, i, _, _, _, hkb⟩ <;> rw [hkb]
  · exact scalarEq_self h hk
  · simp [Value.scalarEq, Value.int?]

/-- Keys that come back equal were equal. -/
theorem scalarEq_of_keyBack {cs : Charset} (hk : k.IsCovered cs) (hl : l.IsCovered cs)
    (h : k.keyBack.scalarEq l.keyBack = true) : k.scalarEq l = true := by
  rcases keyBack_cases k with ⟨hkb, hkw⟩ | ⟨x, i, rfl, hx, hi, hkb⟩ <;>
    rcases keyBack_cases l with ⟨hlb, hlw⟩ | ⟨y, j, rfl, hy, hj, hlb⟩ <;> rw [hkb, hlb] at h
  · exact h
  · cases k with
    | float x =>
      have hx : Binary.whole? x = some j := by simpa [Value.scalarEq, Value.int?, Binary.isInt] using h
      exact absurd hj (hkw x j rfl hx)
    | bool | int =>
      obtain rfl : _ = j := by simpa [Value.scalarEq, Value.int?] using h
      simpa [Value.scalarEq, Value.int?, Binary.isInt] using hy
    | none | text => simp [Value.scalarEq, Value.int?] at h
    | _ => exact hk.elim
  · cases l with
    | float y =>
      have hy : Binary.whole? y = some i := by simpa [Value.scalarEq, Value.int?, Binary.isInt] using h
      exact absurd hi (hlw y i rfl hy)
    | bool | int => simpa [Value.scalarEq, Value.int?, Binary.isInt, hx] using h
    | none | text => simp [Value.scalarEq, Value.int?] at h
    | _ => exact hl.elim
  · obtain rfl : i = j := by simpa [Value.scalarEq, Value.int?] using h
    exact float_beq_of_whole? hx hy

end World

end HostedLua
