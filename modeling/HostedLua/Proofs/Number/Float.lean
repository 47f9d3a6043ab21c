import HostedLua.Lua.Value
import Mathlib

/-! Floats as keys. A float is what its bits say: a sign, an exponent and a fraction. Two floats that are the
same whole number have the same bits, or are zeros of different signs; so they are equal. -/

namespace HostedLua

open Float.Model UnpackedFloat

/-! ### Bits -/

theorem toBitVec_ofBitVec (s : BitVec 1) : (Sign.ofBitVec s).toBitVec = s := by
  revert s; decide

theorem packComponents_unpack (b : BitVec Format.binary64.numBits) :
    packComponents Format.binary64 (Sign.ofBitVec (unpackSign b)) (unpackExponent b) (unpackMantissa b) = b := by
  rw [packComponents, toBitVec_ofBitVec]
  ext i hi
  simp only [unpackSign, unpackExponent, unpackMantissa, BitVec.extractLsb]
  grind

theorem log2_mantissa {m : Nat} (h : m < 2 ^ 52) : (2 ^ 52 + m).log2 = 52 := by
  rw [Nat.log2_eq_iff (by omega)]
  omega

theorem toNat_one_append (m : BitVec 52) : (1#1 ++ m).toNat = 2 ^ 52 + m.toNat := by
  have hor := Nat.two_pow_add_eq_or_of_lt m.isLt 1
  rw [BitVec.toNat_append, Nat.shiftLeft_eq, Nat.mul_comm, BitVec.toNat_one (by decide), ← hor, Nat.mul_one]

theorem log2_lt {m : Nat} (hpos : 0 < m) (h : m < 2 ^ 52) : m.log2 < 52 := by
  rwa [Nat.log2_lt (by omega)]

theorem pack_unpack {b : BitVec Format.binary64.numBits} (hb : Format.binary64.Valid b) :
    UnpackedFloat.pack Format.binary64 (UnpackedFloat.unpack Format.binary64 b) = b := by
  have hpack := packComponents_unpack b
  have hbias : Format.binary64.exponentBias = 1023 := rfl
  have hbits : Format.binary64.mantissaBits = 53 := rfl
  have hm : (unpackMantissa b).toNat < 2 ^ 52 := (unpackMantissa b).isLt
  rw [UnpackedFloat.unpack]
  split_ifs with hexp hman hexp₀ hman₀
  · rwa [hexp, hman] at hpack
  · exact (hb.eq_packedNaN hexp hman).symm
  · rwa [hexp₀, hman₀] at hpack
  · -- A subnormal number: its fraction is too small for the implicit bit.
    have hpos : 0 < (unpackMantissa b).toNat := Nat.pos_of_ne_zero fun h => hman₀ (BitVec.eq_of_toNat_eq h)
    have hlog := log2_lt hpos hm
    rw [UnpackedFloat.pack]
    simp only [hexp₀, hbias, hbits]
    rw [if_neg (by decide), if_neg (by omega), BitVec.ofNat_toNat, BitVec.setWidth_eq]
    rwa [hexp₀] at hpack
  · -- A normal number: the implicit bit stands above the fraction.
    have he : (unpackExponent b).toNat < 2 ^ 11 := (unpackExponent b).isLt
    have hne : (unpackExponent b).toNat ≠ 2 ^ 11 - 1 := fun h => hexp (BitVec.eq_of_toNat_eq h)
    have hbiased : (((unpackExponent b).toNat : Int) - ((1023 : Nat) + (52 : Nat)) + (1023 : Nat) +
      (52 : Nat)).toNat = (unpackExponent b).toNat := by omega
    rw [UnpackedFloat.pack]
    simp only [hbias, hbits, hbiased, toNat_one_append]
    rw [if_neg (by omega), if_pos (by rw [log2_mantissa hm]), BitVec.ofNat_toNat, BitVec.setWidth_eq]
    have hfraction : BitVec.ofNat 52 (2 ^ 52 + (unpackMantissa b).toNat) = unpackMantissa b := by
      apply BitVec.eq_of_toNat_eq
      rw [BitVec.toNat_ofNat, Nat.add_mod_left, Nat.mod_eq_of_lt hm]
    rwa [hfraction]

theorem ofBits_toBits (x : Float) : Float.ofBits x.toBits = x := by
  rcases x with ⟨⟨bits, hvalid⟩⟩
  simp only [Float.ofBits, Float.toBits, Float.Model.ofBits, Float.Model.pack]
  congr
  exact pack_unpack hvalid

/-! ### Whole numbers -/

namespace Binary

/-- A magnitude as floats have it: the exponent counts from the least one, and only there a mantissa may be small. -/
def Canonical (m k : Nat) : Prop := m < 2 ^ 53 ∧ (k = 0 ∨ 2 ^ 52 ≤ m)

theorem canonical_le {m n k l : Nat} (hm : Canonical m k) (hn : Canonical n l) (h : m * 2 ^ k = n * 2 ^ l) :
    l ≤ k := by
  by_contra hlt
  have hl : l = k + (l - k - 1) + 1 := by omega
  have hn' : 2 ^ 52 ≤ n := hn.2.resolve_left (by omega)
  rw [hl, Nat.pow_succ, Nat.pow_add, ← Nat.mul_assoc, ← Nat.mul_assoc] at h
  have hpos := Nat.two_pow_pos (l - k - 1)
  have h' : m = n * 2 ^ (l - k - 1) * 2 := by
    apply Nat.eq_of_mul_eq_mul_right (Nat.two_pow_pos k)
    rw [h]
    ring
  have : n ≤ n * 2 ^ (l - k - 1) := Nat.le_mul_of_pos_right n hpos
  have := hm.1
  omega

/-- The exponent and the mantissa of a magnitude are determined. -/
theorem canonical_unique {m n k l : Nat} (hm : Canonical m k) (hn : Canonical n l)
    (h : m * 2 ^ k = n * 2 ^ l) : m = n ∧ k = l := by
  obtain rfl : k = l := Nat.le_antisymm (canonical_le hn hm h.symm) (canonical_le hm hn h)
  exact ⟨Nat.eq_of_mul_eq_mul_right (Nat.two_pow_pos k) h, rfl⟩

theorem ratio_whole {m c : Nat} {e : Int} (he : -(c : Int) ≤ e) (h : (ratio m e).1 % (ratio m e).2 = 0) :
    (ratio m e).1 / (ratio m e).2 * 2 ^ c = m * 2 ^ (e + c).toNat := by
  rw [ratio] at h ⊢
  split_ifs at h ⊢ with hpos
  · have hexp : (e + c).toNat = e.toNat + c := by omega
    rw [hexp, Nat.div_one, Nat.pow_add, Nat.mul_assoc]
  · have hexp : c = (-e).toNat + (e + c).toNat := by omega
    have hdiv : m / 2 ^ (-e).toNat * 2 ^ (-e).toNat = m := Nat.div_mul_cancel (Nat.dvd_of_mod_eq_zero h)
    calc m / 2 ^ (-e).toNat * 2 ^ c
        = m / 2 ^ (-e).toNat * 2 ^ (-e).toNat * 2 ^ (e + c).toNat := by rw [Nat.mul_assoc, ← Nat.pow_add, ← hexp]
      _ = m * 2 ^ (e + c).toNat := by rw [hdiv]

/-- The sign, the exponent and the fraction of a float. -/
def negative (x : Float) : Nat := x.toBits.toNat / 2 ^ 63

def biased (x : Float) : Nat := x.toBits.toNat / 2 ^ 52 % 2 ^ 11

def fraction (x : Float) : Nat := x.toBits.toNat % 2 ^ 52

/-- The mantissa of a finite float, and its exponent from the least one on. -/
def mantissa (x : Float) : Nat := if biased x = 0 then fraction x else 2 ^ 52 + fraction x

def exponent (x : Float) : Nat := biased x - 1

theorem canonical (x : Float) : Canonical (mantissa x) (exponent x) := by
  have hf : fraction x < 2 ^ 52 := Nat.mod_lt _ (by decide)
  simp only [Canonical, mantissa, exponent]
  split_ifs with hb <;> omega

theorem fields_unique {x y : Float} (hm : mantissa x = mantissa y) (he : exponent x = exponent y) :
    biased x = biased y ∧ fraction x = fraction y := by
  have hx : fraction x < 2 ^ 52 := Nat.mod_lt _ (by decide)
  have hy : fraction y < 2 ^ 52 := Nat.mod_lt _ (by decide)
  simp only [mantissa, exponent] at hm he
  split_ifs at hm <;> omega

theorem bits_unique {x y : Float} (hn : negative x = negative y) (hb : biased x = biased y)
    (hf : fraction x = fraction y) : x.toBits = y.toBits := by
  have hx := x.toBits.toNat_lt
  have hy := y.toBits.toNat_lt
  apply UInt64.toNat_inj.mp
  simp only [negative, biased, fraction] at hn hb hf
  omega

theorem ofFloat_of_biased_eq {x : Float} (h : biased x = 2047) :
    ofFloat x = if fraction x = 0 then .infinite (negative x = 1) else .nan := by
  rw [biased] at h
  simp only [ofFloat, h, if_true]
  rfl

theorem ofFloat_of_biased_ne {x : Float} (h : biased x ≠ 2047) : ∃ lone,
    ofFloat x = .finite (negative x = 1) (mantissa x) ((exponent x : Int) - 1074) lone := by
  by_cases hb : biased x = 0
  · refine ⟨false, ?_⟩
    simp only [mantissa, exponent, hb, if_true]
    rw [biased] at hb
    simp only [ofFloat, hb]
    rfl
  · have hexp : ((biased x - 1 : Nat) : Int) - 1074 = (biased x : Int) - 1075 := by omega
    refine ⟨fraction x = 0 && 1 < biased x, ?_⟩
    simp only [mantissa, exponent, hb, if_false, hexp]
    rw [biased] at h hb
    simp only [ofFloat, h, hb, if_false]
    rfl

/-- What a float is that equals a whole number. -/
theorem whole?_eq_some {x : Float} {n : Int} (h : whole? x = some n) :
    biased x ≠ 2047 ∧ n.natAbs * 2 ^ 1074 = mantissa x * 2 ^ exponent x ∧
      (n < 0 → negative x = 1) ∧ (0 < n → negative x ≠ 1) := by
  have hb : biased x ≠ 2047 := by
    intro hb
    rw [whole?, ofFloat_of_biased_eq hb] at h
    split_ifs at h
  obtain ⟨lone, hx⟩ := ofFloat_of_biased_ne hb
  rw [whole?, hx] at h
  simp only at h
  have hratio := ratio_whole (m := mantissa x) (c := 1074) (e := (exponent x : Int) - 1074) (by omega)
  have hexp : ((exponent x : Int) - 1074 + (1074 : Nat)).toNat = exponent x := by omega
  rw [hexp] at hratio
  generalize ratio (mantissa x) ((exponent x : Int) - 1074) = r at h hratio
  split_ifs at h with hdvd hneg
  · obtain rfl := Option.some.inj h
    refine ⟨hb, ?_, fun _ => by simpa using hneg, fun _ => by omega⟩
    rw [← hratio hdvd, Int.natAbs_neg, Int.natAbs_natCast]
  · obtain rfl := Option.some.inj h
    refine ⟨hb, by rw [← hratio hdvd, Int.natAbs_natCast], fun _ => by omega, fun _ => by simpa using hneg⟩

/-- Two floats that are the same whole number have the same bits, or are zeros. -/
theorem bits_of_whole? {x y : Float} {n : Int} (hx : whole? x = some n) (hy : whole? y = some n) :
    x.toBits = y.toBits ∨ (∀ z, z = x ∨ z = y → z.toBits.toNat % 2 ^ 63 = 0) := by
  obtain ⟨_, hmx, hneg, hpos⟩ := whole?_eq_some hx
  obtain ⟨_, hmy, hneg', hpos'⟩ := whole?_eq_some hy
  obtain ⟨hm, he⟩ := canonical_unique (canonical x) (canonical y) (hmx.symm.trans hmy)
  obtain ⟨hb, hf⟩ := fields_unique hm he
  have hsign : ∀ z : Float, negative z < 2 := fun z => by
    have := z.toBits.toNat_lt
    rw [negative]
    omega
  by_cases hn : n = 0
  · right
    have hzero : mantissa x = 0 := by
      rw [hn, Int.natAbs_zero, Nat.zero_mul] at hmx
      exact (Nat.mul_eq_zero.mp hmx.symm).resolve_right (Nat.two_pow_pos _).ne'
    have hall : ∀ z : Float, mantissa z = 0 → z.toBits.toNat % 2 ^ 63 = 0 := by
      intro z hz
      rw [mantissa] at hz
      split_ifs at hz with hb
      · rw [biased] at hb
        rw [fraction] at hz
        generalize z.toBits.toNat = b at hb hz
        omega
      · omega
    rintro z (rfl | rfl)
    · exact hall _ hzero
    · exact hall _ (hm ▸ hzero)
  · left
    have := hsign x
    have := hsign y
    refine bits_unique ?_ hb hf
    rcases Int.lt_or_gt_of_ne hn with h | h
    · rw [hneg h, hneg' h]
    · have := hpos h
      have := hpos' h
      omega

end Binary

/-! ### Equality -/

theorem compare_self (u : UnpackedFloat) (h : u.isNaN = false) : u.compare u = some .eq := by
  cases u with
  | notANumber => simp [UnpackedFloat.isNaN] at h
  | infinity s => cases s <;> rfl
  | zero s => cases s <;> rfl
  | finite s m e hm => cases s <;> simp [UnpackedFloat.compare, Ordering.then, Ordering.swap]

theorem compare_symm {u v : UnpackedFloat} (h : u.compare v = some .eq) : v.compare u = some .eq := by
  have hthen (a b : Ordering) : a.then b = .eq ↔ a = .eq ∧ b = .eq := by
    cases a <;> cases b <;> simp [Ordering.then]
  rcases u with (_ | _) | _ | _ | ⟨_ | _, m, e, hm⟩ <;> rcases v with (_ | _) | _ | _ | ⟨_ | _, n, f, hn⟩ <;>
    simp only [UnpackedFloat.compare, Option.some.injEq, reduceCtorEq, Ordering.swap_eq_eq, hthen,
      Std.LawfulEqCmp.compare_eq_iff_eq] at h ⊢
  · exact h
  · exact h
  · exact ⟨h.1.symm, h.2.symm⟩
  · exact ⟨h.1.symm, h.2.symm⟩

theorem float_beq_iff {x y : Float} : (x == y) = true ↔ x.toModel.unpack.compare y.toModel.unpack = some .eq := by
  show (x.toModel.unpack.compare y.toModel.unpack == some .eq) = true ↔ _
  rw [beq_iff_eq]

/-- A float is equal to itself unless it is not a number. -/
theorem float_beq_self {x : Float} (h : x.isNaN = false) : (x == x) = true :=
  float_beq_iff.mpr (compare_self _ h)

theorem float_beq_symm {x y : Float} (h : (x == y) = true) : (y == x) = true :=
  float_beq_iff.mpr (compare_symm (float_beq_iff.mp h))

/-- Equal values are the same, or zeros of different signs. -/
theorem eq_of_compare {u v : UnpackedFloat} (h : u.compare v = some .eq) :
    u = v ∨ ∃ s t, u = .zero s ∧ v = .zero t := by
  have hthen (a b : Ordering) : a.then b = .eq ↔ a = .eq ∧ b = .eq := by
    cases a <;> cases b <;> simp [Ordering.then]
  rcases u with (_ | _) | _ | s | ⟨_ | _, m, e, hm⟩ <;> rcases v with (_ | _) | _ | t | ⟨_ | _, n, f, hn⟩ <;>
    simp only [UnpackedFloat.compare, Option.some.injEq, reduceCtorEq, Ordering.swap_eq_eq, hthen,
      Std.LawfulEqCmp.compare_eq_iff_eq] at h
  · exact .inl rfl
  · exact .inl rfl
  · exact .inr ⟨s, t, rfl, rfl⟩
  · obtain ⟨rfl, rfl⟩ := h
    exact .inl rfl
  · obtain ⟨rfl, rfl⟩ := h
    exact .inl rfl

theorem toBitVec_eq_pack (x : Float) : x.toBits.toBitVec = UnpackedFloat.pack Format.binary64 x.toModel.unpack := by
  rcases x with ⟨⟨bits, hvalid⟩⟩
  exact (pack_unpack hvalid).symm

theorem float_eq_of_unpack {x y : Float} (h : x.toModel.unpack = y.toModel.unpack) : x = y := by
  have hbits : x.toBits = y.toBits :=
    UInt64.toBitVec_inj.mp ((toBitVec_eq_pack x).trans (h ▸ (toBitVec_eq_pack y).symm))
  rw [← ofBits_toBits x, hbits, ofBits_toBits]

theorem whole?_of_zero {x : Float} {s : Sign} (h : x.toModel.unpack = .zero s) : Binary.whole? x = some 0 := by
  have hbits := toBitVec_eq_pack x
  rw [h] at hbits
  rw [← ofBits_toBits x]
  cases s with
  | positive =>
    obtain hx : x.toBits = 0 := UInt64.toBitVec_inj.mp hbits
    rw [hx]
    decide +kernel
  | negative =>
    obtain hx : x.toBits = 0x8000000000000000 := UInt64.toBitVec_inj.mp hbits
    rw [hx]
    decide +kernel

/-- Floats that are equal are the same, or zeros. -/
theorem eq_of_float_beq {x y : Float} (h : (x == y) = true) : x = y ∨ Binary.whole? x = some 0 := by
  rcases eq_of_compare (float_beq_iff.mp h) with heq | ⟨s, t, hx, -⟩
  · exact .inl (float_eq_of_unpack heq)
  · exact .inr (whole?_of_zero hx)

theorem isNaN_of_biased {x : Float} (h : Binary.biased x ≠ 2047) : x.isNaN = false := by
  show (UnpackedFloat.unpack Format.binary64 x.toBits.toBitVec).isNaN = false
  rw [UnpackedFloat.unpack]
  split_ifs with hexp
  · rfl
  · have hnat := congrArg BitVec.toNat hexp
    rw [unpackExponent, BitVec.toNat_cast, BitVec.extractLsb_toNat, Nat.shiftRight_eq_div_pow] at hnat
    exact absurd hnat h
  · rfl
  · rfl
  · rfl

theorem unpack_zero {x : Float} (h : x.toBits.toNat % 2 ^ 63 = 0) : ∃ s, x.toModel.unpack = .zero s := by
  have hlt := x.toBits.toNat_lt
  show ∃ s, UnpackedFloat.unpack Format.binary64 x.toBits.toBitVec = .zero s
  have hbits : x.toBits = 0 ∨ x.toBits = 0x8000000000000000 := by
    rw [← UInt64.toNat_inj, ← UInt64.toNat_inj]
    have h0 : (0 : UInt64).toNat = 0 := rfl
    have h63 : (0x8000000000000000 : UInt64).toNat = 2 ^ 63 := by decide
    omega
  rcases hbits with hbits | hbits <;> rw [hbits]
  · exact ⟨.positive, rfl⟩
  · exact ⟨.negative, rfl⟩

/-- Floats that are the same whole number are equal. -/
theorem float_beq_of_whole? {x y : Float} {n : Int} (hx : Binary.whole? x = some n)
    (hy : Binary.whole? y = some n) : (x == y) = true := by
  rcases Binary.bits_of_whole? hx hy with hbits | hzero
  · obtain rfl : x = y := by rw [← ofBits_toBits x, hbits, ofBits_toBits]
    exact float_beq_self (isNaN_of_biased (Binary.whole?_eq_some hx).1)
  · obtain ⟨s, hs⟩ := unpack_zero (hzero x (.inl rfl))
    obtain ⟨t, ht⟩ := unpack_zero (hzero y (.inr rfl))
    rw [float_beq_iff, hs, ht]
    rfl

/-! ### Keys -/

namespace Lua.FloatKey

theorem ofFloat?_some {x : Float} (hx : exactInt? x = none) (hnan : x.isNaN = false) :
    ∃ k, ofFloat? x = some k ∧ k.bits = x.toBits := by
  have hback : Float.ofBits x.toBits = x := ofBits_toBits x
  refine ⟨⟨x.toBits, by rw [hback], by rwa [hback], by rwa [hback]⟩, ?_, rfl⟩
  rw [ofFloat?, dif_pos ⟨by rw [hback], by rwa [hback], by rwa [hback]⟩]

/-- No whole number in Lua's range is equal to a float that is a key of its own. -/
theorem whole?_ne (k : FloatKey) (i : Int64) : Binary.whole? (Float.ofBits k.bits) ≠ some i.toInt := by
  intro h
  have hnone := k.exactInt?_ofBits
  have hlt := i.toInt_lt
  rw [exactInt?, h] at hnone
  dsimp only at hnone
  rw [if_pos ⟨i.le_toInt, by omega⟩] at hnone
  contradiction

theorem eq_of_beq {k l : FloatKey} (h : (Float.ofBits k.bits == Float.ofBits l.bits) = true) : k = l := by
  rcases eq_of_float_beq h with heq | hzero
  · have hbits : k.bits = l.bits := by rw [← k.toBits_ofBits, heq, l.toBits_ofBits]
    obtain ⟨bits, _, _, _⟩ := k
    obtain ⟨bits', _, _, _⟩ := l
    obtain rfl : bits = bits' := hbits
    rfl
  · exact absurd hzero (k.whole?_ne 0)

end Lua.FloatKey

end HostedLua
