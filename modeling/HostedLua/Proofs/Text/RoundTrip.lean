import HostedLua.Text.Charset
import Mathlib.Tactic.ByContra
import Mathlib.Tactic.SplitIfs

/-! Reading after writing and writing after reading. A well-formed sequence is the unit of the code point it
is read as, and each single-byte set reads a byte as what it writes as that byte; escapes are code points
that no set has. So writing what was read restores every byte string, and clean text that a set can write
reads back. -/

namespace HostedLua

theorem CodePoint.val_ofNat {n : Nat} (h : n < 0x110000) : (CodePoint.ofNat n).val = n :=
  Nat.mod_eq_of_lt h

theorem CodePoint.ofNat_val (c : CodePoint) : CodePoint.ofNat c.val = c :=
  Fin.ext (CodePoint.val_ofNat c.isLt)

namespace Utf8

theorem ofNat_eq {n : Nat} {a : UInt8} (h : n = a.toNat) : UInt8.ofNat n = a := by
  rw [h, UInt8.ofNat_toNat]

theorem isTail_iff {b : UInt8} : isTail b = true ↔ 0x80 ≤ b.toNat ∧ b.toNat ≤ 0xBF := by
  simp [isTail, UInt8.le_iff_toNat_le]

/-- The second byte after a lead byte, in numbers. -/
theorem secondOk_iff {a b : UInt8} :
    secondOk a b = true ↔ 0x80 ≤ b.toNat ∧ b.toNat ≤ 0xBF ∧ (a.toNat = 0xE0 → 0xA0 ≤ b.toNat) ∧
      (a.toNat = 0xED → b.toNat ≤ 0x9F) ∧ (a.toNat = 0xF0 → 0x90 ≤ b.toNat) ∧
      (a.toNat = 0xF4 → b.toNat ≤ 0x8F) := by
  simp only [secondOk, Bool.and_eq_true, isTail_iff, ← UInt8.toNat_inj, and_assoc]
  split_ifs <;> simp_all [UInt8.le_iff_toNat_le]

theorem unit_one {n : Nat} (h : n < 0x80) : unit (.ofNat n) = [.ofNat n] := by
  simp [unit, CodePoint.val_ofNat (show n < 0x110000 by omega), h]

theorem unit_two {n : Nat} (h : 0x80 ≤ n) (h' : n < 0x800) :
    unit (.ofNat n) = [.ofNat (0xC0 + n / 64), .ofNat (0x80 + n % 64)] := by
  rw [unit, CodePoint.val_ofNat (by omega)]
  simp only [if_neg (show ¬ n < 0x80 by omega), if_pos h']

theorem unit_three {n : Nat} (h : 0x800 ≤ n) (h' : n < 0x10000) :
    unit (.ofNat n) = [.ofNat (0xE0 + n / 4096), .ofNat (0x80 + n / 64 % 64), .ofNat (0x80 + n % 64)] := by
  rw [unit, CodePoint.val_ofNat (by omega)]
  simp only [if_neg (show ¬ n < 0x80 by omega), if_neg (show ¬ n < 0x800 by omega), if_pos h']

theorem unit_four {n : Nat} (h : 0x10000 ≤ n) (h' : n < 0x110000) :
    unit (.ofNat n) = [.ofNat (0xF0 + n / 262144), .ofNat (0x80 + n / 4096 % 64),
      .ofNat (0x80 + n / 64 % 64), .ofNat (0x80 + n % 64)] := by
  rw [unit, CodePoint.val_ofNat h']
  simp only [if_neg (show ¬ n < 0x80 by omega), if_neg (show ¬ n < 0x800 by omega),
    if_neg (show ¬ n < 0x10000 by omega)]

theorem isSurrogate_ofNat {n : Nat} (h : n < 0x110000) :
    (CodePoint.ofNat n).isSurrogate = (decide (0xD800 ≤ n) && decide (n ≤ 0xDFFF)) := by
  rw [CodePoint.isSurrogate, CodePoint.val_ofNat h]

/-- A sequence is the unit of the code point read from it, which is no surrogate. -/
theorem unit_of_scalar? {bs rest : Bytes} {c : CodePoint} (h : scalar? bs = some (c, rest)) :
    unit c ++ rest = bs ∧ c.isSurrogate = false := by
  rcases bs with _ | ⟨a, tail⟩
  · simp [scalar?] at h
  · have ha := a.toNat_lt
    unfold scalar? at h
    simp only [UInt8.lt_iff_toNat_lt, UInt8.le_iff_toNat_le, Bool.and_eq_true, decide_eq_true_eq,
      UInt8.reduceToNat] at h
    split_ifs at h with h1 h2 h3 h4
    · obtain ⟨rfl, rfl⟩ := by simpa using h
      rw [unit_one h1, isSurrogate_ofNat (by omega), ofNat_eq rfl]
      simp; omega
    · rcases tail with _ | ⟨b, tail⟩
      · simp at h
      · simp only [Option.ite_none_right_eq_some, Option.some.injEq, Prod.mk.injEq, isTail_iff] at h
        obtain ⟨hb, rfl, rfl⟩ := h
        simp only [payload]
        rw [unit_two (by omega) (by omega), isSurrogate_ofNat (by omega), ofNat_eq (a := a) (by omega),
          ofNat_eq (a := b) (by omega)]
        simp; omega
    · rcases tail with _ | ⟨b, _ | ⟨c, tail⟩⟩
      · simp at h
      · simp at h
      · simp only [Option.ite_none_right_eq_some, Option.some.injEq, Prod.mk.injEq, secondOk_iff,
          isTail_iff] at h
        obtain ⟨⟨hb, hc⟩, rfl, rfl⟩ := h
        simp only [payload]
        rw [unit_three (by omega) (by omega), isSurrogate_ofNat (by omega), ofNat_eq (a := a) (by omega),
          ofNat_eq (a := b) (by omega), ofNat_eq (a := c) (by omega)]
        simp; omega
    · rcases tail with _ | ⟨b, _ | ⟨c, _ | ⟨d, tail⟩⟩⟩
      · simp at h
      · simp at h
      · simp at h
      · simp only [Option.ite_none_right_eq_some, Option.some.injEq, Prod.mk.injEq, secondOk_iff,
          isTail_iff] at h
        obtain ⟨⟨⟨hb, hc⟩, hd⟩, rfl, rfl⟩ := h
        simp only [payload]
        rw [unit_four (by omega) (by omega), isSurrogate_ofNat (by omega), ofNat_eq (a := a) (by omega),
          ofNat_eq (a := b) (by omega), ofNat_eq (a := c) (by omega), ofNat_eq (a := d) (by omega)]
        simp; omega

theorem decodeEscaped_nil : decodeEscaped [] = [] := by simp [decodeEscaped]

theorem decodeEscaped_of_scalar? {bs rest : Bytes} {c : CodePoint} (h : scalar? bs = some (c, rest)) :
    decodeEscaped bs = c :: decodeEscaped rest := by
  cases bs with
  | nil => simp [scalar?] at h
  | cons a tail =>
    rw [decodeEscaped]
    split <;> simp_all

theorem toNat_ofNat {n : Nat} (h : n < 256) : (UInt8.ofNat n).toNat = n := by
  rw [UInt8.toNat_ofNat', Nat.mod_eq_of_lt h]

/-- A byte of a sequence is the code point itself, or beyond ASCII. -/
theorem mem_unit {b : UInt8} {c : CodePoint} (h : b ∈ unit c) : b.toNat = c.val ∨ 0x80 ≤ b.toNat := by
  have hc := c.isLt
  have high {n : Nat} (hn : 0x80 ≤ n) (hn' : n < 0x100) : 0x80 ≤ (UInt8.ofNat n).toNat := by
    rwa [toNat_ofNat hn']
  unfold unit at h
  dsimp only at h
  split_ifs at h with h1 h2 h3 <;> simp only [List.mem_cons, List.not_mem_nil, or_false] at h
  · exact .inl (h ▸ toNat_ofNat (by omega))
  · rcases h with rfl | rfl <;> exact .inr (high (by omega) (by omega))
  · rcases h with rfl | rfl | rfl <;> exact .inr (high (by omega) (by omega))
  · rcases h with rfl | rfl | rfl | rfl <;> exact .inr (high (by omega) (by omega))

/-- Reading a unit gives the code point back. -/
theorem scalar?_unit {c : CodePoint} (hc : c.isSurrogate = false) (rest : Bytes) :
    scalar? (unit c ++ rest) = some (c, rest) := by
  obtain ⟨n, hn, rfl⟩ : ∃ n, n < 0x110000 ∧ c = .ofNat n := ⟨c.val, c.isLt, c.ofNat_val.symm⟩
  rw [isSurrogate_ofNat hn] at hc
  have hs : ¬ (0xD800 ≤ n ∧ n ≤ 0xDFFF) := by simpa using hc
  by_cases h1 : n < 0x80
  · rw [unit_one h1]
    simp only [List.cons_append, List.nil_append, scalar?, UInt8.lt_iff_toNat_lt, UInt8.reduceToNat,
      toNat_ofNat (show n < 256 by omega), if_pos h1]
  · by_cases h2 : n < 0x800
    · rw [unit_two (by omega) h2]
      simp only [List.cons_append, List.nil_append, scalar?, UInt8.lt_iff_toNat_lt, UInt8.le_iff_toNat_le,
        UInt8.reduceToNat, Bool.and_eq_true, decide_eq_true_eq, isTail_iff, payload,
        toNat_ofNat (show 0xC0 + n / 64 < 256 by omega), toNat_ofNat (show 0x80 + n % 64 < 256 by omega)]
      rw [if_neg (by omega), if_pos (by omega), if_pos (by omega)]
      congr 3; omega
    · by_cases h3 : n < 0x10000
      · rw [unit_three (by omega) h3]
        simp only [List.cons_append, List.nil_append, scalar?, UInt8.lt_iff_toNat_lt, UInt8.le_iff_toNat_le,
          UInt8.reduceToNat, Bool.and_eq_true, decide_eq_true_eq, isTail_iff, secondOk_iff, payload,
          toNat_ofNat (show 0xE0 + n / 4096 < 256 by omega),
          toNat_ofNat (show 0x80 + n / 64 % 64 < 256 by omega), toNat_ofNat (show 0x80 + n % 64 < 256 by omega)]
        rw [if_neg (by omega), if_neg (by omega), if_pos (by omega), if_pos (by omega)]
        congr 3; omega
      · rw [unit_four (by omega) hn]
        simp only [List.cons_append, List.nil_append, scalar?, UInt8.lt_iff_toNat_lt, UInt8.le_iff_toNat_le,
          UInt8.reduceToNat, Bool.and_eq_true, decide_eq_true_eq, isTail_iff, secondOk_iff, payload,
          toNat_ofNat (show 0xF0 + n / 262144 < 256 by omega),
          toNat_ofNat (show 0x80 + n / 4096 % 64 < 256 by omega),
          toNat_ofNat (show 0x80 + n / 64 % 64 < 256 by omega), toNat_ofNat (show 0x80 + n % 64 < 256 by omega)]
        rw [if_neg (by omega), if_neg (by omega), if_neg (by omega), if_pos (by omega), if_pos (by omega)]
        congr 3; omega

/-- A byte below 0x80 always starts a sequence. -/
theorem le_of_scalar?_none {a : UInt8} {rest : Bytes} (h : scalar? (a :: rest) = none) : 0x80 ≤ a.toNat := by
  by_contra hlt
  have : a < 0x80 := by rw [UInt8.lt_iff_toNat_lt]; simpa using hlt
  simp [scalar?, this] at h

theorem isSurrogate_escape {a : UInt8} : (escape a).isSurrogate = true := by
  have := a.toNat_lt
  rw [escape, isSurrogate_ofNat (by omega)]
  simp; omega

theorem escaped?_escape {a : UInt8} (h : 0x80 ≤ a.toNat) : escaped? (escape a) = some a := by
  have := a.toNat_lt
  rw [escaped?, escape, CodePoint.val_ofNat (by omega)]
  simp; omega

end Utf8

namespace Charset

/-- A code point that a set cannot write, unless it is an escape, is an error. -/
theorem encodeFrom_cons_of_bytes? {cs : Charset} {c : CodePoint} {b : Bytes} (h : cs.bytes? c = some b)
    (pos : Nat) (held : List CodePoint) (t : Text) :
    cs.encodeFrom pos held (c :: t) = (b ++ ·) <$> cs.encodeFrom (pos + 1) [] t := by
  rw [encodeFrom, h]
  cases cs.encodeFrom (pos + 1) [] t <;> rfl

theorem encodeFrom_cons_of_escaped? {cs : Charset} {c : CodePoint} {x : UInt8} (h : cs.bytes? c = none)
    (hx : Utf8.escaped? c = some x) (pos : Nat) (held : List CodePoint) (t : Text) :
    cs.encodeFrom pos held (c :: t) = (x :: ·) <$> cs.encodeFrom (pos + 1) (held ++ [c]) t := by
  rw [encodeFrom, h]
  simp only [hx]
  cases cs.encodeFrom (pos + 1) (held ++ [c]) t <;> rfl

theorem encodeFrom_decodeEscaped_utf8 (bs : Bytes) (pos : Nat) (held : List CodePoint) :
    Charset.utf8.encodeFrom pos held (Utf8.decodeEscaped bs) = .ok bs := by
  fun_induction Utf8.decodeEscaped bs generalizing pos held with
  | case1 => rfl
  | case2 a rest c tail h ih =>
    obtain ⟨hu, hc⟩ := Utf8.unit_of_scalar? h
    rw [encodeFrom_cons_of_bytes? (b := Utf8.unit c) (by simp [bytes?, hc]), ih]
    exact congrArg Except.ok hu
  | case3 a rest h ih =>
    rw [encodeFrom_cons_of_escaped? (x := a) (by simp [bytes?, Utf8.isSurrogate_escape])
      (Utf8.escaped?_escape (Utf8.le_of_scalar?_none h)), ih]
    rfl

/-- The upper part of code page 1252 lies beyond Latin-1 and names each code point once. -/
theorem cp1252High_idxOf? : ∀ i < 32, cp1252High.getD i 0 ≠ 0 →
    0x100 ≤ cp1252High.getD i 0 ∧ cp1252High.getD i 0 < 0x110000 ∧
      cp1252High.idxOf? (cp1252High.getD i 0) = some i := by
  decide

theorem cp1252High_getD {n i : Nat} (h : cp1252High.idxOf? n = some i) :
    i < 32 ∧ cp1252High.getD i 0 = n := by
  obtain ⟨hi, he⟩ := List.findIdx?_eq_some_iff_getElem.mp h
  exact ⟨hi, by simpa [List.getD_eq_getElem?_getD, List.getElem?_eq_getElem hi] using he.1⟩

/-- What a single-byte set reads as a code point it writes as that byte. -/
theorem bytes?_of_char? {cs : Charset} (hcs : cs ≠ .utf8) {b : UInt8} {c : CodePoint}
    (h : cs.char? b = some c) : cs.bytes? c = some [b] := by
  have hb := b.toNat_lt
  have hval := CodePoint.val_ofNat (show b.toNat < 0x110000 by omega)
  have hback : UInt8.ofNat b.toNat = b := Utf8.ofNat_eq rfl
  simp only [char?, UInt8.lt_iff_toNat_lt, UInt8.reduceToNat] at h
  by_cases h1 : b.toNat < 0x80
  · rw [if_pos h1] at h
    obtain rfl := Option.some.inj h
    cases cs <;> simp_all [bytes?]
  · rw [if_neg h1] at h
    cases cs with
    | utf8 => contradiction
    | ascii => simp at h
    | latin1 =>
      obtain rfl := Option.some.inj h
      simp [bytes?, hval, hback]; omega
    | cp1252 =>
      simp only at h
      by_cases h2 : b.toNat < 0xA0
      · rw [if_pos h2] at h
        split at h
        · simp at h
        · next hne =>
          obtain ⟨hlo, hhi, hidx⟩ := cp1252High_idxOf? (b.toNat - 0x80) (by omega) hne
          obtain rfl := Option.some.inj h
          have hout : ¬ (cp1252High.getD (b.toNat - 0x80) 0 < 0x80 ∨
            0xA0 ≤ cp1252High.getD (b.toNat - 0x80) 0 ∧ cp1252High.getD (b.toNat - 0x80) 0 < 0x100) := by omega
          simp only [bytes?, CodePoint.val_ofNat hhi, Bool.or_eq_true, Bool.and_eq_true, decide_eq_true_eq,
            if_neg hout, hidx, if_neg hne]
          rw [Utf8.ofNat_eq (a := b) (by omega)]
      · rw [if_neg h2] at h
        obtain rfl := Option.some.inj h
        simp [bytes?, hval, hback]; omega

/-- What a single-byte set writes as a byte it reads back. -/
theorem char?_of_bytes? {cs : Charset} (hcs : cs ≠ .utf8) {c : CodePoint} {bs : Bytes}
    (h : cs.bytes? c = some bs) : ∃ b, bs = [b] ∧ cs.char? b = some c := by
  have hval (hc : c.val < 256) : (UInt8.ofNat c.val).toNat = c.val := Utf8.toNat_ofNat hc
  cases cs with
  | utf8 => contradiction
  | ascii =>
    simp only [bytes?, Option.ite_none_right_eq_some, Option.some.injEq] at h
    refine ⟨_, h.2.symm, ?_⟩
    simp only [char?, UInt8.lt_iff_toNat_lt, UInt8.reduceToNat, hval (by omega), c.ofNat_val, if_pos h.1]
  | latin1 =>
    simp only [bytes?, Option.ite_none_right_eq_some, Option.some.injEq] at h
    refine ⟨_, h.2.symm, ?_⟩
    simp [char?, hval h.1, c.ofNat_val]
  | cp1252 =>
    simp only [bytes?, Bool.or_eq_true, Bool.and_eq_true, decide_eq_true_eq] at h
    by_cases h1 : c.val < 0x80 ∨ 0xA0 ≤ c.val ∧ c.val < 0x100
    · rw [if_pos h1] at h
      have hlt : c.val < 256 := by omega
      refine ⟨_, (Option.some.inj h).symm, ?_⟩
      simp only [char?, UInt8.lt_iff_toNat_lt, UInt8.reduceToNat, hval hlt, c.ofNat_val]
      split_ifs with h2 h3
      · rfl
      · omega
      · rfl
    · rw [if_neg h1] at h
      split at h
      · next i hi =>
        obtain ⟨h2, h⟩ := Option.ite_none_left_eq_some.mp h
        obtain ⟨hlt, hget⟩ := cp1252High_getD hi
        refine ⟨_, (Option.some.inj h).symm, ?_⟩
        simp only [char?, UInt8.lt_iff_toNat_lt, UInt8.reduceToNat,
          Utf8.toNat_ofNat (show 0x80 + i < 256 by omega), Nat.add_sub_cancel_left, hget]
        rw [if_neg (by omega), if_pos (by omega), c.ofNat_val]
      · simp at h

/-- Escapes are code points that no set has. -/
theorem bytes?_escape {cs : Charset} {b : UInt8} (h : 0x80 ≤ b.toNat) : cs.bytes? (Utf8.escape b) = none := by
  have hb := b.toNat_lt
  have hval : (Utf8.escape b).val = 0xDC00 + b.toNat := CodePoint.val_ofNat (by omega)
  cases cs with
  | utf8 => simp [bytes?, Utf8.isSurrogate_escape]
  | ascii => simp [bytes?, hval]; omega
  | latin1 => simp [bytes?, hval]; omega
  | cp1252 =>
    have hno : cp1252High.idxOf? (0xDC00 + b.toNat) = none := by
      rw [List.idxOf?_eq_none_iff]
      have : ∀ n ∈ cp1252High, n < 0xDC00 := by decide
      intro hm
      have := this _ hm
      omega
    simp [bytes?, hval, hno]; omega

theorem le_of_char?_none {cs : Charset} {b : UInt8} (h : cs.char? b = none) : 0x80 ≤ b.toNat := by
  by_contra hlt
  have : b < 0x80 := by rw [UInt8.lt_iff_toNat_lt]; simpa using hlt
  simp [char?, this] at h

theorem encodeFrom_map {cs : Charset} (hcs : cs ≠ .utf8) (bs : Bytes) (pos : Nat) (held : List CodePoint) :
    cs.encodeFrom pos held (bs.map fun b => (cs.char? b).getD (Utf8.escape b)) = .ok bs := by
  induction bs generalizing pos held with
  | nil => rfl
  | cons b bs ih =>
    rw [List.map_cons]
    cases h : cs.char? b with
    | some c => rw [Option.getD_some, encodeFrom_cons_of_bytes? (bytes?_of_char? hcs h), ih]; rfl
    | none =>
      have hb := le_of_char?_none h
      rw [Option.getD_none, encodeFrom_cons_of_escaped? (bytes?_escape hb) (Utf8.escaped?_escape hb), ih]
      rfl

/-- Writing what was read restores every byte string. -/
theorem encodeEscaped_decodeEscaped (cs : Charset) (bs : Bytes) :
    cs.encodeEscaped (cs.decodeEscaped bs) = .ok bs := by
  cases cs with
  | utf8 => exact encodeFrom_decodeEscaped_utf8 bs 0 []
  | ascii | latin1 | cp1252 => exact encodeFrom_map (by decide) bs 0 []

theorem decodeEscaped_cons {cs : Charset} {c : CodePoint} {b : Bytes} (h : cs.bytes? c = some b)
    (rest : Bytes) : cs.decodeEscaped (b ++ rest) = c :: cs.decodeEscaped rest := by
  cases cs with
  | utf8 =>
    obtain ⟨hc, rfl⟩ : c.isSurrogate = false ∧ Utf8.unit c = b := by simpa [bytes?] using h
    exact Utf8.decodeEscaped_of_scalar? (Utf8.scalar?_unit hc rest)
  | ascii | latin1 | cp1252 =>
    obtain ⟨x, rfl, hx⟩ := char?_of_bytes? (by decide) h
    simp [decodeEscaped, hx]

/-- Every set writes the code points of ASCII as bytes of the same numbers. -/
theorem bytes?_ascii (cs : Charset) {x : UInt8} (hx : x < 0x80) : cs.bytes? (.ofNat x.toNat) = some [x] := by
  have hlt : x.toNat < 0x80 := hx
  have hval : (CodePoint.ofNat x.toNat).val = x.toNat := CodePoint.val_ofNat (by omega)
  cases cs with
  | utf8 =>
    have hclean : (CodePoint.ofNat x.toNat).isSurrogate = false := by
      simp only [CodePoint.isSurrogate, hval, Bool.and_eq_false_iff, decide_eq_false_iff_not]
      omega
    simp only [bytes?, hclean, Utf8.unit_one hlt, UInt8.ofNat_toNat]
    rfl
  | ascii | latin1 | cp1252 => exact bytes?_of_char? (by decide) (by simp only [char?, if_pos hx])

theorem decodeEscaped_nil (cs : Charset) : cs.decodeEscaped [] = [] := by
  cases cs <;> simp [decodeEscaped, Utf8.decodeEscaped_nil]

/-- Every set reads ASCII as the code points of the same numbers, whatever follows. -/
theorem decodeEscaped_ascii_append (cs : Charset) {b : Bytes} (hb : ∀ x ∈ b, x < 0x80) (rest : Bytes) :
    cs.decodeEscaped (b ++ rest) = b.widen ++ cs.decodeEscaped rest := by
  induction b with
  | nil => rfl
  | cons x b ih =>
    obtain ⟨hx, hb⟩ := List.forall_mem_cons.mp hb
    exact (decodeEscaped_cons (cs.bytes?_ascii hx) (b ++ rest)).trans (congrArg _ (ih hb))

/-- Whether a text can be written does not depend on where it stands. -/
theorem encodeFrom_anywhere {cs : Charset} {t : Text} {b : Bytes} {pos : Nat} {held : List CodePoint}
    (h : cs.encodeFrom pos held t = .ok b) (pos' : Nat) (held' : List CodePoint) : cs.encodeFrom pos' held' t = .ok b := by
  induction t generalizing b pos held pos' held' with
  | nil => exact h
  | cons c t ih =>
    cases hb : cs.bytes? c with
    | some bs =>
      rw [encodeFrom_cons_of_bytes? hb] at h ⊢
      cases hr : cs.encodeFrom (pos + 1) [] t with
      | error e =>
        rw [hr] at h
        cases h
      | ok rest =>
        rw [ih hr]
        rwa [hr] at h
    | none =>
      cases hx : Utf8.escaped? c with
      | some x =>
        rw [encodeFrom_cons_of_escaped? hb hx] at h ⊢
        cases hr : cs.encodeFrom (pos + 1) (held ++ [c]) t with
        | error e =>
          rw [hr] at h
          cases h
        | ok rest =>
          rw [ih hr]
          rwa [hr] at h
      | none =>
        rw [encodeFrom, hb] at h
        dsimp only at h
        rw [hx] at h
        cases cs <;> cases h

/-- ASCII in front of a text does not matter to whether it can be written. -/
theorem encodeEscaped_ascii_append {cs : Charset} {a b : Bytes} {t : Text} (ha : ∀ x ∈ a, x < 0x80)
    (h : cs.encodeEscaped t = .ok b) :
    cs.encodeEscaped (a.widen ++ t) = .ok (a ++ b) := by
  have hfrom (pos : Nat) (held : List CodePoint) : cs.encodeFrom pos held (a.widen ++ t) = .ok (a ++ b) := by
    induction a generalizing pos held with
    | nil => exact encodeFrom_anywhere h pos held
    | cons x a ih =>
      obtain ⟨hx, ha⟩ := List.forall_mem_cons.mp ha
      refine (encodeFrom_cons_of_bytes? (cs.bytes?_ascii hx) ..).trans ?_
      exact congrArg (fun r => ([x] ++ ·) <$> r) (ih ha (pos + 1) [])
  exact hfrom 0 []

theorem escaped?_eq_none {c : CodePoint} (h : c.isSurrogate = false) : Utf8.escaped? c = none := by
  simp only [CodePoint.isSurrogate, Bool.and_eq_false_iff, decide_eq_false_iff_not] at h
  simp only [Utf8.escaped?, Bool.and_eq_true, decide_eq_true_eq]
  rw [if_neg (by omega)]

/-- Clean text that a set can write reads back. -/
theorem decodeEscaped_of_encodeFrom {cs : Charset} {t : Text} (ht : Text.isClean t) {pos : Nat}
    {held : List CodePoint} {bs : Bytes} (h : cs.encodeFrom pos held t = .ok bs) : cs.decodeEscaped bs = t := by
  induction t generalizing pos held bs with
  | nil =>
    obtain rfl : [] = bs := by simpa [encodeFrom] using h
    exact decodeEscaped_nil cs
  | cons c t ih =>
    obtain ⟨hc, ht⟩ : c.isSurrogate = false ∧ Text.isClean t := by simpa [Text.isClean] using ht
    cases hb : cs.bytes? c with
    | some b =>
      rw [encodeFrom_cons_of_bytes? hb] at h
      cases hr : cs.encodeFrom (pos + 1) [] t with
      | error e => rw [hr] at h; cases h
      | ok rest =>
        rw [hr] at h
        cases h
        rw [decodeEscaped_cons hb, ih ht hr]
    | none =>
      rw [encodeFrom, hb] at h
      simp only [escaped?_eq_none hc] at h
      cases cs <;> cases h

/-- Clean text is written code point by code point. -/
theorem encodeFrom_utf8 {t : Text} (ht : t.isClean) (pos : Nat) (held : List CodePoint) :
    Charset.utf8.encodeFrom pos held t = .ok (t.flatMap Utf8.unit) := by
  induction t generalizing pos held with
  | nil => rfl
  | cons c t ih =>
    obtain ⟨hc, ht⟩ : c.isSurrogate = false ∧ Text.isClean t := by simpa [Text.isClean] using ht
    rw [encodeFrom_cons_of_bytes? (b := Utf8.unit c) (by simp [bytes?, hc]), ih ht]
    rfl

/-- Clean text is what its bytes are read as. -/
theorem decodeEscaped_units {t : Text} (ht : t.isClean) :
    Charset.utf8.decodeEscaped (t.flatMap Utf8.unit) = t :=
  decodeEscaped_of_encodeFrom ht (encodeFrom_utf8 ht 0 [])

end Charset
end HostedLua
