import HostedLua.Proofs.Text.Decoding

/-! Bytes read with replacements. Characters are read as themselves, and what is none gives one replacement for each
broken part: the longest beginning of a character that stands there, or a byte that begins none. Text that is read so
has no surrogate in it, and reading through a set that leaves bytes as they are comes to the same text. -/

namespace HostedLua

namespace Utf8

variable {b bs p part part' rest rest' : Bytes} {t : Text} {c : CodePoint}

/-- The broken part at the head of bytes that start with no character: as many as begin one, and else one byte. -/
structure Broken (part rest : Bytes) : Prop where
  not_char : ∀ x : Char, ¬ String.utf8EncodeChar x <+: part ++ rest
  nonempty : part ≠ []
  begins : part.length = 1 ∨ ∃ x : Char, part <+: String.utf8EncodeChar x
  longest : ∀ (p : Bytes) (x : Char), p <+: part ++ rest → p <+: String.utf8EncodeChar x → p.length ≤ part.length

/-- Bytes and the text that they are read as, broken parts as replacements. -/
inductive Replaced : Bytes → Text → Prop where
  | nil : Replaced [] []
  | char {rest : Bytes} {t : Text} (x : Char) (h : Replaced rest t) :
    Replaced (String.utf8EncodeChar x ++ rest) (.ofChar x :: t)
  | broken {part rest : Bytes} {t : Text} (hpart : Broken part rest) (h : Replaced rest t) :
    Replaced (part ++ rest) (replacement :: t)

theorem scalar?_utf8EncodeChar (x : Char) (rest : Bytes) :
    scalar? (String.utf8EncodeChar x ++ rest) = some (.ofChar x, rest) :=
  unit_ofChar x ▸ scalar?_unit (CodePoint.isSurrogate_ofChar x) rest

/-- What is read as a code point starts with the bytes of a character. -/
theorem char_of_scalar? (h : scalar? bs = some (c, rest)) :
    ∃ x : Char, c = .ofChar x ∧ bs = String.utf8EncodeChar x ++ rest := by
  obtain ⟨rfl, hc⟩ := unit_of_scalar? h
  obtain ⟨x, rfl⟩ := CodePoint.exists_char hc
  exact ⟨x, rfl, by rw [unit_ofChar]⟩

theorem scalar?_eq_none_iff : scalar? bs = none ↔ ∀ x : Char, ¬ String.utf8EncodeChar x <+: bs := by
  constructor
  · rintro h x ⟨rest, rfl⟩
    rw [scalar?_utf8EncodeChar] at h
    contradiction
  · intro h
    cases hread : scalar? bs with
    | none => rfl
    | some r =>
      obtain ⟨x, -, hbs⟩ := char_of_scalar? hread
      exact absurd ⟨_, hbs.symm⟩ (h x)

/-- The sequences of one, two, three and four bytes, as far as they tell whether a shorter one begins them. -/
theorem unit_shape (hc : c.isSurrogate = false) :
    (∃ a, unit c = [a]) ∨ (∃ a b, unit c = [a, b]) ∨
      (∃ a b d, unit c = [a, b, d] ∧ (0xE0 ≤ a ∧ a ≤ 0xEF) ∧ secondOk a b) ∨
      ∃ a b d e, unit c = [a, b, d, e] ∧ (0xF0 ≤ a ∧ a ≤ 0xF4) ∧ secondOk a b ∧ isTail d := by
  have h := scalar?_unit hc []
  rw [List.append_nil] at h
  generalize unit c = bs at h
  rcases bs with _ | ⟨a, tail⟩
  · contradiction
  unfold scalar? at h
  simp only [Bool.and_eq_true, decide_eq_true_eq] at h
  split_ifs at h with h1 h2 h3 h4
  · obtain ⟨-, rfl⟩ := by simpa using h
    exact .inl ⟨a, rfl⟩
  · rcases tail with _ | ⟨b, tail⟩
    · contradiction
    · obtain ⟨-, -, rfl⟩ := by simpa using h
      exact .inr (.inl ⟨a, b, rfl⟩)
  · rcases tail with _ | ⟨b, _ | ⟨d, tail⟩⟩
    · contradiction
    · contradiction
    · obtain ⟨⟨hsecond, -⟩, -, rfl⟩ := by simpa using h
      exact .inr (.inr (.inl ⟨a, b, d, rfl, h3, hsecond⟩))
  · rcases tail with _ | ⟨b, _ | ⟨d, _ | ⟨e, tail⟩⟩⟩
    · contradiction
    · contradiction
    · contradiction
    · obtain ⟨⟨⟨hsecond, htail⟩, -⟩, -, rfl⟩ := by simpa using h
      exact .inr (.inr (.inr ⟨a, b, d, e, rfl, h4, hsecond, htail⟩))

theorem brokenLength_pos (a : UInt8) (rest : Bytes) : 0 < brokenLength (a :: rest) := by
  unfold brokenLength
  repeat' split
  all_goals simp_all

theorem brokenLength_three {a b : UInt8} (ha : 0xE0 ≤ a ∧ a ≤ 0xEF) (hb : secondOk a b) (rest : Bytes) :
    brokenLength (a :: b :: rest) = 2 := by
  simp [brokenLength, ha, hb]

theorem brokenLength_four {a b : UInt8} (ha : 0xF0 ≤ a ∧ a ≤ 0xF4) (hb : secondOk a b) (rest : Bytes) :
    brokenLength (a :: b :: rest) = match rest with
      | c :: _ => if isTail c then 3 else 2
      | [] => 2 := by
  have hlow : ¬ a ≤ 0xEF := by
    have := ha.1
    simp only [UInt8.le_iff_toNat_le, UInt8.reduceToNat] at this ⊢
    omega
  cases rest <;> simp [brokenLength, ha, hb, hlow]

/-- No beginning of a character that stands at the head of bytes is longer than their broken part. -/
theorem length_le_brokenLength (h : scalar? bs = none) (hp : p <+: bs) {x : Char} (hx : p <+: String.utf8EncodeChar x) :
    p.length ≤ brokenLength bs := by
  obtain ⟨rest, rfl⟩ := hp
  obtain ⟨u, hu⟩ := hx
  have hcut : u ≠ [] := by
    rintro rfl
    rw [List.append_nil] at hu
    exact scalar?_eq_none_iff.mp h x ⟨rest, by rw [hu]⟩
  have hshape := unit_shape (CodePoint.isSurrogate_ofChar x)
  rw [unit_ofChar, ← hu] at hshape
  rcases p with _ | ⟨a, _ | ⟨b, q⟩⟩
  · exact Nat.zero_le _
  · exact brokenLength_pos a rest
  · rcases hshape with ⟨_, hone⟩ | ⟨_, _, htwo⟩ | ⟨_, _, d, hthree, ha, hb⟩ | ⟨_, _, d, e, hfour, ha, hb, hd⟩
    · simp at hone
    · obtain ⟨-, -, -, rfl⟩ := by simpa using htwo
      contradiction
    · obtain ⟨rfl, rfl, hq⟩ := by simpa using hthree
      rw [List.cons_append, List.cons_append, brokenLength_three ha hb]
      rcases q with _ | ⟨y, q⟩
      · exact Nat.le_refl 2
      · obtain ⟨-, -, rfl⟩ := by simpa using hq
        contradiction
    · obtain ⟨rfl, rfl, hq⟩ := by simpa using hfour
      rw [List.cons_append, List.cons_append, brokenLength_four ha hb]
      rcases q with _ | ⟨y, _ | ⟨z, q⟩⟩
      · split
        · split <;> simp
        · simp
      · obtain ⟨rfl, -⟩ := by simpa using hq
        simp [hd]
      · obtain ⟨-, -, -, rfl⟩ := by simpa using hq
        contradiction

/-- The broken part is one byte, or it begins a character. -/
theorem brokenLength_begins (a : UInt8) (rest : Bytes) :
    brokenLength (a :: rest) = 1 ∨
      ∃ x : Char, (a :: rest).take (brokenLength (a :: rest)) <+: String.utf8EncodeChar x := by
  have begins {p q : Bytes} {c : CodePoint} (h : scalar? (p ++ q) = some (c, [])) :
      ∃ x : Char, p <+: String.utf8EncodeChar x := by
    obtain ⟨x, -, hbytes⟩ := char_of_scalar? h
    exact ⟨x, q, hbytes.trans (List.append_nil _)⟩
  -- What goes on with a beginning may be the least continuation bytes.
  have htail : isTail 0x80 = true := by decide
  have hlead {n : UInt8} (hn : 0xE0 ≤ n) (ha : n ≤ a) : ¬ a < 0x80 ∧ ¬ (0xC2 ≤ a ∧ a ≤ 0xDF) := by
    simp only [UInt8.le_iff_toNat_le, UInt8.lt_iff_toNat_lt, UInt8.reduceToNat] at *
    omega
  rcases rest with _ | ⟨b, rest⟩
  · exact .inl rfl
  by_cases hthree : (0xE0 ≤ a ∧ a ≤ 0xEF) ∧ secondOk a b = true
  · obtain ⟨ha, hb⟩ := hthree
    obtain ⟨h1, h2⟩ := hlead (by decide) ha.1
    rw [brokenLength_three ha hb]
    exact .inr (begins (p := [a, b]) (q := [0x80]) (by simp [scalar?, h1, h2, ha, hb, htail]; rfl))
  by_cases hfour : (0xF0 ≤ a ∧ a ≤ 0xF4) ∧ secondOk a b = true
  · obtain ⟨ha, hb⟩ := hfour
    obtain ⟨h1, h2⟩ := hlead (by decide) ha.1
    have h3 : ¬ a ≤ 0xEF := by
      have := ha.1
      simp only [UInt8.le_iff_toNat_le, UInt8.reduceToNat] at this ⊢
      omega
    have htwo : ∃ x : Char, [a, b] <+: String.utf8EncodeChar x :=
      begins (q := [0x80, 0x80]) (by simp [scalar?, h1, h2, h3, ha, hb, htail]; rfl)
    rw [brokenLength_four ha hb]
    rcases rest with _ | ⟨c, rest⟩
    · exact .inr htwo
    by_cases hc : isTail c = true
    · dsimp only
      rw [if_pos hc]
      exact .inr (begins (p := [a, b, c]) (q := [0x80]) (by simp [scalar?, h1, h2, h3, ha, hb, hc, htail]; rfl))
    · dsimp only
      rw [if_neg hc]
      exact .inr htwo
  · left
    simp only [brokenLength]
    rw [if_neg (by simpa using hthree), if_neg (by simpa using hfour)]

theorem broken_brokenLength {a : UInt8} (h : scalar? (a :: rest) = none) :
    Broken ((a :: rest).take (brokenLength (a :: rest))) ((a :: rest).drop (brokenLength (a :: rest))) where
  not_char := by
    rw [List.take_append_drop]
    exact scalar?_eq_none_iff.mp h
  nonempty := by
    have hpos := brokenLength_pos a rest
    simp [Nat.ne_of_gt hpos]
  begins := by
    rcases brokenLength_begins a rest with hone | hbegins
    · exact .inl (by simp [hone])
    · exact .inr hbegins
  longest := by
    intro p x hp hx
    rw [List.take_append_drop] at hp
    rw [List.length_take]
    exact Nat.le_min.mpr ⟨length_le_brokenLength h hp hx, hp.length_le⟩

theorem Broken.length_le (h : Broken part rest) (h' : Broken part' rest') (heq : part ++ rest = part' ++ rest') :
    part.length ≤ part'.length := by
  rcases h.begins with hone | ⟨x, hx⟩
  · rw [hone]
    exact List.length_pos_iff.mpr h'.nonempty
  · exact h'.longest part x ⟨rest, heq⟩ hx

/-- Bytes have one broken part at their head. -/
theorem Broken.unique (h : Broken part rest) (h' : Broken part' rest') (heq : part ++ rest = part' ++ rest') :
    part = part' ∧ rest = rest' :=
  List.append_inj heq (Nat.le_antisymm (h.length_le h' heq) (h'.length_le h heq.symm))

theorem decodeLossy_of_scalar? (h : scalar? bs = some (c, rest)) : decodeLossy bs = c :: decodeLossy rest := by
  cases bs with
  | nil => simp [scalar?] at h
  | cons a tail =>
    rw [decodeLossy]
    split <;> simp_all

theorem drop_brokenLength (a : UInt8) (rest : Bytes) :
    (a :: rest).drop (brokenLength (a :: rest)) = rest.drop (brokenLength (a :: rest) - 1) := by
  obtain ⟨n, hn⟩ := Nat.exists_eq_succ_of_ne_zero (Nat.ne_of_gt (brokenLength_pos a rest))
  rw [hn]
  rfl

theorem decodeLossy_broken (h : Broken part rest) : decodeLossy (part ++ rest) = replacement :: decodeLossy rest := by
  have hnone := scalar?_eq_none_iff.mpr h.not_char
  rcases hbs : part ++ rest with _ | ⟨a, tail⟩
  · exact absurd (List.append_eq_nil_iff.mp hbs).1 h.nonempty
  · rw [hbs] at hnone
    have hbroken := broken_brokenLength hnone
    obtain ⟨-, rfl⟩ := h.unique hbroken (by rw [hbs, List.take_append_drop])
    rw [drop_brokenLength, decodeLossy]
    split
    · next hsome => rw [hnone] at hsome; contradiction
    · rfl

/-- Bytes are read with replacements as just one text. -/
theorem replaced_iff : Replaced b t ↔ t = decodeLossy b := by
  constructor
  · intro h
    induction h with
    | nil => rw [decodeLossy]
    | char x h ih => rw [decodeLossy_of_scalar? (scalar?_utf8EncodeChar x _), ih]
    | broken hpart h ih => rw [decodeLossy_broken hpart, ih]
  · rintro rfl
    fun_induction decodeLossy b with
    | case1 => exact .nil
    | case2 a rest c tail h ih =>
      obtain ⟨x, rfl, hbytes⟩ := char_of_scalar? h
      exact hbytes ▸ .char x ih
    | case3 a rest h ih =>
      rw [← drop_brokenLength] at ih ⊢
      have hread := Replaced.broken (broken_brokenLength h) ih
      rwa [List.take_append_drop] at hread

theorem isSurrogate_replacement : replacement.isSurrogate = false := by decide

/-- Text read with replacements has no surrogate in it. -/
theorem isClean_decodeLossy (b : Bytes) : Text.isClean (decodeLossy b) = true := by
  fun_induction decodeLossy b with
  | case1 => rfl
  | case2 a rest c tail h ih =>
    simpa [Text.isClean, (unit_of_scalar? h).2] using ih
  | case3 a rest h ih =>
    simpa [Text.isClean, isSurrogate_replacement] using ih

end Utf8

namespace Charset

/-- ASCII leaves every byte as it is. -/
theorem transcode_ascii (b : Bytes) : Charset.ascii.transcode b = b := by
  have hrecoded (x : UInt8) : Charset.ascii.recoded x = [x] := by
    rw [recoded]
    cases hx : Charset.ascii.char? x with
    | none => rfl
    | some c =>
      have hlow : x.toNat < 0x80 := by
        by_contra hhigh
        simp [char?, UInt8.lt_iff_toNat_lt, hhigh] at hx
      rw [char?, if_pos (UInt8.lt_iff_toNat_lt.mpr hlow)] at hx
      obtain rfl := Option.some.inj hx
      exact (Utf8.unit_one hlow).trans (congrArg ([·]) (Utf8.ofNat_eq rfl))
  show b.flatMap Charset.ascii.recoded = b
  rw [funext hrecoded, List.flatMap_singleton']

end Charset

end HostedLua
