import HostedLua.Proofs.Text.RoundTrip
import Mathlib.Data.List.GetD

/-! Which bytes are decodable. A set decodes bytes throughout just if no escape stands in the text that they are read
as. For UTF-8 these are the encodings of lists of characters, so that nothing else counts as text: no overlong form, no
surrogate and nothing beyond the last code point. The single-byte sets decode byte by byte, and what they read stays
apart in UTF-8. -/

namespace HostedLua

namespace CodePoint

theorem isSurrogate_ofChar (x : Char) : (ofChar x).isSurrogate = false := by
  have h := x.valid
  unfold UInt32.isValidChar Nat.isValidChar at h
  have hval : (ofChar x).val = x.val.toNat := rfl
  rw [isSurrogate, hval, Bool.and_eq_false_iff, decide_eq_false_iff_not, decide_eq_false_iff_not]
  omega

/-- Every code point but the surrogates is one of a character. -/
theorem exists_char {c : CodePoint} (hc : c.isSurrogate = false) : ∃ x : Char, ofChar x = c := by
  rw [isSurrogate, Bool.and_eq_false_iff, decide_eq_false_iff_not, decide_eq_false_iff_not] at hc
  have hvalid : Nat.isValidChar c.val := by
    have := c.isLt
    unfold Nat.isValidChar
    omega
  refine ⟨Char.ofNat c.val, Fin.ext ?_⟩
  show (Char.ofNat c.val).toNat = c.val
  rw [Char.ofNat, dif_pos hvalid]
  rfl

end CodePoint

/-- Clean text is the text of characters. -/
theorem Text.isClean_iff {t : Text} : t.isClean = true ↔ ∃ xs : List Char, t = xs.map CodePoint.ofChar := by
  constructor
  · induction t with
    | nil => exact fun _ => ⟨[], rfl⟩
    | cons c t ih =>
      intro h
      obtain ⟨hc, ht⟩ : c.isSurrogate = false ∧ Text.isClean t := by simpa [Text.isClean] using h
      obtain ⟨x, rfl⟩ := CodePoint.exists_char hc
      obtain ⟨xs, rfl⟩ := ih ht
      exact ⟨x :: xs, rfl⟩
  · rintro ⟨xs, rfl⟩
    simp [Text.isClean, CodePoint.isSurrogate_ofChar]

namespace Utf8

/-- The bytes of a character are those that it has in a string. -/
theorem unit_ofChar (x : Char) : unit (.ofChar x) = String.utf8EncodeChar x := by
  have hval : (CodePoint.ofChar x).val = x.val.toNat := rfl
  have h := x.valid
  unfold UInt32.isValidChar Nat.isValidChar at h
  have hbyte {n m : Nat} (h : n = m) : UInt8.ofNat n = UInt8.ofNat m := congrArg _ h
  unfold unit String.utf8EncodeChar
  simp only [hval]
  by_cases h1 : x.val.toNat < 0x80
  · rw [if_pos h1, if_pos (by omega)]
  by_cases h2 : x.val.toNat < 0x800
  · rw [if_neg h1, if_pos h2, if_neg (by omega), if_pos (by omega)]
    simp only [List.cons.injEq, and_true]
    exact ⟨hbyte (by omega), hbyte (by omega)⟩
  by_cases h3 : x.val.toNat < 0x10000
  · rw [if_neg h1, if_neg h2, if_pos h3, if_neg (by omega), if_neg (by omega), if_pos (by omega)]
    simp only [List.cons.injEq, and_true]
    exact ⟨hbyte (by omega), hbyte (by omega), hbyte (by omega)⟩
  · rw [if_neg h1, if_neg h2, if_neg h3, if_neg (by omega), if_neg (by omega), if_neg (by omega)]
    simp only [List.cons.injEq, and_true]
    exact ⟨hbyte (by omega), hbyte (by omega), hbyte (by omega), hbyte (by omega)⟩

theorem decode?_of_scalar? {bs rest : Bytes} {c : CodePoint} (h : scalar? bs = some (c, rest)) :
    decode? bs = (decode? rest).map (c :: ·) := by
  cases bs with
  | nil => simp [scalar?] at h
  | cons a tail =>
    rw [decode?]
    split <;> simp_all

/-- What is decoded is written as the bytes that it was decoded from. -/
theorem unit_of_decode? {b : Bytes} {t : Text} (h : decode? b = some t) : t.flatMap unit = b ∧ Text.isClean t := by
  fun_induction decode? b generalizing t with
  | case1 =>
    obtain rfl := Option.some.inj h
    exact ⟨rfl, rfl⟩
  | case2 a rest c tail hc ih =>
    obtain ⟨u, hu, rfl⟩ := Option.map_eq_some_iff.mp h
    obtain ⟨hunit, hclean⟩ := ih hu
    obtain ⟨hwritten, hsurrogate⟩ := unit_of_scalar? hc
    refine ⟨by rw [List.flatMap_cons, hunit, hwritten], ?_⟩
    simpa [Text.isClean, hsurrogate] using hclean
  | case3 => contradiction

theorem decode?_unit {t : Text} (ht : Text.isClean t) : decode? (t.flatMap unit) = some t := by
  induction t with
  | nil => rw [List.flatMap_nil, decode?]
  | cons c t ih =>
    obtain ⟨hc, ht⟩ : c.isSurrogate = false ∧ Text.isClean t := by simpa [Text.isClean] using ht
    rw [List.flatMap_cons, decode?_of_scalar? (scalar?_unit hc _), ih ht, Option.map_some]

/-- Bytes are decoded as characters just if they are the bytes of these. -/
theorem decode?_eq_some_iff {b : Bytes} {t : Text} :
    decode? b = some t ↔ ∃ xs : List Char, t = xs.map CodePoint.ofChar ∧ xs.flatMap String.utf8EncodeChar = b := by
  have hunits (xs : List Char) : (xs.map CodePoint.ofChar).flatMap unit = xs.flatMap String.utf8EncodeChar := by
    rw [List.flatMap_map]
    exact congrArg (xs.flatMap ·) (funext unit_ofChar)
  constructor
  · intro h
    obtain ⟨hunit, hclean⟩ := unit_of_decode? h
    obtain ⟨xs, rfl⟩ := Text.isClean_iff.mp hclean
    exact ⟨xs, rfl, (hunits xs).symm.trans hunit⟩
  · rintro ⟨xs, rfl, rfl⟩
    rw [← hunits]
    exact decode?_unit (Text.isClean_iff.mpr ⟨xs, rfl⟩)

/-- Bytes that are not decodable throughout are read with an escape. -/
theorem not_isClean_of_decode?_none {b : Bytes} (h : decode? b = none) : ¬ Text.isClean (decodeEscaped b) := by
  fun_induction decode? b with
  | case1 => contradiction
  | case2 a rest c tail hc ih =>
    have hnone : decode? tail = none := by
      cases htail : decode? tail with
      | none => rfl
      | some u => simp [htail] at h
    rw [decodeEscaped_of_scalar? hc]
    intro hclean
    refine ih hnone ?_
    simp only [Text.isClean, List.all_cons, Bool.and_eq_true] at hclean
    exact hclean.2
  | case3 a rest hc =>
    rw [decodeEscaped]
    split
    · next hsome => rw [hc] at hsome; contradiction
    · simp [Text.isClean, isSurrogate_escape]

theorem decodeEscaped_of_decode? {b : Bytes} {t : Text} (h : decode? b = some t) : decodeEscaped b = t := by
  fun_induction decode? b generalizing t with
  | case1 =>
    obtain rfl := Option.some.inj h
    exact decodeEscaped_nil
  | case2 a rest c tail hc ih =>
    obtain ⟨u, hu, rfl⟩ := Option.map_eq_some_iff.mp h
    rw [decodeEscaped_of_scalar? hc, ih hu]
  | case3 => contradiction

end Utf8

namespace Charset

variable {cs : Charset} {b b' : Bytes} {t : Text}

/-- The strings that a set decodes throughout. -/
def Decodable (cs : Charset) (b : Bytes) : Prop :=
  match cs with
  | .utf8 => ∃ xs : List Char, xs.flatMap String.utf8EncodeChar = b
  | .ascii => ∀ x ∈ b, x < 0x80
  | .latin1 => True
  | .cp1252 => ∀ x ∈ b, x ∉ [0x81, 0x8D, 0x8F, 0x90, 0x9D]

/-- No byte of a single-byte set stands for a surrogate. -/
theorem isSurrogate_of_char? (hcs : cs ≠ .utf8) {x : UInt8} {c : CodePoint} (h : cs.char? x = some c) :
    c.isSurrogate = false := by
  have hx := x.toNat_lt
  have hlow : (CodePoint.ofNat x.toNat).isSurrogate = false := by
    rw [Utf8.isSurrogate_ofNat (by omega), Bool.and_eq_false_iff, decide_eq_false_iff_not, decide_eq_false_iff_not]
    omega
  have hhigh (i : Nat) : (CodePoint.ofNat (cp1252High.getD i 0)).isSurrogate = false := by
    have hbelow : cp1252High.getD i 0 < 0xD800 := by
      have hall : ∀ n ∈ cp1252High, n < 0xD800 := by decide
      by_cases hi : i < cp1252High.length
      · rw [List.getD_eq_getElem _ _ hi]
        exact hall _ (List.getElem_mem hi)
      · rw [List.getD_eq_default _ _ (Nat.le_of_not_lt hi)]
        omega
    rw [Utf8.isSurrogate_ofNat (by omega), Bool.and_eq_false_iff, decide_eq_false_iff_not]
    exact .inl (by omega)
  unfold char? at h
  split at h
  · exact Option.some.inj h ▸ hlow
  · cases cs with
    | utf8 => contradiction
    | ascii => contradiction
    | latin1 => exact Option.some.inj h ▸ hlow
    | cp1252 =>
      dsimp only at h
      split at h
      · split at h
        · simp at h
        · exact Option.some.inj h ▸ hhigh _
      · exact Option.some.inj h ▸ hlow

theorem mapM_char?_cons {x : UInt8} :
    (x :: b).mapM cs.char? = (cs.char? x).bind fun c => (b.mapM cs.char?).map (c :: ·) := by
  rw [List.mapM_cons]
  cases cs.char? x with
  | none => rfl
  | some c => cases b.mapM cs.char? <;> rfl

/-- A single-byte set decodes what it decodes byte by byte. -/
theorem isSome_mapM_char? : (b.mapM cs.char?).isSome = true ↔ ∀ x ∈ b, (cs.char? x).isSome = true := by
  induction b with
  | nil => simp
  | cons x b ih =>
    rw [mapM_char?_cons, List.forall_mem_cons, ← ih]
    cases cs.char? x with
    | none => simp
    | some c => cases b.mapM cs.char? <;> simp

theorem mapM_char?_some (hcs : cs ≠ .utf8) (h : b.mapM cs.char? = some t) :
    (b.map fun x => (cs.char? x).getD (Utf8.escape x)) = t ∧ Text.isClean t := by
  induction b generalizing t with
  | nil =>
    obtain rfl := Option.some.inj h
    exact ⟨rfl, rfl⟩
  | cons x b ih =>
    rw [mapM_char?_cons] at h
    obtain ⟨c, hc, hrest⟩ := Option.bind_eq_some_iff.mp h
    obtain ⟨u, hu, rfl⟩ := Option.map_eq_some_iff.mp hrest
    obtain ⟨hmap, hclean⟩ := ih hu
    refine ⟨by rw [List.map_cons, hc, Option.getD_some, hmap], ?_⟩
    simpa [Text.isClean, isSurrogate_of_char? hcs hc] using hclean

theorem mapM_char?_none (h : b.mapM cs.char? = none) :
    ¬ Text.isClean (b.map fun x => (cs.char? x).getD (Utf8.escape x)) := by
  have hsome : ¬ ∀ x ∈ b, (cs.char? x).isSome = true := by rw [← isSome_mapM_char?, h]; exact Bool.false_ne_true
  obtain ⟨x, hx, hnone⟩ : ∃ x ∈ b, cs.char? x = none := by simpa using hsome
  intro hclean
  have hmem : Utf8.escape x ∈ b.map fun x => (cs.char? x).getD (Utf8.escape x) :=
    List.mem_map.mpr ⟨x, hx, by rw [hnone, Option.getD_none]⟩
  have := List.all_eq_true.mp hclean _ hmem
  rw [Utf8.isSurrogate_escape] at this
  contradiction

/-- What a set decodes has no escape in it. -/
theorem decodeEscaped_of_decode? (h : cs.decode? b = some t) : cs.decodeEscaped b = t ∧ Text.isClean t := by
  cases cs with
  | utf8 => exact ⟨Utf8.decodeEscaped_of_decode? h, (Utf8.unit_of_decode? h).2⟩
  | ascii | latin1 | cp1252 => exact mapM_char?_some (by decide) h

theorem not_isClean_of_decode?_none (h : cs.decode? b = none) : ¬ Text.isClean (cs.decodeEscaped b) := by
  cases cs with
  | utf8 => exact Utf8.not_isClean_of_decode?_none h
  | ascii | latin1 | cp1252 => exact mapM_char?_none h

/-- Code page 1252 leaves five bytes undefined. -/
theorem isSome_char?_cp1252 (x : UInt8) :
    (Charset.cp1252.char? x).isSome = true ↔ x ∉ [0x81, 0x8D, 0x8F, 0x90, 0x9D] := by
  have htable : ∀ i < 32, cp1252High.getD i 0 = 0 ↔ i ∈ [0x01, 0x0D, 0x0F, 0x10, 0x1D] := by decide
  simp only [List.mem_cons, List.not_mem_nil, or_false, not_or, ← UInt8.toNat_inj, UInt8.reduceToNat]
  unfold char?
  simp only [UInt8.lt_iff_toNat_lt, UInt8.reduceToNat]
  split_ifs with h1 h2
  · simp only [Option.isSome_some, true_iff]
    omega
  · have hrow := htable (x.toNat - 0x80) (by omega)
    simp only [List.mem_cons, List.not_mem_nil, or_false] at hrow
    split
    · next hzero =>
      simp only [Option.isSome_none, Bool.false_eq_true, false_iff]
      have := hrow.mp hzero
      omega
    · next hne =>
      simp only [Option.isSome_some, true_iff]
      have := mt hrow.mpr hne
      omega
  · simp only [Option.isSome_some, true_iff]
    omega

theorem isSome_decode?_iff : (cs.decode? b).isSome = true ↔ cs.Decodable b := by
  cases cs with
  | utf8 =>
    rw [decode?, Decodable, Option.isSome_iff_exists]
    simp only [Utf8.decode?_eq_some_iff]
    exact ⟨fun ⟨_, xs, _, h⟩ => ⟨xs, h⟩, fun ⟨xs, h⟩ => ⟨_, xs, rfl, h⟩⟩
  | ascii =>
    refine isSome_mapM_char?.trans (forall₂_congr fun x _ => ?_)
    unfold char?
    split <;> simp_all
  | latin1 =>
    refine isSome_mapM_char?.trans ⟨fun _ => trivial, fun _ x _ => ?_⟩
    unfold char?
    split <;> rfl
  | cp1252 => exact isSome_mapM_char?.trans (forall₂_congr fun x _ => isSome_char?_cp1252 x)

/-- A byte of a set in UTF-8; a byte that the set leaves undefined stays. -/
def recoded (cs : Charset) (x : UInt8) : Bytes :=
  match cs.char? x with
  | some c => Utf8.unit c
  | none => [x]

/-- A string of a set in UTF-8. -/
def transcode (cs : Charset) (b : Bytes) : Bytes :=
  match cs with
  | .utf8 => b
  | cs => b.flatMap cs.recoded

theorem encodeFrom_recoded (hcs : cs ≠ .utf8) (b : Bytes) (pos : Nat) (held : List CodePoint) :
    Charset.utf8.encodeFrom pos held (b.map fun x => (cs.char? x).getD (Utf8.escape x)) =
      .ok (b.flatMap cs.recoded) := by
  induction b generalizing pos held with
  | nil => rfl
  | cons x b ih =>
    rw [List.map_cons, List.flatMap_cons, recoded]
    cases hc : cs.char? x with
    | some c =>
      have hbytes : Charset.utf8.bytes? c = some (Utf8.unit c) := by
        rw [bytes?, isSurrogate_of_char? hcs hc, if_neg Bool.false_ne_true]
      rw [Option.getD_some, encodeFrom_cons_of_bytes? hbytes, ih]
      rfl
    | none =>
      have hx := le_of_char?_none hc
      rw [Option.getD_none, encodeFrom_cons_of_escaped? (bytes?_escape hx) (Utf8.escaped?_escape hx), ih]
      rfl

/-- What a set reads is written in UTF-8, escapes as the bytes they stand for. -/
theorem encodeEscaped_utf8 (cs : Charset) (b : Bytes) :
    Charset.utf8.encodeEscaped (cs.decodeEscaped b) = .ok (cs.transcode b) := by
  cases cs with
  | utf8 => exact encodeEscaped_decodeEscaped .utf8 b
  | ascii | latin1 | cp1252 => exact encodeFrom_recoded (by decide) b 0 []

/-- No character of a set starts in UTF-8 with a byte that the set leaves undefined. -/
theorem unit_append_ne_cons (hcs : cs ≠ .utf8) {x y : UInt8} {c : CodePoint} (hx : cs.char? x = some c)
    (hy : cs.char? y = none) (r r' : Bytes) : Utf8.unit c ++ r ≠ y :: r' := by
  intro h
  cases cs with
  | utf8 => exact absurd rfl hcs
  | ascii =>
    have hlow : x < 0x80 := by
      by_contra hhigh
      simp [char?, hhigh] at hx
    rw [char?, if_pos hlow] at hx
    obtain rfl := Option.some.inj hx
    rw [Utf8.unit_one (UInt8.lt_iff_toNat_lt.mp hlow), Utf8.ofNat_eq rfl] at h
    obtain rfl := (List.cons.inj h).1
    exact absurd (UInt8.lt_iff_toNat_lt.mp hlow) (Nat.not_lt.mpr (le_of_char?_none hy))
  | latin1 => simp [char?] at hy
  | cp1252 =>
    -- All undefined bytes of this page come after the first one of a sequence.
    have hnone : Utf8.scalar? (y :: r') = none := by
      have hmem : y ∈ [0x81, 0x8D, 0x8F, 0x90, 0x9D] := by
        by_contra hnot
        have hsome := (isSome_char?_cp1252 y).mpr hnot
        rw [hy] at hsome
        contradiction
      simp only [List.mem_cons, List.not_mem_nil, or_false] at hmem
      rcases hmem with rfl | rfl | rfl | rfl | rfl <;> rfl
    rw [← h, Utf8.scalar?_unit (isSurrogate_of_char? hcs hx)] at hnone
    contradiction

theorem recoded_append_inj (hcs : cs ≠ .utf8) {x y : UInt8} {r r' : Bytes}
    (h : cs.recoded x ++ r = cs.recoded y ++ r') : x = y ∧ r = r' := by
  rw [recoded, recoded] at h
  cases hx : cs.char? x with
  | some c =>
    rw [hx] at h
    cases hy : cs.char? y with
    | some d =>
      rw [hy] at h
      have hread := congrArg Utf8.scalar? h
      simp only [Utf8.scalar?_unit (isSurrogate_of_char? hcs hx), Utf8.scalar?_unit (isSurrogate_of_char? hcs hy),
        Option.some.injEq, Prod.mk.injEq] at hread
      obtain ⟨rfl, rfl⟩ := hread
      have hxy := (bytes?_of_char? hcs hx).symm.trans (bytes?_of_char? hcs hy)
      exact ⟨(List.cons.inj (Option.some.inj hxy)).1, rfl⟩
    | none =>
      rw [hy] at h
      exact absurd h (unit_append_ne_cons hcs hx hy r r')
  | none =>
    rw [hx] at h
    cases hy : cs.char? y with
    | some d =>
      rw [hy] at h
      exact absurd h.symm (unit_append_ne_cons hcs hy hx r' r)
    | none =>
      rw [hy] at h
      exact List.cons.inj h

theorem recoded_ne_nil (hcs : cs ≠ .utf8) (x : UInt8) : cs.recoded x ≠ [] := by
  rw [recoded]
  cases hx : cs.char? x with
  | some c =>
    intro h
    have hread := Utf8.scalar?_unit (isSurrogate_of_char? hcs hx) []
    rw [List.append_nil] at hread
    simp [show Utf8.unit c = [] from h, Utf8.scalar?] at hread
  | none => exact List.cons_ne_nil _ _

/-- Strings that are the same in UTF-8 are the same. -/
theorem transcode_injective (h : cs.transcode b = cs.transcode b') : b = b' := by
  by_cases hcs : cs = .utf8
  · subst hcs
    exact h
  have hflat (b : Bytes) : cs.transcode b = b.flatMap cs.recoded := by
    cases cs <;> first | exact absurd rfl hcs | rfl
  rw [hflat, hflat] at h
  induction b generalizing b' with
  | nil =>
    cases b' with
    | nil => rfl
    | cons y b' => exact absurd (List.append_eq_nil_iff.mp h.symm).1 (recoded_ne_nil hcs y)
  | cons x b ih =>
    cases b' with
    | nil => exact absurd (List.append_eq_nil_iff.mp h).1 (recoded_ne_nil hcs x)
    | cons y b' =>
      obtain ⟨rfl, hrest⟩ := recoded_append_inj hcs h
      rw [ih hrest]

/-- Strings that are read alike are the same. -/
theorem decodeEscaped_injective (h : cs.decodeEscaped b = cs.decodeEscaped b') : b = b' := by
  have hb := encodeEscaped_decodeEscaped cs b
  rw [h, encodeEscaped_decodeEscaped] at hb
  exact (Except.ok.inj hb).symm

end Charset

end HostedLua
