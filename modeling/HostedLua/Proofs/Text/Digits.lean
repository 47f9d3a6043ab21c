import HostedLua.Number.Decimal
import HostedLua.Number.Integer
import Mathlib.Algebra.GroupWithZero.Nat
import Mathlib.Data.List.TakeDrop
import Mathlib.Data.Nat.Digits.Defs
import Mathlib.Tactic.SplitIfs

/-! Numbers as text. They are written in digits, with a sign, a point or an exponent where there is one, so that the
text of a number is one line. -/

namespace HostedLua

/-- A number is written in the characters of digits of its base. -/
theorem mem_toDigits {b n : Nat} (hb : 1 < b) {c : Char} (h : c ∈ Nat.toDigits b n) : ∃ d < b, c = Nat.digitChar d := by
  induction n using Nat.strongRecOn with
  | ind n ih =>
    rw [Nat.toDigits_eq_if hb] at h
    split_ifs at h with hn
    · exact ⟨n, hn, List.mem_singleton.mp h⟩
    · rcases List.mem_append.mp h with h | h
      · exact ih (n / b) (Nat.div_lt_self (by omega) hb) h
      · exact ⟨n % b, Nat.mod_lt n (by omega), List.mem_singleton.mp h⟩

theorem digit_of_mem_toString {n : Nat} {c : Char} (h : c ∈ (toString n).toList) : 48 ≤ c.toNat ∧ c.toNat ≤ 57 := by
  rw [Nat.toString_eq_repr, Nat.toList_repr] at h
  have hdigit := Nat.isDigit_of_mem_toDigits (by decide) (by decide) h
  rw [Char.isDigit, Bool.and_eq_true, decide_eq_true_iff, decide_eq_true_iff] at hdigit
  exact hdigit

namespace Text

variable {t u : Text}

def lineFeeds (t : Text) : Nat := t.count (CodePoint.ofChar '\n')

@[simp] theorem lineFeeds_nil : lineFeeds [] = 0 := rfl

@[simp] theorem lineFeeds_append (t u : Text) : (t ++ u).lineFeeds = t.lineFeeds + u.lineFeeds := List.count_append

theorem lineFeeds_cons_of_ne {c : CodePoint} (h : c ≠ CodePoint.ofChar '\n') (t : Text) :
    lineFeeds (c :: t) = t.lineFeeds := List.count_cons_of_ne h

theorem lineFeeds_eq_zero : t.lineFeeds = 0 ↔ CodePoint.ofChar '\n' ∉ t := List.count_eq_zero

/-- Pieces that are joined by a text without line feeds keep theirs. -/
theorem lineFeeds_join {sep : Text} (hsep : sep.lineFeeds = 0) (ts : List Text) :
    (join sep ts).lineFeeds = (ts.map lineFeeds).sum := by
  fun_induction join sep ts with
  | case1 => rfl
  | case2 t => simp
  | case3 t ts hne ih => simp [hsep, ih]

/-- A hexadecimal number has hexadecimal digits. -/
theorem hexValue?_hex (n : Nat) : ∀ c ∈ hex n, c.hexValue?.isSome = true := by
  have hdigits : ∀ d < 16, (CodePoint.ofChar (Nat.digitChar d)).hexValue?.isSome = true := by decide
  intro c hc
  obtain ⟨x, hx, rfl⟩ := List.mem_map.mp hc
  obtain ⟨d, hd, rfl⟩ := mem_toDigits (by decide) hx
  exact hdigits d hd

theorem lineFeeds_ofNat (n : Nat) : (ofNat n).lineFeeds = 0 := by
  rw [lineFeeds_eq_zero, ofNat, ofString, List.mem_map]
  rintro ⟨c, hc, heq⟩
  have hdigit := digit_of_mem_toString hc
  have hval : c.toNat = 10 := congrArg Fin.val heq
  omega

theorem lineFeeds_ofInt (i : Int) : (ofInt i).lineFeeds = 0 := by
  cases i with
  | ofNat n => exact lineFeeds_ofNat n
  | negSucc n =>
    have htext : ofInt (.negSucc n) = CodePoint.ofChar '-' :: ofNat (n + 1) := by
      simp [ofInt, ofNat, ofString, toString, Int.repr]
    rw [htext, lineFeeds_cons_of_ne (by decide), lineFeeds_ofNat]

theorem length_ofNat_le {n e : Nat} (he : 0 < e) (h : n < 10 ^ e) : (ofNat n).length ≤ e := by
  rw [ofNat, ofString, List.length_map]
  exact Nat.repr_length n e he h

end Text

/-- A whole number of Lua's is never too long to be written. -/
theorem Integer.write?_word (i : Int64) : write? i.toInt = some (Text.ofInt i.toInt) := by
  have hbounds : i.toInt.natAbs < 10 ^ 19 := by
    have hlow := Int64.le_toInt i
    have hhigh := Int64.toInt_lt i
    omega
  rw [write?, if_pos]
  exact Nat.le_trans (Text.length_ofNat_le (by decide) hbounds) (by decide)

namespace Digits

variable {d : Digits}

def Decimal (d : Digits) : Prop := ∀ x ∈ d.digits, x < 10

theorem Decimal.trimmed (h : d.Decimal) : d.trimmed.Decimal := by
  intro x hx
  rw [Digits.trimmed, List.mem_reverse] at hx
  exact h x (List.mem_reverse.mp ((List.dropWhile_sublist _).subset hx))

theorem decimal_onGrid (n : Nat) (k : Int) : (onGrid n k).Decimal := by
  intro x hx
  obtain ⟨c, hc, rfl⟩ := List.mem_map.mp (show x ∈ ofNat n from hx)
  obtain ⟨d, hd, rfl⟩ := mem_toDigits (by decide) hc
  have hvalue : ∀ d < 10, (Nat.digitChar d).toNat - 48 < 10 := by decide
  exact hvalue d hd

theorem decimal_nearest? {m count : Nat} {e : Int} {lone : Bool} (h : nearest? m e lone count = some d) :
    d.Decimal := by
  unfold nearest? at h
  dsimp only at h
  split_ifs at h <;> exact Option.some.inj h ▸ decimal_onGrid _ _

theorem decimal_shortest (m : Nat) (e : Int) (lone : Bool) : (shortest m e lone).Decimal := by
  refine Decimal.trimmed ?_
  cases hfound : (List.range 17).findSome? fun i => nearest? m e lone (i + 1) with
  | none => exact decimal_onGrid _ _
  | some d =>
    obtain ⟨i, -, hi⟩ := List.exists_of_findSome?_eq_some hfound
    exact decimal_nearest? hi

theorem lineFeeds_digitText {xs : List Nat} (h : ∀ x ∈ xs, x < 10) : Text.lineFeeds (xs.map digitText) = 0 := by
  have hdigit : ∀ x < 10, digitText x ≠ CodePoint.ofChar '\n' := by decide
  rw [Text.lineFeeds_eq_zero, List.mem_map]
  rintro ⟨x, hx, heq⟩
  exact hdigit x (h x hx) heq

theorem lineFeeds_positional (h : d.Decimal) (closing : Bool) : (d.positional closing).lineFeeds = 0 := by
  have hzeros (n : Nat) : Text.lineFeeds (List.replicate n (digitText 0)) = 0 := by
    rw [Text.lineFeeds_eq_zero, List.mem_replicate]
    exact fun hmem => absurd hmem.2 (by decide)
  have hwhole : Text.lineFeeds ((d.digits.map digitText).take d.point.toNat) = 0 := by
    rw [← List.map_take]
    exact lineFeeds_digitText fun x hx => h x (List.mem_of_mem_take hx)
  have hpart : Text.lineFeeds ((d.digits.map digitText).drop d.point.toNat) = 0 := by
    rw [← List.map_drop]
    exact lineFeeds_digitText fun x hx => h x (List.mem_of_mem_drop hx)
  have hpoint : Text.lineFeeds "0." = 0 := by decide
  unfold positional
  dsimp only
  split
  · rw [Text.lineFeeds_append, Text.lineFeeds_append, hpoint, hzeros, lineFeeds_digitText h]
  · rw [Text.lineFeeds_append, Text.lineFeeds_append, hwhole, hzeros, Nat.zero_add]
    split
    · split <;> decide
    · rw [Text.lineFeeds_cons_of_ne (by decide), hpart]

theorem lineFeeds_exponential (h : d.Decimal) : d.exponential.lineFeeds = 0 := by
  have hlead : Text.lineFeeds ((d.digits.take 1).map digitText) = 0 :=
    lineFeeds_digitText fun x hx => h x (List.mem_of_mem_take hx)
  have hpart : Text.lineFeeds ((d.digits.drop 1).map digitText) = 0 :=
    lineFeeds_digitText fun x hx => h x (List.mem_of_mem_drop hx)
  have hexponent := Text.lineFeeds_ofNat (d.point - 1).natAbs
  unfold exponential
  dsimp only
  rw [Text.lineFeeds_append, Text.lineFeeds_append, Text.lineFeeds_append, hlead, Nat.zero_add]
  split <;> split <;> split <;>
    simp only [Text.lineFeeds_cons_of_ne (c := CodePoint.ofChar '.') (by decide),
      Text.lineFeeds_cons_of_ne (c := CodePoint.ofChar '0') (by decide), hpart, hexponent, Text.lineFeeds_nil] <;>
    decide

end Digits

/-- The text of a float is one line. -/
theorem Decimal.lineFeeds_shortest (x : Float) : (Decimal.shortest x).lineFeeds = 0 := by
  have hsign (b : Bool) {t : Text} (ht : t.lineFeeds = 0) : Text.lineFeeds (if b then "-" ++ t else t) = 0 := by
    have hminus : Text.lineFeeds "-" = 0 := by decide
    split_ifs
    · rw [Text.lineFeeds_append, hminus, ht]
    · exact ht
  unfold Decimal.shortest
  split
  · decide
  · split_ifs <;> decide
  · next m e lone _ =>
    refine hsign _ ?_
    dsimp only
    split_ifs
    · decide
    · exact Digits.lineFeeds_positional (Digits.decimal_shortest m e lone) true
    · exact Digits.lineFeeds_exponential (Digits.decimal_shortest m e lone)

end HostedLua
