import HostedLua.Proofs.Excerpt.Boundaries
import HostedLua.Proofs.Excerpt.Told
import HostedLua.Proofs.Lua.Refused
import HostedLua.Proofs.Text.Digits
import Mathlib.Data.Nat.Digits.Defs

/-! How the refusal of a chunk is told. Its message says that loading has failed and cites the line that the refusal
names, so that it can be told whenever the number of that line can be read (`formatLuaError_refusal`); and what is told
of an error starts with the outcome that the error has (`formatLuaError_starts`). -/

namespace HostedLua

open Host

open Lua (Malformed)

/-! ### The number of a line -/

namespace Text

/-- A number is written in decimal digits. -/
theorem decimal_ofNat (n : Nat) : ∀ c ∈ ofNat n, c.decimal?.isSome = true := by
  rw [ofNat, ofString, List.forall_mem_map]
  intro c hc
  have hdigit := digit_of_mem_toString hc
  have hval : (CodePoint.ofChar c).val = c.toNat := rfl
  have hin : (CodePoint.ofChar c).isDigit = true := by
    simp only [CodePoint.isDigit, CodePoint.within, Bool.and_eq_true, decide_eq_true_iff, hval]
    exact hdigit
  rw [CodePoint.decimal?, if_pos (by omega), if_pos hin]
  rfl

theorem length_ofNat (n : Nat) : (ofNat n).length = (Nat.toDigits 10 n).length := by
  rw [ofNat, ofString, List.length_map, Nat.toString_eq_repr, Nat.toList_repr]

theorem ofNat_ne_nil (n : Nat) : ofNat n ≠ [] := by
  rw [ne_eq, ← List.length_eq_zero_iff, length_ofNat, List.length_eq_zero_iff]
  exact Nat.toDigits_ne_nil

end Text

namespace Bytes

variable {s : String}

theorem lt_of_mem_ofString (h : ∀ c ∈ s.toList, c.toNat < 0x80) : ∀ x ∈ ofString s, x < 0x80 := by
  rw [ofString, List.forall_mem_map]
  intro c hc
  have hlt := h c hc
  rw [UInt8.lt_iff_toNat_lt, Utf8.toNat_ofNat (by omega)]
  exact hlt

/-- The bytes of an ASCII literal are the code points of the same numbers. -/
theorem widen_ofString (h : ∀ c ∈ s.toList, c.toNat < 0x80) : (ofString s).widen = Text.ofString s := by
  rw [ofString, widen, List.map_map, Text.ofString]
  refine List.map_congr_left fun c hc => Fin.ext ?_
  have hlt := h c hc
  rw [Function.comp_apply, Utf8.toNat_ofNat (by omega), CodePoint.val_ofNat (by omega)]
  rfl

/-- Every set reads an ASCII literal as it is written. -/
theorem decodeEscaped_ofString (cs : Charset) (h : ∀ c ∈ s.toList, c.toNat < 0x80) (rest : Bytes) :
    cs.decodeEscaped (ofString s ++ rest) = s ++ cs.decodeEscaped rest := by
  rw [cs.decodeEscaped_ascii_append (lt_of_mem_ofString h), widen_ofString h]

end Bytes

/-! ### The message of a refusal -/

theorem Place.findFrom_here {t digits : Text} {start n : Nat} (h : here? t = some (n, digits)) :
    findFrom start t = some ⟨start, start + n, digits⟩ := by
  rw [findFrom.eq_def, h]

namespace Lua.Malformed

variable {e : Malformed} {n : Nat}

/-- What the host is told of a refusal. -/
def told (cs : Charset) (e : Malformed) : Text := "error loading code: " ++ cs.decodeEscaped e.message

/-- The message of a refusal cites the line that it names. -/
theorem decodeEscaped_message (cs : Charset) (h : e.line ≠ 0) : ∃ rest, cs.decodeEscaped e.message =
    "[string \"<python>\"]" ++ ((":" : Text) ++ (Text.ofNat e.line ++ ((":" : Text) ++ (" " ++ rest)))) := by
  have hname : ∀ c ∈ ("[string \"<python>\"]" : String).toList, c.toNat < 0x80 := by simp
  have hplace : ∀ c ∈ (":" ++ toString e.line ++ ": ").toList, c.toNat < 0x80 := by
    intro c hc
    rw [String.toList_append, String.toList_append, List.mem_append, List.mem_append] at hc
    rcases hc with (hc | hc) | hc
    · exact (by simp : ∀ c ∈ ":".toList, c.toNat < 0x80) c hc
    · exact Nat.lt_of_le_of_lt (digit_of_mem_toString hc).2 (by decide)
    · exact (by simp : ∀ c ∈ ": ".toList, c.toNat < 0x80) c hc
  obtain ⟨text, htext⟩ : ∃ text, e.message = atPosition e.line text := ⟨_, if_neg h⟩
  rw [htext, atPosition, chunkName, List.append_assoc, Bytes.decodeEscaped_ofString cs hname,
    Bytes.decodeEscaped_ofString cs hplace]
  refine ⟨cs.decodeEscaped text, congrArg _ ?_⟩
  rw [Text.ofString, String.toList_append, String.toList_append, List.map_append, List.map_append, List.append_assoc,
    List.append_assoc]
  rfl

/-- The number of the line is what stands as the line of the first place in what is told; no place is told of what nests
too deep. -/
theorem find_told (cs : Charset) (h : e.Names n) : (∃ k, Place.find (e.told cs) = some ⟨20, k, Text.ofNat e.line⟩) ∨
    e = overflow ∧ Place.find (e.told cs) = none := by
  rcases h with ⟨hline, -⟩ | rfl
  · obtain ⟨rest, hmessage⟩ := e.decodeEscaped_message cs (Nat.ne_of_gt hline)
    have named : ChunkName "[string \"<python>\"]" := @ChunkName.quoted "<python>" (by simp [Text.ofString]; decide)
    let c : Citation (cs.decodeEscaped e.message) :=
      ⟨[], _, Text.ofNat e.line, " ", rest, named, Text.ofNat_ne_nil _, Text.decimal_ofNat _,
        List.all_eq_true.mp (by cbv), hmessage.symm⟩
    have hhere := Place.here?_citation c rfl
    have hskip : Place.find (e.told cs) = Place.findFrom 20 (cs.decodeEscaped e.message) := rfl
    exact .inl ⟨_, hskip.trans (Place.findFrom_here hhere)⟩
  · have hmessage : overflow.told cs = "error loading code: C stack overflow" := by
      have hread := Bytes.decodeEscaped_ofString (s := "C stack overflow") cs (by simp) []
      rw [List.append_nil, Charset.decodeEscaped_nil, List.append_nil] at hread
      exact congrArg (("error loading code: " : Text) ++ ·) hread
    rw [hmessage]
    exact .inr ⟨rfl, by decide +kernel⟩

end Lua.Malformed

namespace Bridge

variable {w w' : World} {source : Value}

/-- What is told of an error starts with the outcome of the error. -/
theorem formatLuaError_starts {e : LuaError} {text : Text} {line : Option Int}
    (h : formatLuaError e source w = some (.ok (text, line), w')) : ∃ rest, text = e.status.name ++ ": " ++ rest := by
  rw [formatLuaError] at h
  cases hfind : Place.find e.message with
  | none =>
    rw [hfind] at h
    obtain ⟨h, -⟩ := ok_inj h
    exact ⟨_, (congrArg Prod.fst h).symm⟩
  | some p =>
    rw [hfind] at h
    dsimp only at h
    cases hread : Integer.read p.digits with
    | error err =>
      rw [hread] at h
      cases h
    | ok number =>
      rw [hread] at h
      obtain ⟨h, -⟩ := ok_inj h
      obtain rfl := congrArg Prod.fst h
      dsimp only
      split_ifs
      · exact ⟨_, rfl⟩
      · exact ⟨_, (List.append_assoc ..).trans (List.append_assoc ..)⟩

/-- A refusal that names one of not too many lines can be told. -/
theorem formatLuaError_refusal {e : Malformed} {n : Nat} (h : e.Names n) (few : n < 10 ^ Integer.maxDigits) (cs : Charset)
    (status : ErrorStatus) (source : Value) (w : World) :
    ∃ told, formatLuaError ⟨status, e.told cs⟩ source w = some (.ok told, w) := by
  rcases e.find_told cs h with ⟨k, hfind⟩ | ⟨-, hfind⟩
  · have hline : e.line < 10 ^ Integer.maxDigits := by
      rcases h with ⟨-, hline⟩ | rfl
      · exact Nat.lt_of_le_of_lt hline few
      · exact Nat.lt_of_le_of_lt (Nat.zero_le n) few
    have hread := Integer.read_decimal (Text.ofNat_ne_nil e.line) (Text.decimal_ofNat e.line)
      (Text.length_ofNat_le (by decide) hline)
    simp only [formatLuaError, hfind, hread]
    exact ⟨_, rfl⟩
  · simp only [formatLuaError, hfind]
    exact ⟨_, rfl⟩

end Bridge

end HostedLua
