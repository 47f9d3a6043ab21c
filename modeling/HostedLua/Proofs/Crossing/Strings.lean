import HostedLua.Host.Equality
import HostedLua.Proofs.Crossing.PassThrough
import HostedLua.Proofs.Text.Decoding

/-! Strings as the host gets them. A string comes as text if it is decodable throughout in the encoding of its state, and
as its bytes otherwise. Strings that differ come as values that are not equal. -/

namespace HostedLua

open Host

namespace Charset

variable {cs : Charset} {b b' : Bytes} {t : Text}

/-- A string in its host form: its text if it is decodable throughout, else its bytes. -/
def hostForm (cs : Charset) (b : Bytes) : Value :=
  match cs.decode? b with
  | some t => .text t
  | none => .bytes b

theorem hostForm_eq : cs.hostForm b = if (cs.decodeEscaped b).isClean then .text (cs.decodeEscaped b) else .bytes b := by
  rw [hostForm]
  cases h : cs.decode? b with
  | none => rw [if_neg (not_isClean_of_decode?_none h)]
  | some t =>
    obtain ⟨rfl, hclean⟩ := decodeEscaped_of_decode? h
    rw [if_pos hclean]

theorem hostForm_eq_text_iff : cs.hostForm b = .text t ↔ cs.decode? b = some t := by
  rw [hostForm]
  cases cs.decode? b <;> simp

theorem hostForm_eq_bytes_iff : cs.hostForm b = .bytes b ↔ ¬ cs.Decodable b := by
  rw [hostForm, ← isSome_decode?_iff]
  cases cs.decode? b <;> simp

/-- The host forms of strings are equal for the host only if the strings are the same. -/
theorem scalarEq_hostForm (h : (cs.hostForm b).scalarEq (cs.hostForm b') = true) : b = b' := by
  rw [hostForm_eq, hostForm_eq] at h
  split at h <;> split at h
  · exact decodeEscaped_injective (by simpa [Value.scalarEq] using h)
  · exact absurd h Bool.false_ne_true
  · exact absurd h Bool.false_ne_true
  · simpa [Value.scalarEq] using h

theorem valueEq_hostForm (w : World) (depth : Nat) :
    w.valueEq depth (cs.hostForm b) (cs.hostForm b') = (cs.hostForm b).scalarEq (cs.hostForm b') := by
  cases depth with
  | zero => rfl
  | succ depth =>
    rw [hostForm_eq, hostForm_eq]
    split <;> split <;> simp [World.valueEq, World.object?]

/-! ### Strings under any encoding -/

/-- A string as the host has it: its text if it is decodable throughout; else its bytes, which without an encoding are
those of UTF-8. -/
def shown (cs : Charset) (encoding : Value) (b : Bytes) : Value :=
  if (cs.decodeEscaped b).isClean then .text (cs.decodeEscaped b)
  else match encoding with
    | .none => .bytes (cs.transcode b)
    | _ => .bytes b

/-- Under an encoding a string has its host form. -/
theorem shown_eq_hostForm {encoding : Value} (he : encoding ≠ .none) : cs.shown encoding b = cs.hostForm b := by
  rw [hostForm_eq]
  cases encoding with
  | none => exact absurd rfl he
  | _ => rfl

theorem shown_eq (cs : Charset) (encoding : Value) (b : Bytes) :
    (∃ t, cs.shown encoding b = .text t) ∨ ∃ b', cs.shown encoding b = .bytes b' := by
  unfold shown
  split
  · exact .inl ⟨_, rfl⟩
  · cases encoding <;> exact .inr ⟨_, rfl⟩

theorem shown_ne_obj (cs : Charset) (encoding : Value) (b : Bytes) (id : Nat) : cs.shown encoding b ≠ .obj id := by
  rcases cs.shown_eq encoding b with ⟨t, h⟩ | ⟨b', h⟩ <;> exact h ▸ Value.noConfusion

/-- Strings that come to the host as equal values are the same, whether there is an encoding or not. -/
theorem scalarEq_shown {encoding : Value} (h : (cs.shown encoding b).scalarEq (cs.shown encoding b') = true) :
    b = b' := by
  by_cases he : encoding = .none
  · subst he
    rw [shown, shown] at h
    split at h <;> split at h
    · exact decodeEscaped_injective (by simpa [Value.scalarEq] using h)
    · exact absurd h Bool.false_ne_true
    · exact absurd h Bool.false_ne_true
    · exact transcode_injective (by simpa [Value.scalarEq] using h)
  · rw [shown_eq_hostForm he, shown_eq_hostForm he] at h
    exact scalarEq_hostForm h

end Charset

namespace Bridge

variable {E : Engine} {w : World} {state : Nat} {s : LuaState} {encoding : Value}

/-- A string comes to the host in its host form. -/
theorem toHost_str (hs : w.Serves state s encoding) (he : encoding ≠ .none) (b : Bytes) :
    (fetch state (.str b) >>= toHost E state) w = some (.ok (s.charset.hostForm b), w) := by
  have hfetch : fetch state (.str b) w = some (.ok (.text (s.charset.decodeEscaped b)), w) := fetch_inl hs.found rfl
  rw [bind_ok hfetch, toHost, bind_ok (configOf_apply hs.found), hs.encoding_eq,
    hostText_decodeEscaped (hs.charset.resolve_left he), Charset.hostForm_eq]

theorem hostText_shown (hs : w.Serves state s encoding) (b : Bytes) (v : World) :
    hostText (s.charset.decodeEscaped b) encoding v = some (.ok (s.charset.shown encoding b), v) := by
  by_cases he : encoding = .none
  · subst he
    have hutf8 : charset? (.text "utf-8") = some .utf8 := by decide +kernel
    rw [Charset.shown]
    unfold hostText
    split_ifs
    · rfl
    · simp [hutf8, Charset.encodeEscaped_utf8]
  · rw [hostText_decodeEscaped (hs.charset.resolve_left he), Charset.shown_eq_hostForm he, Charset.hostForm_eq]

/-- Every string comes to the host, without a fault: as the text that it is decoded as if it is decodable throughout in
the encoding of the state, which text has no surrogate in it, and else as its bytes. Strings that differ come as values
that are not equal. -/
theorem strings_classified (hs : w.Serves state s encoding) (he : encoding ≠ .none) (b : Bytes) :
    ∃ v, (fetch state (.str b) >>= toHost E state) w = some (.ok v, w) ∧
      (∀ t, v = .text t ↔ s.charset.decode? b = some t) ∧ (v = .bytes b ↔ ¬ s.charset.Decodable b) ∧
      (∀ t, v = .text t → Text.isClean t) ∧
      ∀ b' v', (fetch state (.str b') >>= toHost E state) w = some (.ok v', w) → b ≠ b' →
        ∀ (w' : World) depth, w'.valueEq depth v v' = false := by
  refine ⟨_, toHost_str hs he b, fun t => Charset.hostForm_eq_text_iff, Charset.hostForm_eq_bytes_iff, fun t ht => ?_,
    fun b' v' hv' hne w' depth => ?_⟩
  · exact (Charset.decodeEscaped_of_decode? (Charset.hostForm_eq_text_iff.mp ht)).2
  · obtain ⟨rfl, -⟩ := ok_inj ((toHost_str hs he b').symm.trans hv')
    rw [Charset.valueEq_hostForm, Bool.eq_false_iff]
    exact fun heq => hne (Charset.scalarEq_hostForm heq)

/-- A string of code page 1252 with one byte that the page leaves undefined comes as its bytes, and the accented letter
behind that byte is no text on its own. -/
theorem strings_classified_undefined :
    let s : LuaState := { config := 0, diagnostics := 0, charset := .cp1252, machine := { heap := {} }, globals := 0 }
    let w : World := { configs := #[{ encoding := .text "cp1252" }], diagnostics := #[[]], states := #[s] }
    w.Serves 0 s (.text "cp1252") ∧ Value.text "cp1252" ≠ .none ∧
      (fetch 0 (.str [0x81, 0xE9]) >>= toHost (engine 1) 0) w = some (.ok (.bytes [0x81, 0xE9]), w) := by
  intro s w
  have hs : w.Serves 0 s (.text "cp1252") := ⟨⟨rfl, rfl, rfl⟩, rfl, .inr (by decide +kernel)⟩
  have he : Value.text "cp1252" ≠ .none := Value.noConfusion
  obtain ⟨v, hv, -, hbytes, -⟩ := strings_classified (E := engine 1) hs he [0x81, 0xE9]
  have hundefined : ¬ s.charset.Decodable [0x81, 0xE9] := fun h => h 0x81 List.mem_cons_self List.mem_cons_self
  rw [hbytes.mpr hundefined] at hv
  exact ⟨hs, he, hv⟩

end Bridge

end HostedLua
