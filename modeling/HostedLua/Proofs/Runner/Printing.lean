import HostedLua.Proofs.Crossing.PassThrough
import HostedLua.Proofs.Evolution.Keeps
import HostedLua.Proofs.Text.Lossy

/-! Strings that Lua code prints. The host has a string as text with escapes in it, or as bytes where there is no
encoding; its printed text is that of its bytes in UTF-8, broken parts replaced, so that escapes never show. -/

namespace HostedLua

open Host

namespace Bridge

variable {E : Engine} {w : World} {state : Nat} {s : LuaState}

theorem printText_bytes (b : Bytes) (w : World) : printText E (.bytes b) w = some (.ok (Utf8.decodeLossy b), w) := rfl

/-- Text that a set has read is printed as its bytes in UTF-8 are read. -/
theorem printText_decodeEscaped (cs : Charset) (b : Bytes) (w : World) :
    printText E (.text (cs.decodeEscaped b)) w = some (.ok (Utf8.decodeLossy (cs.transcode b)), w) := by
  simp only [printText, Charset.encodeEscaped_utf8]
  rfl

theorem printText_fetch (hs : w.states[state]? = some s) (b : Bytes) :
    (fetch state (.str b) >>= printText E) w = some (.ok (Utf8.decodeLossy (s.charset.transcode b)), w) :=
  (bind_ok (fetch_inl hs rfl)).trans (printText_decodeEscaped s.charset b w)

theorem printText_handed (hs : w.states[state]? = some s) (he : ((w.configs[s.config]?).getD {}).encoding = .none)
    (b : Bytes) : (handed state (.str b) >>= printText E) w = some (.ok (Utf8.decodeLossy b), w) :=
  (bind_ok (handed_bytes hs he)).trans (printText_bytes b w)

/-- A Lua string that reaches the host to be printed has a text with no surrogate in it, whatever set its state reads
strings in. Where that set is UTF-8 or ASCII, and where strings come as bytes because there is no encoding, the text is
the one that its bytes are read as in UTF-8 with a replacement for each broken part. -/
theorem printText_string (hs : w.states[state]? = some s) (b : Bytes) :
    ∃ t, (handed state (.str b) >>= printText E) w = some (.ok t, w) ∧ Text.isClean t = true ∧
      (((w.configs[s.config]?).getD {}).encoding = .none ∨ s.charset = .utf8 ∨ s.charset = .ascii →
        ∀ u, Utf8.Replaced b u ↔ u = t) ∧
      ∃ t', (fetch state (.str b) >>= printText E) w = some (.ok t', w) ∧ Text.isClean t' = true ∧
        (s.charset = .utf8 ∨ s.charset = .ascii → t' = t) := by
  have hset (h : s.charset = .utf8 ∨ s.charset = .ascii) :
      Utf8.decodeLossy (s.charset.transcode b) = Utf8.decodeLossy b := by
    rcases h with h | h <;> rw [h]
    · rfl
    · rw [Charset.transcode_ascii]
  have hfetch := printText_fetch (E := E) hs b
  have hclean := Utf8.isClean_decodeLossy (s.charset.transcode b)
  by_cases he : ((w.configs[s.config]?).getD {}).encoding = .none
  · refine ⟨_, printText_handed hs he b, Utf8.isClean_decodeLossy b, fun _ u => ?_, _, hfetch, hclean, hset⟩
    exact Utf8.replaced_iff
  · have hsame : handed state (.str b) w = fetch state (.str b) w := handed_eq_fetch hs fun _ _ => he
    have hhanded : (handed state (.str b) >>= printText E) w = (fetch state (.str b) >>= printText E) w := by
      rw [bind_apply, hsame, ← bind_apply]
    refine ⟨_, hhanded.trans hfetch, hclean, fun h u => ?_, _, hfetch, hclean, fun _ => rfl⟩
    rw [hset (h.resolve_left he)]
    exact Utf8.replaced_iff

/-- A euro sign that is cut short before a letter, and a byte that no sequence has: they are printed alike under UTF-8,
under ASCII and without an encoding. -/
theorem printText_string_cut :
    let s (cs : Charset) : LuaState :=
      { config := 0, diagnostics := 0, charset := cs, machine := { heap := {} }, globals := 0 }
    let w (encoding : Value) (cs : Charset) : World :=
      { configs := #[{ encoding }], diagnostics := #[[]], states := #[s cs] }
    let printed (w : World) := (handed 0 (.str [0xE2, 0x82, 0x41, 0xFF]) >>= printText (engine 1)) w
    let text : Text := [Utf8.replacement, .ofChar 'A', Utf8.replacement]
    (∀ encoding cs, (w encoding cs).states[0]? = some (s cs)) ∧
      printed (w (.text "UTF-8") .utf8) = some (.ok text, w (.text "UTF-8") .utf8) ∧
      printed (w (.text "ascii") .ascii) = some (.ok text, w (.text "ascii") .ascii) ∧
      printed (w .none .cp1252) = some (.ok text, w .none .cp1252) := by
  intro s w printed text
  have hs (encoding : Value) (cs : Charset) : (w encoding cs).states[0]? = some (s cs) := rfl
  have htext : Utf8.Replaced [0xE2, 0x82, 0x41, 0xFF] text := Utf8.replaced_iff.mpr (by cbv)
  have hprinted (encoding : Value) (cs : Charset) (h : encoding = .none ∨ cs = .utf8 ∨ cs = .ascii) :
      printed (w encoding cs) = some (.ok text, w encoding cs) := by
    obtain ⟨t, hrun, -, hread, -⟩ := printText_string (E := engine 1) (hs encoding cs) [0xE2, 0x82, 0x41, 0xFF]
    rwa [← (hread h text).mp htext] at hrun
  exact ⟨hs, hprinted _ _ (.inr (.inl rfl)), hprinted _ _ (.inr (.inr rfl)), hprinted _ _ (.inl rfl)⟩

end Bridge

end HostedLua
