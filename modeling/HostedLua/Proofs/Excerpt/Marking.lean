import HostedLua.Proofs.Excerpt.Boundaries
import HostedLua.Proofs.Text.Digits

/-! Which line an excerpt marks. Around the line that the lexer reports, the row with the mark shows the
line that Lua means where both ways to count lines agree up to it; `around_marks_iff` says that the two
exceptions are a line with a boundary inside that only display counts, and the empty line at the end. -/

namespace HostedLua

namespace Text

variable {sep t : Text} {ts : List Text} {c : CodePoint}

theorem mem_join_of_mem (ht : t ∈ ts) (hc : c ∈ t) : c ∈ join sep ts := by
  fun_induction join sep ts with
  | case1 => contradiction
  | case2 u =>
    obtain rfl := List.mem_singleton.mp ht
    exact hc
  | case3 u us _ ih =>
    rcases List.mem_cons.mp ht with rfl | ht
    · exact List.mem_append_left _ (List.mem_append_left _ hc)
    · exact List.mem_append_right _ (ih ht)

theorem mem_of_mem_join (h : c ∈ join sep ts) : c ∈ sep ∨ ∃ t ∈ ts, c ∈ t := by
  fun_induction join sep ts with
  | case1 => contradiction
  | case2 u => exact .inr ⟨u, List.mem_singleton_self u, h⟩
  | case3 u us _ ih =>
    rcases List.mem_append.mp h with h | h
    · rcases List.mem_append.mp h with h | h
      · exact .inr ⟨u, List.mem_cons_self .., h⟩
      · exact .inl h
    · rcases ih h with h | ⟨t, ht, hc⟩
      · exact .inl h
      · exact .inr ⟨t, List.mem_cons_of_mem _ ht, hc⟩

/-- A number in decimal holds no boundary. -/
theorem not_endsLine_ofNat {n : Nat} : ∀ c ∈ ofNat n, c.endsLine = false := by
  intro c hc
  simp only [ofNat, ofString, toString, Nat.repr, String.toList_ofList, List.mem_map] at hc
  obtain ⟨x, hx, rfl⟩ := hc
  have hdigit := Nat.isDigit_of_mem_toDigits (by decide) (by decide) hx
  simp only [Char.isDigit, Bool.and_eq_true, decide_eq_true_iff, ge_iff_le, UInt32.le_iff_toNat_le] at hdigit
  have hval : (CodePoint.ofChar x).val = x.val.toNat := rfl
  have hlow : 48 ≤ x.val.toNat := hdigit.1
  have hhigh : x.val.toNat ≤ 57 := hdigit.2
  simp only [CodePoint.endsLine, hval, Bool.or_eq_false_iff, Bool.and_eq_false_iff, decide_eq_false_iff_not]
  omega

end Text

namespace Excerpt

variable {lines : List Text} {line : Nat} {shown : Text}

/-- An excerpt marks a numbered line and shows a text for it; no other row has a mark. -/
def Marks (excerpt : Text) (line : Nat) (shown : Text) : Prop :=
  ∃ (above below : List Text) (width : Nat),
    excerpt = Text.join "\n"
      (above ++ (">" ++ " " ++ Text.padLeft width (Text.ofNat line) ++ " | " ++ shown) :: below) ∧
    ∀ row ∈ above ++ below, row.head? = some (CodePoint.ofChar ' ')

theorem marks_around (h : 1 ≤ line ∧ line ≤ lines.length) (hshown : lines[line - 1]? = some shown) :
    Marks (around lines line 2) line shown := by
  rw [around_of_mem h]
  have hmem : line ∈ List.range' (max 1 (line - 2)) (min lines.length (line + 2) + 1 - max 1 (line - 2)) := by
    rw [List.mem_range'_1]
    omega
  obtain ⟨above, below, heq⟩ := List.append_of_mem hmem
  have hnodup : (List.range' (max 1 (line - 2)) (min lines.length (line + 2) + 1 - max 1 (line - 2))).Nodup :=
    List.nodup_range' 1 (by decide)
  rw [heq, List.nodup_append, List.nodup_cons] at hnodup
  have hrow : rowText lines line (min lines.length (line + 2)) line =
      ">" ++ " " ++ Text.padLeft (Text.ofNat (min lines.length (line + 2))).length (Text.ofNat line) ++ " | " ++ shown := by
    rw [rowText, if_pos rfl, List.getD_eq_getElem?_getD, hshown, Option.getD_some]
  let text := rowText lines line (min lines.length (line + 2))
  refine ⟨above.map text, below.map text, (Text.ofNat (min lines.length (line + 2))).length, ?_, ?_⟩
  · rw [rows, heq, List.map_append, List.map_cons, hrow]
  · intro row hrow
    rw [← List.map_append] at hrow
    obtain ⟨i, hi, rfl⟩ := List.mem_map.mp hrow
    have hne : i ≠ line := by
      rintro rfl
      rcases List.mem_append.mp hi with hi | hi
      · exact hnodup.2.2 i hi i (List.mem_cons_self ..) rfl
      · exact hnodup.2.1.1 hi
    simp only [text, rowText, if_neg hne]
    rfl

theorem not_endsLine_of_mem_rowText {last i : Nat} (inner : ∀ t ∈ lines, ∀ c ∈ t, c.endsLine = false) :
    ∀ c ∈ rowText lines line last i, c.endsLine = false := by
  have literal (s : String) (h : (Text.ofString s).all (!·.endsLine) = true) : ∀ c ∈ Text.ofString s, c.endsLine = false := by
    simpa using h
  intro c hc
  simp only [rowText, Text.padLeft, Text.spaces, List.mem_append] at hc
  rcases hc with ((((hc | hc) | hc | hc) | hc) | hc)
  · split at hc
    · exact literal ">" (by decide) c hc
    · exact literal " " (by decide) c hc
  · exact literal " " (by decide) c hc
  · obtain rfl := List.eq_of_mem_replicate hc
    decide
  · exact Text.not_endsLine_ofNat c hc
  · exact literal " | " (by decide) c hc
  · rw [List.getD_eq_getElem?_getD] at hc
    cases hline : lines[i - 1]? with
    | none => rw [hline] at hc; contradiction
    | some t =>
      rw [hline] at hc
      exact inner t (List.mem_of_getElem? hline) c hc

/-- The only boundaries in an excerpt are the line feeds between its rows. -/
theorem eq_lineFeed_of_mem_around {c : CodePoint} (inner : ∀ t ∈ lines, ∀ c ∈ t, c.endsLine = false)
    (hc : c ∈ around lines line 2) (hends : c.endsLine = true) : c = '\n' := by
  by_cases hin : 1 ≤ line ∧ line ≤ lines.length
  · rw [around_of_mem hin] at hc
    rcases Text.mem_of_mem_join hc with hc | ⟨row, hrow, hc⟩
    · exact List.mem_singleton.mp hc
    · obtain ⟨i, -, rfl⟩ := List.mem_map.mp hrow
      have hfalse := not_endsLine_of_mem_rowText inner c hc
      rw [hends] at hfalse
      contradiction
  · rw [around_of_not_mem hin] at hc
    contradiction

theorem not_marks_nil : ¬ Marks [] line shown := by
  rintro ⟨above, below, width, heq, -⟩
  have : CodePoint.ofChar '>' ∈ ([] : Text) := by
    rw [heq]
    exact Text.mem_join_of_mem (List.mem_append_right _ (List.mem_cons_self ..)) (by simp [Text.ofString])
  contradiction

theorem mem_of_marks {excerpt : Text} (h : Marks excerpt line shown) : ∀ c ∈ shown, c ∈ excerpt := by
  obtain ⟨above, below, width, rfl, -⟩ := h
  intro c hc
  exact Text.mem_join_of_mem (List.mem_append_right _ (List.mem_cons_self ..)) (List.mem_append_right _ hc)

end Excerpt

open Lua (Lexeme Malformed)

/-- Around the line that the lexer reports for a token or a failure there is a line as Lua counts them.
Where both ways to count lines agree on the lines before, the excerpt marks that line unless a boundary
inside it counts for display only, or it is the empty line at the end, which gets no excerpt. -/
theorem around_marks_iff {cs : Charset} {source : Text} {bs : Bytes} {entry : Except Malformed Lexeme}
    (encoded : cs.encodeEscaped source = .ok bs) (mem : entry ∈ Lexeme.ofBytes bs) :
    1 ≤ Lexeme.reported entry ∧ ∃ l, source.chunkLines[Lexeme.reported entry - 1]? = some l ∧
      ((∀ m ∈ source.chunkLines.take (Lexeme.reported entry - 1), m.Agrees) →
        (Excerpt.Marks (Excerpt.around source.lines (Lexeme.reported entry) 2) (Lexeme.reported entry) l.text ↔
          l.Plain ∧ l ≠ .empty) ∧
        (l = .empty → Excerpt.around source.lines (Lexeme.reported entry) 2 = [])) := by
  obtain ⟨hlow, hhigh⟩ := Lexeme.ofBytes_line mem
  rw [Nat.add_comm, ← Charset.length_chunkLines encoded] at hhigh
  generalize Lexeme.reported entry = line at hlow hhigh ⊢
  refine ⟨hlow, _, List.getElem?_eq_getElem (show line - 1 < source.chunkLines.length by omega), fun before => ?_⟩
  have hl := List.getElem?_eq_getElem (show line - 1 < source.chunkLines.length by omega)
  generalize source.chunkLines[line - 1] = l at hl ⊢
  have last (h : l = .empty) : Excerpt.around source.lines line 2 = [] := by
    subst h
    have hshown := Text.lines_getElem? hl before (by simp [ChunkLine.Plain, ChunkLine.empty])
    rw [if_pos rfl, List.getElem?_eq_none_iff] at hshown
    exact Excerpt.around_of_not_mem (by omega)
  refine ⟨⟨fun hmarks => ⟨?_, ?_⟩, fun shown => ?_⟩, last⟩
  · -- a boundary inside the line would stand in the excerpt as well
    intro c hc
    by_contra hsplits
    obtain ⟨hends, hbreak⟩ := Bool.and_eq_true_iff.mp (Bool.not_eq_false _ ▸ hsplits)
    obtain rfl := Excerpt.eq_lineFeed_of_mem_around (fun t => Text.not_endsLine_of_mem_lines)
      (Excerpt.mem_of_marks hmarks c hc) hends
    contradiction
  · intro h
    rw [last h] at hmarks
    exact Excerpt.not_marks_nil hmarks
  · have hshown := Text.lines_getElem? hl before shown.1
    rw [if_neg shown.2] at hshown
    have hlt := (List.getElem?_eq_some_iff.mp hshown).1
    exact Excerpt.marks_around ⟨hlow, by omega⟩ hshown

/-- The second line, after a carriage return and a line feed. -/
theorem around_marks_iff_pair :
    let source : Text := "a\r\nb"
    let entry : Except Malformed Lexeme := .ok ⟨.name [98], 2, [98]⟩
    Charset.utf8.encodeEscaped source = .ok [97, 13, 10, 98] ∧ entry ∈ Lexeme.ofBytes [97, 13, 10, 98] ∧
      Excerpt.Marks (Excerpt.around source.lines 2 2) 2 "b" := by
  intro source entry
  have encoded : Charset.utf8.encodeEscaped source = .ok [97, 13, 10, 98] := by decide
  have scanned : Lexeme.ofBytes [97, 13, 10, 98] =
      [.ok ⟨.name [97], 1, [97]⟩, entry, .ok ⟨.eof, 2, []⟩] := by rfl
  have mem : entry ∈ Lexeme.ofBytes [97, 13, 10, 98] := by
    rw [scanned]
    exact List.mem_cons_of_mem _ (List.mem_cons_self ..)
  have hlines : source.chunkLines = [⟨"a", "\r\n"⟩, ⟨"b", []⟩] := by decide
  refine ⟨encoded, mem, ?_⟩
  obtain ⟨-, l, hl, hmarks⟩ := around_marks_iff encoded mem
  rw [show Lexeme.reported entry = 2 from rfl, hlines] at hl hmarks
  obtain rfl := Option.some.inj hl
  refine (hmarks fun m hm => ?_).1.mpr ⟨?_, by decide⟩
  · obtain rfl := List.mem_singleton.mp hm
    exact ⟨by simp [ChunkLine.Plain, Text.ofString]; decide, by decide⟩
  · simp [ChunkLine.Plain, Text.ofString]; decide

end HostedLua
