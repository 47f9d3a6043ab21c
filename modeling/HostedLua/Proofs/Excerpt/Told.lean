import HostedLua.Proofs.Bridge.Run
import HostedLua.Proofs.Excerpt.Citation
import HostedLua.Runner
import Mathlib.Logic.IsEmpty.Basic

/-! How an error is told. The first citation in its message gives the line and is left out, and the rows
around that line follow where the source has it; `formatLuaError_cited` puts the two together. -/

namespace HostedLua

namespace CodePoint

variable {c : CodePoint}

/-- The runs of digits lie between the blanks. -/
private theorem zeros_apart : ∀ z ∈ zeros, z = 0x30 ∨ (0xA0 < z ∧ z + 10 ≤ 0x1680) ∨
    (0x1680 < z ∧ z + 10 ≤ 0x2000) ∨ 0x3000 < z := by decide

/-- No digit is white space. -/
theorem decimal?_of_isBlank (h : c.isBlank = true) : c.decimal? = none := by
  simp only [isBlank, Bool.or_eq_true, Bool.and_eq_true, decide_eq_true_iff] at h
  unfold decimal?
  split
  · have : c.isDigit = false := by
      simp only [isDigit, within, Bool.and_eq_false_iff, decide_eq_false_iff_not]
      show ¬ 48 ≤ c.val ∨ ¬ c.val ≤ 57
      omega
    rw [this]
    rfl
  · rw [List.find?_eq_none.mpr, Option.map_none]
    intro z hz hin
    have := zeros_apart z hz
    simp only [Bool.and_eq_true, decide_eq_true_iff] at hin
    omega

end CodePoint

namespace Integer

variable {digits : Text}

theorem digits?_decimal (some : digits ≠ []) (h : ∀ c ∈ digits, c.decimal?.isSome = true) :
    digits? digits = Option.some (digits.filterMap CodePoint.decimal?) := by
  fun_induction digits? digits with
  | case1 => contradiction
  | case2 c =>
    obtain ⟨v, hv⟩ := Option.isSome_iff_exists.mp (h c (List.mem_singleton_self c))
    simp [hv]
  | case3 c d rest hc =>
    have := h c (List.mem_cons_self ..)
    rw [hc] at this
    contradiction
  | case4 | case5 =>
    have := h (CodePoint.ofChar '_') (by simp)
    exact absurd this (by decide +kernel)
  | case6 c d rest v hv _ ih =>
    rw [ih (List.cons_ne_nil _ _) fun x hx => h x (List.mem_cons_of_mem _ hx), List.filterMap_cons_some hv]
    rfl

/-- Text with no white space at either end is not stripped. -/
theorem strip_decimal (h : ∀ c ∈ digits, c.decimal?.isSome = true) : digits.strip = digits := by
  have keep : ∀ t : Text, (∀ c ∈ t, c.decimal?.isSome = true) → t.dropWhile CodePoint.isBlank = t := by
    intro t ht
    cases t with
    | nil => rfl
    | cons c cs =>
      rw [List.dropWhile_cons_of_neg]
      intro hblank
      have := ht c (List.mem_cons_self ..)
      rw [CodePoint.decimal?_of_isBlank hblank] at this
      contradiction
  rw [Text.strip, Text.trim, keep _ h, keep, List.reverse_reverse]
  exact fun c hc => h c (List.mem_reverse.mp hc)

/-- A run of decimal digits that is not too long is read as its value. -/
theorem read_decimal (some : digits ≠ []) (h : ∀ c ∈ digits, c.decimal?.isSome = true)
    (short : digits.length ≤ maxDigits) :
    read digits = .ok (value (digits.filterMap CodePoint.decimal?)) := by
  obtain ⟨c, cs, rfl⟩ := List.exists_cons_of_ne_nil some
  have hc := h c (List.mem_cons_self ..)
  have hminus : c ≠ '-' := fun e => absurd (e ▸ hc) (by decide +kernel)
  have hplus : c ≠ '+' := fun e => absurd (e ▸ hc) (by decide +kernel)
  have hlen : ¬ maxDigits < ((c :: cs).filterMap CodePoint.decimal?).length :=
    Nat.not_lt.mpr ((List.length_filterMap_le _ _).trans short)
  simp only [read, strip_decimal h, hminus, hplus, if_false, digits?_decimal some h, hlen, Bool.false_eq_true]

end Integer

namespace Excerpt

/-- The row of a line: its mark, its number right-aligned to the width of the last one, and its text. -/
def rowText (lines : List Text) (line last i : Nat) : Text :=
  (if i = line then (">" : Text) else " ") ++ " " ++
    Text.padLeft (Text.ofNat last).length (Text.ofNat i) ++ " | " ++ lines.getD (i - 1) []

/-- The rows of the two lines before a line, of the line, and of the two lines after it. -/
def rows (lines : List Text) (line : Nat) : List Text :=
  let first := max 1 (line - 2)
  let last := min lines.length (line + 2)
  (List.range' first (last + 1 - first)).map (rowText lines line last)

/-- What follows a message that cites a line: the rows around it, if there is such a line. -/
def shown (lines : List Text) (line : Nat) : Text :=
  if 1 ≤ line ∧ line ≤ lines.length then "\n" ++ Text.join "\n" (rows lines line) else []

variable {lines : List Text} {line : Nat}

theorem row_eq (last i : Nat) :
    row (decide ((i : Int) = line)) (Text.ofInt last).length i (lines.getD ((i : Int) - 1).toNat []) =
      rowText lines line last i := by
  have hindex : ((i : Int) - 1).toNat = i - 1 := by omega
  have hmark : decide ((i : Int) = line) = decide (i = line) := by simp only [Int.ofNat_inj]
  have htext (n : Nat) : Text.ofInt n = Text.ofNat n := rfl
  rw [row, rowText, hindex, hmark, htext, htext]
  simp only [decide_eq_true_iff]

theorem around_of_mem (h : 1 ≤ line ∧ line ≤ lines.length) :
    around lines line 2 = Text.join "\n" (rows lines line) := by
  have hin : ¬ ((line : Int) < 1 ∨ (lines.length : Int) < line) := by omega
  have hfirst : max (1 : Int) (line - 2) = (max 1 (line - 2) : Nat) := by omega
  have hlast : min (lines.length : Int) (line + 2) = (min lines.length (line + 2) : Nat) := by omega
  have hcount (first last : Nat) : ((last : Int) - first + 1).toNat = last + 1 - first := by omega
  simp only [around, if_neg hin, hfirst, hlast, hcount, rows, List.map_map, List.range'_eq_map_range]
  refine congrArg (Text.join "\n") (List.map_congr_left fun i _ => ?_)
  exact row_eq (min lines.length (line + 2)) (max 1 (line - 2) + i)

theorem around_of_not_mem (h : ¬ (1 ≤ line ∧ line ≤ lines.length)) : around lines line 2 = [] :=
  if_pos (by omega)

/-- A row is not empty, so neither is an excerpt with a row. -/
theorem join_rows_ne_nil (h : 1 ≤ line ∧ line ≤ lines.length) : Text.join "\n" (rows lines line) ≠ [] := by
  have hcount : min lines.length (line + 2) + 1 - max 1 (line - 2) ≠ 0 := by omega
  obtain ⟨n, hn⟩ := Nat.exists_eq_succ_of_ne_zero hcount
  simp only [rows, hn, List.range'_succ, List.map_cons]
  have hrow (i last : Nat) : rowText lines line last i ≠ [] := by simp [rowText, Text.ofString]
  cases hrest : (List.range' (max 1 (line - 2) + 1) n).map (rowText lines line (min lines.length (line + 2))) with
  | nil => exact hrow _ _
  | cons t ts => simp [Text.join, hrow]

/-- The excerpt is empty just where there is no such line. -/
theorem isEmpty_around : (around lines line 2).isEmpty = true ↔ ¬ (1 ≤ line ∧ line ≤ lines.length) := by
  rw [List.isEmpty_iff]
  refine ⟨fun h hin => join_rows_ne_nil hin ?_, around_of_not_mem⟩
  rw [← around_of_mem hin, h]

/-- An excerpt goes on a line of its own after a message. -/
theorem append_shown (message : Text) :
    (if (around lines line 2).isEmpty = true then message else message ++ "\n" ++ around lines line 2) =
      message ++ shown lines line := by
  by_cases hin : 1 ≤ line ∧ line ≤ lines.length
  · rw [if_neg fun h => isEmpty_around.mp h hin, shown, if_pos hin, around_of_mem hin, List.append_assoc]
  · rw [if_pos (isEmpty_around.mpr hin), shown, if_neg hin, List.append_nil]

end Excerpt

namespace Bridge

variable {e : LuaError} {source : Text} {w : World}

theorem formatLuaError_uncited (h : IsEmpty (Citation e.message)) :
    formatLuaError e (.text source) w = some (.ok (e.status.name ++ ": " ++ e.message, none), w) := by
  simp only [formatLuaError, Place.find_none_iff.mpr h]
  rfl

theorem formatLuaError_first {c : Citation e.message} (h : c.IsFirst) (short : c.digits.length ≤ Integer.maxDigits) :
    formatLuaError e (.text source) w =
      some (.ok (e.status.name ++ ": " ++ c.rest ++ Excerpt.shown source.lines c.line, some (c.line : Int)), w) := by
  simp only [formatLuaError, Place.find_first h, Integer.read_decimal c.numbered c.decimal short,
    Place.removeFrom_citation, sourceLines]
  rw [← Excerpt.append_shown]
  rfl

/-- An error is told with the line that its message cites first, if it cites one: the citation with all
the white space after it is left out, and the rows around the line follow just where the source has
that line. -/
theorem formatLuaError_cited (e : LuaError) (source : Text) (w : World)
    (short : ∀ c : Citation e.message, c.IsFirst → c.digits.length ≤ Integer.maxDigits) :
    ∃ text line, formatLuaError e (.text source) w = some (.ok (text, line), w) ∧
      (line.isSome = true ↔ Nonempty (Citation e.message)) ∧
      (line = none → text = e.status.name ++ ": " ++ e.message) ∧
      ∀ n, line = some n → ∃ c : Citation e.message, c.IsFirst ∧ (∀ d : Citation e.message, d.IsFirst → d = c) ∧
        n = c.line ∧ text = e.status.name ++ ": " ++ c.rest ++ Excerpt.shown source.lines c.line := by
  rcases isEmpty_or_nonempty (Citation e.message) with hnone | ⟨⟨c⟩⟩
  · refine ⟨_, _, formatLuaError_uncited hnone, ?_, fun _ => rfl, fun n hn => by contradiction⟩
    simpa using hnone
  · obtain ⟨d, hd⟩ := Place.exists_first c
    refine ⟨_, _, formatLuaError_first hd (short d hd), ⟨fun _ => ⟨d⟩, fun _ => rfl⟩, fun hn => by contradiction, ?_⟩
    intro n hn
    exact ⟨d, hd, fun f hf => hf.unique hd, (Option.some.inj hn).symm, rfl⟩

/-- The message that Lua gives for a failed call, on the second of two lines. -/
theorem formatLuaError_cited_second :
    let e : LuaError := ⟨.runtime, "[string \"<python>\"]:2: boom"⟩
    (∀ c : Citation e.message, c.IsFirst → c.digits.length ≤ Integer.maxDigits) ∧
      formatLuaError e (.text "local x\nerror('boom')") {} =
        some (.ok ("RUNTIME: boom\n  1 | local x\n> 2 | error('boom')", some 2), {}) := by
  intro e
  have short : ∀ c : Citation e.message, c.IsFirst → c.digits.length ≤ Integer.maxDigits := by
    intro c _
    have hlen := congrArg List.length c.whole
    have hmessage : e.message.length = 27 := by decide
    simp only [List.length_append, hmessage] at hlen
    show c.digits.length ≤ 4300
    omega
  have named : ChunkName "[string \"<python>\"]" := @ChunkName.quoted "<python>" (by simp [Text.ofString]; decide)
  let c : Citation e.message :=
    ⟨[], "[string \"<python>\"]", "2", " ", "boom", named, by decide, List.all_eq_true.mp (by cbv), List.all_eq_true.mp (by cbv), rfl⟩
  have first : c.IsFirst := ⟨fun d => Nat.zero_le _, by simp [Citation.IsGreedy, c, Text.ofString]; decide⟩
  obtain ⟨text, line, hrun, hfound, -, hline⟩ := formatLuaError_cited e "local x\nerror('boom')" {} short
  obtain ⟨n, hn⟩ := Option.isSome_iff_exists.mp (hfound.mpr ⟨c⟩)
  obtain ⟨d, -, unique, rfl, rfl⟩ := hline n hn
  obtain rfl := unique c first
  refine ⟨short, hrun.trans ?_⟩
  rw [hn]
  have hshown : Excerpt.shown (Text.lines "local x\nerror('boom')") 2 = "\n  1 | local x\n> 2 | error('boom')" := by cbv
  have hone : c.line = 2 := by cbv
  have htext : ("RUNTIME" ++ ": " ++ "boom" ++ "\n  1 | local x\n> 2 | error('boom')" : Text) =
      "RUNTIME: boom\n  1 | local x\n> 2 | error('boom')" := by decide +kernel
  rw [hone, hshown, ← htext]
  rfl

/-- A path that is its ending alone is not cited, though it is a run of path characters that ends in
`.lua`, nor is a name in angle brackets with a tab in it, though it holds no space. -/
theorem formatLuaError_uncited_ending :
    ((".lua" : Text).all Place.isPathChar ∧ (".lua" : Text) <:+ ".lua" ∧
      formatLuaError ⟨.runtime, ".lua" ++ ":" ++ "3" ++ ":" ++ " boom"⟩ (.text "a\nb\nc") {} =
        some (.ok ("RUNTIME: .lua:3: boom", none), {})) ∧
    (∀ c ∈ ("a\tb" : Text), c ≠ CodePoint.ofChar ' ' ∧ c ≠ CodePoint.ofChar '>') ∧
      formatLuaError ⟨.runtime, "<" ++ "a\tb" ++ ">" ++ ":" ++ "3" ++ ":" ++ " boom"⟩ (.text "a\nb\nc") {} =
        some (.ok ("RUNTIME: <a\tb>:3: boom", none), {}) := by
  refine ⟨⟨by cbv, List.suffix_rfl, formatLuaError_uncited (Place.find_none_iff.mp (by decide +kernel))⟩,
    by simp [Text.ofString]; decide, formatLuaError_uncited (Place.find_none_iff.mp (by decide +kernel))⟩

end Bridge

end HostedLua
