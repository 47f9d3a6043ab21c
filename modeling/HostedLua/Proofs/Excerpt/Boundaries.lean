import HostedLua.Proofs.Excerpt.Told
import HostedLua.Proofs.Lua.Lines
import HostedLua.Proofs.Text.RoundTrip

/-! Two ways to count lines. Lua ends a line at a line feed, a carriage return or a pair of the two
(`Text.chunkLines`); for display a line also ends at the other boundaries of Unicode, and a line feed with
a carriage return after it ends two (`Text.lines`). `lines_getElem?` says where both show one line, and
`length_chunkLines` that the lexer counts the former on the bytes of a chunk. -/

namespace HostedLua

/-- A line of a chunk with what ends it; nothing ends the last line. -/
structure ChunkLine where
  text : Text
  ending : Text
  deriving DecidableEq

namespace CodePoint

/-- A code point that ends a line for Lua. -/
def isBreak (c : CodePoint) : Bool := c = '\n' || c = '\r'

def splitsDisplay (c : CodePoint) : Bool := c.endsLine && !c.isBreak

theorem endsLine_of_isBreak {c : CodePoint} (h : c.isBreak = true) : c.endsLine = true := by
  rcases Bool.or_eq_true_iff.mp h with h | h <;> obtain rfl := of_decide_eq_true h <;> decide

end CodePoint

/-- The lines of a text as Lua counts them; there is always one. -/
def Text.chunkLines : Text → List ChunkLine
  | [] => [⟨[], []⟩]
  | c :: rest =>
    if c.isBreak then
      match rest with
      | d :: tail => if d.isBreak && d ≠ c then ⟨[], [c, d]⟩ :: chunkLines tail else ⟨[], [c]⟩ :: chunkLines (d :: tail)
      | [] => [⟨[], [c]⟩, ⟨[], []⟩]
    else
      match chunkLines rest with
      | l :: ls => ⟨c :: l.text, l.ending⟩ :: ls
      | [] => []

namespace Text

variable {t rest : Text} {c : CodePoint}

theorem chunkLines_ne_nil (t : Text) : t.chunkLines ≠ [] := by
  fun_induction chunkLines t with
  | case6 c rest hc hnil ih => exact absurd hnil ih
  | _ => simp

/-! ### Lines for display -/

theorem lines_of_some {line after : Text} (h : firstLine (c :: rest) = (line, some after)) :
    lines (c :: rest) = line :: lines after := by
  rw [lines]
  split
  · next heq =>
    rw [h] at heq
    cases heq
    rfl
  · next heq =>
    rw [h] at heq
    cases heq

theorem lines_of_none {line : Text} (h : firstLine (c :: rest) = (line, none)) : lines (c :: rest) = [line] := by
  rw [lines]
  split
  · next heq =>
    rw [h] at heq
    cases heq
  · next heq =>
    rw [h] at heq
    cases heq
    rfl

/-- A code point that is no boundary stands at the head of the first line. -/
theorem lines_inner (hc : c.endsLine = false) :
    lines (c :: rest) = match lines rest with
      | l :: ls => (c :: l) :: ls
      | [] => [[c]] := by
  have hfirst (line : Text) (after : Option Text) (h : firstLine rest = (line, after)) :
      firstLine (c :: rest) = (c :: line, after) := by
    simp only [firstLine, hc, Bool.false_eq_true, if_false, h]
  cases rest with
  | nil =>
    have hnil : lines [] = [] := by rw [lines]
    rw [lines_of_none (hfirst [] none rfl), hnil]
  | cons d tail =>
    cases h : firstLine (d :: tail) with
    | mk line after =>
      cases after with
      | none => rw [lines_of_none (hfirst line none h), lines_of_none h]
      | some after => rw [lines_of_some (hfirst line (some after) h), lines_of_some h]

/-- A carriage return and the line feed after it are one boundary. -/
theorem lines_pair : lines ('\r' :: '\n' :: rest) = [] :: lines rest := lines_of_some rfl

theorem lines_boundary (hc : c.endsLine = true) (single : c = '\r' → rest.head? ≠ some (CodePoint.ofChar '\n')) :
    lines (c :: rest) = [] :: lines rest := by
  refine lines_of_some ?_
  cases rest with
  | nil => simp only [firstLine, hc, if_true]
  | cons d tail =>
    have hpair : ¬ (decide (c = '\r') && decide (d = '\n')) = true := by
      intro h
      obtain ⟨h₁, h₂⟩ := Bool.and_eq_true_iff.mp h
      exact single (of_decide_eq_true h₁) (congrArg some (of_decide_eq_true h₂))
    rw [firstLine, if_pos hc, if_neg hpair]

theorem not_endsLine_of_firstLine : ∀ c ∈ t.firstLine.1, c.endsLine = false := by
  fun_induction firstLine t with
  | case5 c rest hc line after hfirst ih =>
    rw [hfirst] at ih
    intro d hd
    rcases List.mem_cons.mp hd with rfl | hd
    · exact Bool.eq_false_iff.mpr hc
    · exact ih d hd
  | _ => simp

/-- No line for display holds a boundary. -/
theorem not_endsLine_of_mem_lines {line : Text} (h : line ∈ t.lines) : ∀ c ∈ line, c.endsLine = false := by
  have first {t line : Text} {after : Option Text} (h : t.firstLine = (line, after)) :
      ∀ c ∈ line, c.endsLine = false := by
    have := not_endsLine_of_firstLine (t := t)
    rwa [h] at this
  fun_induction lines t with
  | case1 => contradiction
  | case2 c cs head rest hfirst ih =>
    rcases List.mem_cons.mp h with rfl | h
    · exact first hfirst
    · exact ih h
  | case3 c cs head hfirst =>
    obtain rfl := List.mem_singleton.mp h
    exact first hfirst

end Text

namespace ChunkLine

/-- A line with no boundary inside that only display counts. -/
def Plain (l : ChunkLine) : Prop := ∀ c ∈ l.text, c.splitsDisplay = false

/-- A line that both ways to count end in one place. -/
structure Agrees (l : ChunkLine) : Prop where
  plain : l.Plain
  single : l.ending ≠ "\n\r"

/-- The last line where nothing follows the last line end. -/
def empty : ChunkLine := ⟨[], []⟩

end ChunkLine

namespace Text

variable {t : Text} {k : Nat} {l : ChunkLine}

theorem lines_nil : lines [] = [] := by rw [lines]

theorem break_cases {c : CodePoint} (h : c.isBreak = true) : c = '\n' ∨ c = '\r' :=
  (Bool.or_eq_true_iff.mp h).imp of_decide_eq_true of_decide_eq_true

/-- A text that begins with a break has an empty first line. -/
theorem lines_break_zero {c : CodePoint} (hc : c.isBreak = true) (rest : Text) :
    (lines (c :: rest))[0]? = some [] := by
  by_cases hpair : c = '\r' ∧ rest.head? = some (CodePoint.ofChar '\n')
  · obtain ⟨rfl, hhead⟩ := hpair
    obtain ⟨tail, rfl⟩ := List.head?_eq_some_iff.mp hhead
    rw [lines_pair]
    rfl
  · rw [lines_boundary (CodePoint.endsLine_of_isBreak hc) fun hcr hlf => hpair ⟨hcr, hlf⟩]
    rfl

/-- Two breaks that are one for Lua are one for display, but in the order that only Lua pairs. -/
theorem lines_breaks {c d : CodePoint} (hc : c.isBreak = true) (hd : d.isBreak = true) (hne : d ≠ c)
    (hsingle : [c, d] ≠ "\n\r") (tail : Text) : lines (c :: d :: tail) = [] :: lines tail := by
  rcases break_cases hc with rfl | rfl
  · obtain rfl := (break_cases hd).resolve_left hne
    exact absurd rfl hsingle
  · obtain rfl := (break_cases hd).resolve_right hne
    exact lines_pair

theorem lines_inner_zero {c : CodePoint} (hc : c.endsLine = false) (rest : Text) :
    (lines (c :: rest))[0]? = some (c :: ((lines rest)[0]?).getD []) := by
  rw [lines_inner hc]
  cases lines rest <;> rfl

theorem lines_inner_succ {c : CodePoint} (hc : c.endsLine = false) (rest : Text) (k : Nat) :
    (lines (c :: rest))[k + 1]? = (lines rest)[k + 1]? := by
  rw [lines_inner hc]
  cases lines rest <;> rfl

/-- Where both ways to count agree on the lines before, a plain line is the same for both, but the empty
one at the end is not displayed. -/
theorem lines_getElem? (hl : t.chunkLines[k]? = some l) (before : ∀ m ∈ t.chunkLines.take k, m.Agrees)
    (plain : l.Plain) : t.lines[k]? = if l = .empty then none else some l.text := by
  fun_induction chunkLines t generalizing k l with
  | case1 =>
    obtain ⟨rfl, rfl⟩ : k = 0 ∧ l = .empty := by
      cases k <;> simp_all [ChunkLine.empty]
    simp [lines_nil]
  | case2 c hc d tail hpair ih =>
    obtain ⟨hd, hne⟩ := Bool.and_eq_true_iff.mp hpair
    cases k with
    | zero =>
      obtain rfl := Option.some.inj hl
      simpa [ChunkLine.empty] using lines_break_zero hc (d :: tail)
    | succ k =>
      have hagrees := before ⟨[], [c, d]⟩ (by simp)
      rw [lines_breaks hc hd (of_decide_eq_true hne) hagrees.single, List.getElem?_cons_succ]
      exact ih hl (fun m hm => before m (by simp [hm])) plain
  | case3 c hc d tail hpair ih =>
    have hlines : lines (c :: d :: tail) = [] :: lines (d :: tail) := by
      refine lines_boundary (CodePoint.endsLine_of_isBreak hc) fun hcr hlf => hpair ?_
      obtain rfl := hcr
      obtain rfl := Option.some.inj hlf
      decide
    rw [hlines]
    cases k with
    | zero =>
      obtain rfl := Option.some.inj hl
      simp [ChunkLine.empty]
    | succ k =>
      rw [List.getElem?_cons_succ]
      exact ih hl (fun m hm => before m (by simp [hm])) plain
  | case4 c hc =>
    rw [lines_boundary (CodePoint.endsLine_of_isBreak hc) fun _ => by simp, lines_nil]
    match k with
    | 0 | 1 =>
      obtain rfl := Option.some.inj hl
      simp [ChunkLine.empty]
    | k + 2 => contradiction
  | case5 c rest hc m ms hm ih =>
    have inner (h : c.splitsDisplay = false) : c.endsLine = false := by
      simpa [CodePoint.splitsDisplay, hc] using h
    rw [hm] at ih
    cases k with
    | zero =>
      obtain rfl := Option.some.inj hl
      have hfirst := ih (k := 0) rfl (by simp) fun d hd => plain d (List.mem_cons_of_mem _ hd)
      rw [lines_inner_zero (inner (plain c (List.mem_cons_self ..))), hfirst]
      by_cases hempty : m = .empty
      · simp [hempty, ChunkLine.empty]
      · rw [if_neg hempty]
        simp [ChunkLine.empty]
    | succ k =>
      have hagrees := before ⟨c :: m.text, m.ending⟩ (by simp)
      rw [lines_inner_succ (inner (hagrees.plain c (List.mem_cons_self ..)))]
      refine ih (k := k + 1) hl (fun n hn => ?_) plain
      rcases List.mem_cons.mp hn with rfl | hn
      · exact ⟨fun d hd => hagrees.plain d (List.mem_cons_of_mem _ hd), hagrees.single⟩
      · exact before n (List.mem_cons_of_mem _ hn)
  | case6 c rest hc hnil => exact absurd hnil (chunkLines_ne_nil rest)

end Text

/-! ### Bytes -/

open Lua (Lexeme)

/-- The bytes of one code point: those of the two breaks are their own, and no others hold a break. -/
structure Spells (u : Bytes) (c : CodePoint) : Prop where
  nonempty : u ≠ []
  own : c.isBreak = true → u = [.ofNat c.val]
  inner : c.isBreak = false → ∀ b ∈ u, Lexeme.Inner b

namespace Spells

variable {c : CodePoint} {u : Bytes} {cs : Charset}

theorem of_high (nonempty : u ≠ []) (hc : 0x80 ≤ c.val) (h : ∀ b ∈ u, 0x80 ≤ b.toNat) : Spells u c := by
  refine ⟨nonempty, fun hbreak => ?_, fun _ b hb => ?_⟩
  · rcases Text.break_cases hbreak with rfl | rfl <;> exact absurd hc (by decide)
  · have := h b hb
    constructor <;> rintro rfl <;> exact absurd this (by decide)

/-- A code point may be the one byte of its number. -/
theorem of_same (hc : c.val < 0x100) : Spells [.ofNat c.val] c := by
  refine ⟨List.cons_ne_nil _ _, fun _ => rfl, fun hbreak b hb => ?_⟩
  obtain rfl := List.mem_singleton.mp hb
  have hval : (UInt8.ofNat c.val).toNat = c.val := Utf8.toNat_ofNat hc
  constructor <;> intro heq <;> rw [heq] at hval
  · obtain rfl : c = CodePoint.ofChar '\n' := Fin.ext hval.symm
    contradiction
  · obtain rfl : c = CodePoint.ofChar '\r' := Fin.ext hval.symm
    contradiction

theorem of_unit (c : CodePoint) : Spells (Utf8.unit c) c := by
  by_cases hlow : c.val < 0x80
  · rw [Utf8.unit, if_pos hlow]
    exact of_same (by omega)
  · refine of_high ?_ (by omega) fun b hb => ?_
    · unfold Utf8.unit
      dsimp only
      split_ifs <;> exact List.cons_ne_nil _ _
    · rcases Utf8.mem_unit hb with h | h <;> omega

theorem of_bytes? (h : cs.bytes? c = some u) : Spells u c := by
  have same {limit : Nat} (hlimit : limit ≤ 0x100) (h : (if c.val < limit then some [UInt8.ofNat c.val] else none) = some u) :
      Spells u c := by
    rw [ite_eq_iff] at h
    rcases h with ⟨hlt, h⟩ | ⟨-, h⟩
    · obtain rfl := Option.some.inj h
      exact of_same (by omega)
    · contradiction
  cases cs with
  | utf8 =>
    rw [Charset.bytes?, ite_eq_iff] at h
    rcases h with ⟨-, h⟩ | ⟨-, h⟩
    · contradiction
    · obtain rfl := Option.some.inj h
      exact of_unit c
  | ascii => exact same (by decide) h
  | latin1 => exact same (by decide) h
  | cp1252 =>
    rw [Charset.bytes?, ite_eq_iff] at h
    rcases h with ⟨hin, h⟩ | ⟨hout, h⟩
    · obtain rfl := Option.some.inj h
      simp only [Bool.or_eq_true, Bool.and_eq_true, decide_eq_true_iff] at hin
      exact of_same (by omega)
    · split at h
      · next i hi =>
        rw [ite_eq_iff] at h
        rcases h with ⟨-, h⟩ | ⟨-, h⟩
        · contradiction
        · obtain rfl := Option.some.inj h
          have hlt := (Charset.cp1252High_getD hi).1
          simp only [Bool.or_eq_true, decide_eq_true_iff, not_or] at hout
          refine of_high (List.cons_ne_nil _ _) (by omega) fun b hb => ?_
          obtain rfl := List.mem_singleton.mp hb
          rw [Utf8.toNat_ofNat (by omega)]
          omega
      · contradiction

theorem of_escaped? {b : UInt8} (h : Utf8.escaped? c = some b) : Spells [b] c := by
  rw [Utf8.escaped?, ite_eq_iff] at h
  rcases h with ⟨hin, h⟩ | ⟨-, h⟩
  · obtain rfl := Option.some.inj h
    simp only [Bool.and_eq_true, decide_eq_true_iff] at hin
    refine of_high (List.cons_ne_nil _ _) (by omega) fun b hb => ?_
    obtain rfl := List.mem_singleton.mp hb
    rw [Utf8.toNat_ofNat (by omega)]
    omega
  · contradiction

end Spells

namespace Charset

variable {cs : Charset} {pos : Nat} {held : List CodePoint} {c : CodePoint} {t : Text} {bs : Bytes}

/-- Text is written code point by code point. -/
theorem encodeFrom_cons (h : cs.encodeFrom pos held (c :: t) = .ok bs) :
    ∃ u tail pos' held', bs = u ++ tail ∧ Spells u c ∧ cs.encodeFrom pos' held' t = .ok tail := by
  cases hbytes : cs.bytes? c with
  | some u =>
    rw [encodeFrom_cons_of_bytes? hbytes] at h
    cases htail : cs.encodeFrom (pos + 1) [] t with
    | error e => rw [htail] at h; contradiction
    | ok tail =>
      rw [htail] at h
      exact ⟨u, tail, _, _, (Except.ok.inj h).symm, .of_bytes? hbytes, htail⟩
  | none =>
    cases hescaped : Utf8.escaped? c with
    | some b =>
      rw [encodeFrom_cons_of_escaped? hbytes hescaped] at h
      cases htail : cs.encodeFrom (pos + 1) (held ++ [c]) t with
      | error e => rw [htail] at h; contradiction
      | ok tail =>
        rw [htail] at h
        exact ⟨[b], tail, _, _, (Except.ok.inj h).symm, .of_escaped? hescaped, htail⟩
    | none =>
      rw [encodeFrom, hbytes] at h
      simp only [hescaped] at h
      split at h <;> contradiction

theorem inner_ofNat_break {c : CodePoint} (hc : c.isBreak = true) : ¬ Lexeme.Inner (.ofNat c.val) := by
  rcases Text.break_cases hc with rfl | rfl <;> decide

theorem lineEnd?_breaks {c d : CodePoint} (hc : c.isBreak = true) (hd : d.isBreak = true) (hne : d ≠ c) (after : Bytes) :
    Lexeme.lineEnd? ([.ofNat c.val] ++ ([.ofNat d.val] ++ after)) = some after := by
  rcases Text.break_cases hc with rfl | rfl
  · obtain rfl := (Text.break_cases hd).resolve_left hne
    rfl
  · obtain rfl := (Text.break_cases hd).resolve_right hne
    rfl

/-- A break that is not one of a pair ends a line on its own. -/
theorem lineEnd?_break {c d : CodePoint} {tail : Text} {after : Bytes} (hc : c.isBreak = true)
    (hpair : ¬ (d.isBreak && d ≠ c) = true) (h : cs.encodeFrom pos held (d :: tail) = .ok after) :
    Lexeme.lineEnd? ([.ofNat c.val] ++ after) = some after := by
  obtain ⟨v, last, _, _, rfl, hv, -⟩ := encodeFrom_cons h
  refine Lexeme.lineEnd?_single (inner_ofNat_break hc) fun b hb => ?_
  obtain ⟨x, xs, rfl⟩ := List.exists_cons_of_ne_nil hv.nonempty
  obtain rfl := Option.some.inj hb
  by_cases hd : d.isBreak = true
  · have hdc : d = c := by
      by_contra hne
      exact hpair (by simp [hd, hne])
    obtain ⟨rfl, -⟩ := List.cons.inj (hv.own hd)
    exact .inr (by rw [hdc])
  · exact .inl (hv.inner (Bool.eq_false_iff.mpr hd) _ (List.mem_cons_self ..))

/-- The lexer counts the lines of a text on its bytes. -/
theorem length_chunkLines (h : cs.encodeFrom pos held t = .ok bs) :
    t.chunkLines.length = Lexeme.breaks bs + 1 := by
  fun_induction Text.chunkLines t generalizing pos held bs with
  | case1 =>
    obtain rfl := Except.ok.inj h
    simp
  | case2 c hc d tail hpair ih =>
    obtain ⟨u, mid, _, _, rfl, hu, hmid⟩ := encodeFrom_cons h
    obtain ⟨v, after, _, _, rfl, hv, hafter⟩ := encodeFrom_cons hmid
    obtain ⟨hd, hne⟩ := Bool.and_eq_true_iff.mp hpair
    obtain rfl := hu.own hc
    obtain rfl := hv.own hd
    rw [List.length_cons, ih hafter, Lexeme.breaks_lineEnd (lineEnd?_breaks hc hd (of_decide_eq_true hne) after)]
  | case3 c hc d tail hpair ih =>
    obtain ⟨u, after, _, _, rfl, hu, hafter⟩ := encodeFrom_cons h
    obtain rfl := hu.own hc
    rw [List.length_cons, ih hafter, Lexeme.breaks_lineEnd (lineEnd?_break hc hpair hafter)]
  | case4 c hc =>
    obtain ⟨u, after, _, _, rfl, hu, hafter⟩ := encodeFrom_cons h
    obtain rfl := hu.own hc
    obtain rfl := Except.ok.inj hafter
    have hend : Lexeme.lineEnd? ([.ofNat c.val] ++ []) = some [] :=
      Lexeme.lineEnd?_single (inner_ofNat_break hc) (by simp)
    rw [Lexeme.breaks_lineEnd hend]
    simp
  | case5 c rest hc m ms hm ih =>
    obtain ⟨u, after, _, _, rfl, hu, hafter⟩ := encodeFrom_cons h
    rw [Lexeme.breaks_append (hu.inner (Bool.eq_false_iff.mpr hc)), ← ih hafter, hm]
    rfl
  | case6 c rest hc hnil => exact absurd hnil (Text.chunkLines_ne_nil rest)

end Charset

end HostedLua
