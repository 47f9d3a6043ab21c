import HostedLua.Lua.Token
import Mathlib.Data.List.TakeWhile

/-! The lines that the lexer counts. `breaks` counts the line ends of a chunk, `step_breaks` says that each
step of the scan counts just those that it passes, and `scan_line` that every token and every failure is
reported on a line that the chunk has. -/

namespace HostedLua.Lua.Lexeme

variable {s rest after : Bytes} {b : UInt8}

/-- A byte that ends no line. -/
def Inner (b : UInt8) : Prop := b ≠ 10 ∧ b ≠ 13

instance (b : UInt8) : Decidable (Inner b) := inferInstanceAs (Decidable (_ ∧ _))

theorem lineEnd?_cases (h : lineEnd? s = some rest) :
    s = 10 :: 13 :: rest ∨ s = 13 :: 10 :: rest ∨ s = 10 :: rest ∨ s = 13 :: rest := by
  unfold lineEnd? at h
  split at h <;> simp_all

theorem lineEnd?_shorter (h : lineEnd? s = some rest) : rest.length < s.length := by
  rcases lineEnd?_cases h with rfl | rfl | rfl | rfl <;> simp only [List.length_cons] <;> omega

theorem inner_of_lineEnd?_none (h : lineEnd? (b :: rest) = none) : Inner b := by
  constructor <;>
  · rintro rfl
    cases rest with
    | nil => simp [lineEnd?] at h
    | cons c cs => unfold lineEnd? at h; split at h <;> simp_all

theorem lineEnd?_of_inner (h : Inner b) : lineEnd? (b :: rest) = none := by
  cases hend : lineEnd? (b :: rest) with
  | none => rfl
  | some after =>
    rcases lineEnd?_cases hend with he | he | he | he <;> obtain ⟨rfl, -⟩ := List.cons.inj he
    · exact absurd rfl h.1
    · exact absurd rfl h.2
    · exact absurd rfl h.1
    · exact absurd rfl h.2

/-- Two bytes end one line only where they differ. -/
theorem lineEnd?_single (hb : ¬ Inner b) (h : ∀ c ∈ rest.head?, Inner c ∨ c = b) : lineEnd? (b :: rest) = some rest := by
  have hb : b = 10 ∨ b = 13 := by
    by_cases hb' : b = 10
    · exact .inl hb'
    · exact .inr (by simpa [Inner, hb'] using hb)
  cases rest with
  | nil => rcases hb with rfl | rfl <;> rfl
  | cons c cs =>
    have hc := h c rfl
    unfold lineEnd?
    split <;> simp_all [Inner]

/-- The count of line ends. -/
def breaks (s : Bytes) : Nat :=
  match s with
  | [] => 0
  | b :: rest =>
    match _h : lineEnd? (b :: rest) with
    | some after => breaks after + 1
    | none => breaks rest
termination_by s.length
decreasing_by
  · exact lineEnd?_shorter _h
  · exact Nat.lt_succ_self _

@[simp] theorem breaks_nil : breaks [] = 0 := by rw [breaks]

theorem breaks_lineEnd (h : lineEnd? s = some after) : breaks s = breaks after + 1 := by
  cases s with
  | nil => simp [lineEnd?] at h
  | cons b rest =>
    rw [breaks]
    split
    · next a ha => rw [h] at ha; rw [Option.some.inj ha]
    · next ha => rw [h] at ha; contradiction

theorem breaks_inner (h : Inner b) : breaks (b :: rest) = breaks rest := by
  rw [breaks]
  split
  · next a ha => rw [lineEnd?_of_inner h] at ha; contradiction
  · rfl

/-- Bytes that end no line are passed without counting. -/
theorem breaks_append {run : Bytes} (h : ∀ b ∈ run, Inner b) : breaks (run ++ rest) = breaks rest := by
  induction run with
  | nil => rfl
  | cons b run ih =>
    rw [List.cons_append, breaks_inner (h b (List.mem_cons_self ..)), ih fun c hc => h c (List.mem_cons_of_mem _ hc)]

/-- So is a run of bytes of a class without line ends. -/
theorem breaks_dropWhile {p : UInt8 → Bool} (h : ∀ b, p b = true → Inner b) (s : Bytes) :
    breaks s = breaks (s.dropWhile p) := by
  have hs : s = s.takeWhile p ++ s.dropWhile p := List.takeWhile_append_dropWhile.symm
  exact (congrArg breaks hs).trans (breaks_append fun b hb => h b (List.mem_takeWhile_imp hb))

/-- So is the part before a cut. -/
theorem breaks_drop {n : Nat} (h : ∀ b ∈ s.take n, Inner b) : breaks s = breaks (s.drop n) :=
  (congrArg breaks (List.take_append_drop n s).symm).trans (breaks_append h)

/-! ### Classes of bytes -/

theorem inner_of_isDigit (h : isDigit b = true) : Inner b := by
  constructor <;> rintro rfl <;> exact absurd h (by decide)

theorem inner_of_isLetter (h : isLetter b = true) : Inner b := by
  constructor <;> rintro rfl <;> exact absurd h (by decide)

theorem inner_of_isNameByte (h : isNameByte b = true) : Inner b := by
  constructor <;> rintro rfl <;> exact absurd h (by decide)

theorem inner_of_isHexDigit (h : isHexDigit b = true) : Inner b := by
  constructor <;> rintro rfl <;> exact absurd h (by decide)

theorem inner_of_hexValue? {n : Nat} (h : hexValue? b = some n) : Inner b :=
  inner_of_isHexDigit (by rw [isHexDigit, h]; rfl)

/-! ### Long brackets -/

theorem longLevel?_eq {open_ : UInt8} {level : Nat} (h : longLevel? open_ s = some (level, rest)) :
    s = List.replicate level 61 ++ open_ :: rest := by
  unfold longLevel? at h
  dsimp only at h
  split at h
  · next c tail hdrop =>
    split at h
    · next hc =>
      obtain ⟨rfl, rfl⟩ := Prod.mk.inj (Option.some.inj h)
      have hs : s = s.takeWhile (fun x => decide (x = 61)) ++ s.dropWhile (fun x => decide (x = 61)) :=
        List.takeWhile_append_dropWhile.symm
      have hsigns : s.takeWhile (fun x => decide (x = 61)) =
          List.replicate (s.takeWhile fun x => decide (x = 61)).length 61 :=
        List.eq_replicate_of_mem fun b hb => by simpa using List.mem_takeWhile_imp hb
      rwa [hdrop, hc, hsigns] at hs
    · contradiction
  · contradiction

theorem inner_of_mem_replicate {n : Nat} (h : b ∈ List.replicate n (61 : UInt8)) : Inner b := by
  obtain rfl := List.eq_of_mem_replicate h
  decide

theorem breaks_longLevel? {open_ : UInt8} {level : Nat} (hopen : Inner open_) (h : longLevel? open_ s = some (level, rest)) :
    breaks s = breaks rest := by
  rw [longLevel?_eq h, breaks_append fun b => inner_of_mem_replicate, breaks_inner hopen]

/-- Reading a long bracket counts the line ends that it passes. -/
theorem longContent_breaks (level fuel lines : Nat) (acc s : Bytes) :
    match longContent level fuel lines acc s with
    | .ok (_, rest, n) => lines + breaks s = n + breaks rest
    | .error n => n ≤ lines + breaks s := by
  have close : Inner 93 := by decide
  fun_induction longContent level fuel lines acc s with
  | case1 lines acc s => exact Nat.le_add_right ..
  | case2 => exact Nat.le_add_right ..
  | case3 fuel lines acc rest after hlevel =>
    simp only
    rw [breaks_inner close, breaks_longLevel? close hlevel]
  | case4 fuel lines acc rest n after hlevel hne ih =>
    have hsigns : breaks rest = breaks (rest.drop n) := by
      refine breaks_drop fun b hb => ?_
      rw [longLevel?_eq hlevel, List.take_left' (List.length_replicate ..)] at hb
      exact inner_of_mem_replicate hb
    rw [breaks_inner close, hsigns]
    exact ih
  | case5 fuel lines acc rest hlevel ih =>
    rw [breaks_inner close]
    exact ih
  | case6 fuel lines acc b rest hb after hend ih =>
    rw [breaks_lineEnd hend, Nat.add_comm (breaks after), ← Nat.add_assoc]
    simpa only [hend] using ih
  | case7 fuel lines acc b rest hb hend ih =>
    rw [breaks_inner (inner_of_lineEnd?_none hend)]
    simpa only [hend] using ih

/-! ### Strings -/

theorem skipBlank_breaks (fuel lines : Nat) (s : Bytes) :
    lines + breaks s = (skipBlank fuel lines s).2 + breaks (skipBlank fuel lines s).1 := by
  fun_induction skipBlank fuel lines s with
  | case1 => rfl
  | case2 fuel lines s after hend ih => rw [breaks_lineEnd hend, ← ih]; omega
  | case3 fuel lines b rest hspace hend ih => rw [breaks_inner (inner_of_lineEnd?_none hend)]; exact ih
  | case4 => rfl
  | case5 => rfl

theorem unicodeEscape_breaks {e : Escape} (h : unicodeEscape s = .ok e) : breaks s = breaks e.rest + e.lines := by
  have digits (read : Bytes) (n : Nat) (s : Bytes) (h : unicodeEscape.digits read n s = .ok e) :
      breaks s = breaks e.rest + e.lines := by
    fun_induction unicodeEscape.digits read n s with
    | case1 => contradiction
    | case2 read n b rest d hd _ ih => rw [breaks_inner (inner_of_hexValue? hd)]; exact ih h
    | case3 => contradiction
    | case4 read n rest =>
      obtain rfl := Except.ok.inj h
      exact breaks_inner (by decide)
    | case5 => contradiction
  unfold unicodeEscape at h
  dsimp only at h
  split at h
  · split at h
    · next b rest d hd =>
      rw [breaks_inner (inner_of_hexValue? hd)]
      exact digits _ _ _ h
    · contradiction
  · contradiction

/-- An escape passes the line ends that it counts. -/
theorem escape_breaks {e : Escape} (h : escape s = .ok e) : breaks s = breaks e.rest + e.lines := by
  unfold escape at h
  split at h
  · obtain rfl := Except.ok.inj h
    simp
  · next b rest =>
    have one (c : UInt8) (hb : Inner b) (h : (.ok ⟨[c], rest, 0⟩ : Except EscapeError Escape) = .ok e) :
        breaks (b :: rest) = breaks e.rest + e.lines := by
      obtain rfl := Except.ok.inj h
      exact breaks_inner hb
    dsimp only at h
    iterate 7
      rw [ite_eq_iff] at h
      rcases h with ⟨hb, h⟩ | ⟨-, h⟩
      · exact one _ (hb ▸ by decide) h
    rw [ite_eq_iff] at h
    rcases h with ⟨hb, h⟩ | ⟨-, h⟩
    · refine one _ ?_ h
      simp only [Bool.or_eq_true, decide_eq_true_iff] at hb
      rcases hb with (rfl | rfl) | rfl <;> decide
    rw [ite_eq_iff] at h
    rcases h with ⟨rfl, h⟩ | ⟨-, h⟩
    · rw [breaks_inner (by decide)]
      split at h
      · next c d after =>
        split at h
        · next m n hm hn =>
          obtain rfl := Except.ok.inj h
          rw [breaks_inner (inner_of_hexValue? hm), breaks_inner (inner_of_hexValue? hn)]
          rfl
        · contradiction
        · contradiction
      · split at h <;> contradiction
      · contradiction
    rw [ite_eq_iff] at h
    rcases h with ⟨rfl, h⟩ | ⟨-, h⟩
    · rw [breaks_inner (by decide)]
      split at h
      · next after =>
        rw [breaks_inner (by decide)]
        exact unicodeEscape_breaks h
      · contradiction
    rw [ite_eq_iff] at h
    rcases h with ⟨rfl, h⟩ | ⟨-, h⟩
    · obtain rfl := Except.ok.inj h
      have hskip := skipBlank_breaks rest.length 0 rest
      rw [breaks_inner (by decide)]
      simp only
      omega
    rw [ite_eq_iff] at h
    rcases h with ⟨hb, h⟩ | ⟨-, h⟩
    · rw [ite_eq_iff] at h
      rcases h with ⟨-, h⟩ | ⟨-, h⟩
      · obtain rfl := Except.ok.inj h
        refine breaks_drop fun c hc => inner_of_isDigit ?_
        rw [← List.prefix_iff_eq_take.mp ((List.takeWhile_prefix _).trans (List.take_prefix ..))] at hc
        exact List.mem_takeWhile_imp hc
      · contradiction
    split at h
    · next after hend =>
      obtain rfl := Except.ok.inj h
      exact breaks_lineEnd hend
    · contradiction

theorem shortString_breaks {quote : UInt8} (hquote : Inner quote) (fuel lines : Nat) (acc s : Bytes) :
    match shortString quote fuel lines acc s with
    | .ok (_, rest, n) => lines + breaks s = n + breaks rest
    | .error (n, _) => n ≤ lines + breaks s := by
  fun_induction shortString quote fuel lines acc s with
  | case1 => exact Nat.le_add_right ..
  | case2 => exact Nat.le_add_right ..
  | case3 fuel lines acc rest => simp only; rw [breaks_inner hquote]
  | case4 => exact Nat.le_add_right ..
  | case5 fuel lines acc rest e he _ hend ih =>
    rw [breaks_inner (by decide), escape_breaks he, Nat.add_comm (breaks e.rest), ← Nat.add_assoc]
    simpa only [he] using ih
  | case6 => exact Nat.le_add_right ..
  | case7 fuel lines acc b rest hq hend hslash ih =>
    have hb : Inner b := by simpa [Inner] using hend
    rw [breaks_inner hb]
    exact ih

/-! ### Numerals -/

/-- The bytes of a numeral stand at the head, and none ends a line. -/
theorem numeralBytes_starts (hex : Bool) (s : Bytes) :
    numeralBytes hex s <+: s ∧ ∀ b ∈ numeralBytes hex s, Inner b := by
  have mark (b : UInt8) (h : (isExponentMark hex b || isHexDigit b || decide (b = 46)) = true) : Inner b := by
    constructor <;> rintro rfl <;> cases hex <;> exact absurd h (by decide)
  fun_induction numeralBytes hex s with
  | case1 => simp
  | case2 b hb => exact ⟨List.prefix_refl _, by simpa using mark b hb⟩
  | case3 => simp
  | case4 b c tail hb ih =>
    obtain ⟨hmark, hsign⟩ := Bool.and_eq_true_iff.mp hb
    have hc : Inner c := by
      rcases Bool.or_eq_true_iff.mp hsign with h | h <;> obtain rfl := of_decide_eq_true h <;> decide
    refine ⟨(List.prefix_append_right_inj [b, c]).mpr ih.1, ?_⟩
    simp only [List.forall_mem_cons]
    exact ⟨mark b (by simp [hmark]), hc, ih.2⟩
  | case5 b c tail _ hb ih =>
    refine ⟨(List.prefix_append_right_inj [b]).mpr ih.1, ?_⟩
    simp only [List.forall_mem_cons]
    exact ⟨mark b hb, ih.2⟩
  | case6 => simp

/-- So does the whole numeral. -/
theorem numeral_starts (hb : Inner b) : numeral (b :: rest) <+: b :: rest ∧ ∀ c ∈ numeral (b :: rest), Inner c := by
  have whole (head : Bytes) (hex : Bool) (hhead : head <+: b :: rest) (inner : ∀ c ∈ head, Inner c) :
      head ++ numeralBytes hex ((b :: rest).drop head.length) <+: b :: rest ∧
        ∀ c ∈ head ++ numeralBytes hex ((b :: rest).drop head.length), Inner c := by
    obtain ⟨tail, htail⟩ := hhead
    rw [← htail, List.drop_left, List.prefix_append_right_inj]
    obtain ⟨hpre, hinner⟩ := numeralBytes_starts hex tail
    exact ⟨hpre, fun c hc => (List.mem_append.mp hc).elim (inner c) (hinner c)⟩
  have touch (text : Bytes) (h : text <+: b :: rest ∧ ∀ c ∈ text, Inner c) {c : UInt8} {cs : Bytes}
      (hc : (b :: rest).drop text.length = c :: cs) (hletter : isLetter c = true) :
      text ++ [c] <+: b :: rest ∧ ∀ d ∈ text ++ [c], Inner d := by
    obtain ⟨⟨tail, htail⟩, inner⟩ := h
    rw [← htail, List.drop_left] at hc
    refine ⟨⟨cs, by rw [← htail, hc, List.append_assoc]; rfl⟩, fun d hd => ?_⟩
    rcases List.mem_append.mp hd with hd | hd
    · exact inner d hd
    · rw [List.mem_singleton.mp hd]
      exact inner_of_isLetter hletter
  generalize hrun : numeral (b :: rest) = run
  unfold numeral at hrun
  split at hrun
  next head hex hhead =>
  have hstarts : head <+: b :: rest ∧ ∀ c ∈ head, Inner c := by
    split at hhead
    · next x hhex =>
      obtain ⟨rfl, rfl⟩ := Prod.mk.inj hhead
      refine ⟨List.take_prefix 2 _, ?_⟩
      unfold Number.hexMarked? at hhex
      split at hhex
      · next x cs heq =>
        obtain ⟨rfl, rfl⟩ := List.cons.inj heq
        rw [ite_eq_iff] at hhex
        rcases hhex with ⟨hx, -⟩ | ⟨-, h⟩
        · have hx : Inner x := by
            rcases Bool.or_eq_true_iff.mp hx with h | h <;> obtain rfl := of_decide_eq_true h <;> decide
          simpa using ⟨hb, hx⟩
        · contradiction
      · contradiction
    · obtain ⟨rfl, rfl⟩ := Prod.mk.inj hhead
      exact ⟨List.take_prefix 1 _, by simpa using hb⟩
  have htext := whole head hex hstarts.1 hstarts.2
  dsimp only at hrun
  split at hrun
  · next c cs heq =>
    split at hrun
    · next hletter =>
      subst hrun
      exact touch _ htext heq hletter
    · exact hrun ▸ htext
  · exact hrun ▸ htext

/-- What stands at the head and holds no line end is passed without counting. -/
theorem breaks_drop_start {text : Bytes} (h : text <+: s) (inner : ∀ c ∈ text, Inner c) :
    breaks s = breaks (s.drop text.length) := by
  refine breaks_drop fun c hc => inner c ?_
  rwa [List.prefix_iff_eq_take.mp h]

/-! ### Steps -/

/-- A step counts the line ends that it passes; one that fails counts none that are not there. -/
def Step.Counts (s : Bytes) : Step → Prop
  | .skip rest lines | .token _ _ rest lines => breaks s = lines + breaks rest
  | .fail lines _ _ => lines ≤ breaks s

theorem longStep_counts (comment : Bool) (level line : Nat) (s : Bytes) : (longStep comment level line s).Counts s := by
  have close (fuel opened : Nat) (body : Bytes) (h : breaks s = opened + breaks body) (text : Bytes → Bytes)
      (what : Bytes) : Step.Counts s (match longContent level fuel opened [] body with
        | .ok (content, rest, lines) =>
          if comment then .skip rest lines else .token (.str content) (text content) rest lines
        | .error lines => .fail lines what none) := by
    have hcontent := longContent_breaks level fuel opened [] body
    cases hread : longContent level fuel opened [] body with
    | ok r =>
      rw [hread] at hcontent
      cases comment <;> exact h.trans hcontent
    | error n =>
      rw [hread] at hcontent
      exact hcontent.trans_eq h.symm
  cases hend : lineEnd? s with
  | some after =>
    simp only [longStep, hend]
    exact close _ 1 after (by rw [breaks_lineEnd hend, Nat.add_comm]) _ _
  | none =>
    simp only [longStep, hend]
    exact close _ 0 s (Nat.zero_add _).symm _ _

/-- The bytes of the operators end no line. -/
theorem inner_of_longOperators {w : String} (hw : w ∈ longOperators) : ∀ c ∈ Bytes.ofString w, Inner c := by
  have : ∀ w ∈ longOperators, (Bytes.ofString w).all (decide <| Inner ·) = true := by decide
  simpa using this w hw

/-- A step over a tail that holds the same line ends counts for the whole. -/
theorem Step.Counts.of_breaks {t : Bytes} {p : Step} (h : p.Counts t) (same : breaks s = breaks t) : p.Counts s := by
  cases p <;> simp only [Step.Counts, same] at h ⊢ <;> exact h

theorem step_counts (line : Nat) (s : Bytes) : (step line s).Counts s := by
  unfold step
  split
  · simp [Step.Counts]
  · next b rest =>
    split
    · next after hend => rw [Step.Counts, breaks_lineEnd hend, Nat.add_comm]
    · next hend =>
      have hb := inner_of_lineEnd?_none hend
      have passed : breaks (b :: rest) = 0 + breaks rest := by rw [breaks_inner hb, Nat.zero_add]
      have bracket : Inner 91 := by decide
      split
      · exact passed
      split
      · next hdashes =>
        -- a comment: the second dash is passed with the first
        have hbody : breaks rest = breaks (rest.drop 1) := by
          obtain ⟨tail, rfl⟩ := List.head?_eq_some_iff.mp (of_decide_eq_true (Bool.and_eq_true_iff.mp hdashes).2)
          exact breaks_inner (by decide)
        have toEnd : Step.Counts (b :: rest) (.skip ((rest.drop 1).dropWhile fun b => b ≠ 10 && b ≠ 13) 0) := by
          rw [Step.Counts, passed, hbody]
          refine congrArg (0 + ·) (breaks_dropWhile (fun c hc => ?_) _)
          simpa [Inner] using hc
        dsimp only
        split
        · next after hafter =>
          split
          · next level inside hlevel =>
            refine (longStep_counts true level line inside).of_breaks ?_
            rw [passed, hbody, hafter, breaks_inner bracket, breaks_longLevel? bracket hlevel, Nat.zero_add]
          · exact toEnd
        · exact toEnd
      split
      · next hopen =>
        split
        · next level inside hlevel =>
          refine (longStep_counts false level line inside).of_breaks ?_
          rw [passed, breaks_longLevel? bracket hlevel, Nat.zero_add]
        · exact Nat.zero_le _
      split
      · have hstring := shortString_breaks hb (rest.length + 1) 0 [] rest
        split
        · next content after lines hread =>
          rw [hread] at hstring
          exact passed.trans hstring
        · next lines what near hread =>
          rw [hread] at hstring
          exact hstring.trans_eq passed.symm
      split
      · obtain ⟨hpre, inner⟩ : numeral (b :: rest) <+: b :: rest ∧ _ := numeral_starts hb
        dsimp only
        split
        · exact (breaks_drop_start hpre inner).trans (Nat.zero_add _).symm
        · exact Nat.zero_le _
      split
      · have hname := breaks_dropWhile (p := isNameByte) (fun c => inner_of_isNameByte) (b :: rest)
        dsimp only
        split <;> exact hname.trans (Nat.zero_add _).symm
      split
      · next w hw =>
        have hpre : Bytes.ofString w <+: b :: rest := by simpa using List.find?_some hw
        have hdrop := breaks_drop_start hpre (inner_of_longOperators (List.mem_of_find?_eq_some hw))
        have hlength : (Bytes.ofString w).length = w.length := by
          rw [Bytes.ofString, List.length_map, String.length_toList]
        rw [Step.Counts, hdrop, Nat.zero_add, hlength]
      · split <;> exact passed

/-! ### The whole chunk -/

/-- The line that a token or a failure is reported on. -/
def reported : Except Malformed Lexeme → Nat
  | .ok l => l.line
  | .error m => m.line

/-- Every token and every failure is reported on a line between the first and the last one. -/
theorem scan_line (fuel line : Nat) (s : Bytes) :
    ∀ e ∈ scan fuel line s, line ≤ reported e ∧ reported e ≤ line + breaks s := by
  induction fuel generalizing line s with
  | zero => simp [scan, reported]
  | succ fuel ih =>
    rw [scan]
    split
    · simp [reported]
    · have hstep := step_counts line s
      split
      · next rest lines heq =>
        rw [heq] at hstep
        intro e he
        obtain ⟨hlow, hhigh⟩ := ih _ _ e he
        rw [hstep]
        omega
      · next t text rest lines heq =>
        rw [heq] at hstep
        intro e he
        rw [hstep]
        rcases List.mem_cons.mp he with rfl | he
        · simp only [reported]
          omega
        · obtain ⟨hlow, hhigh⟩ := ih _ _ e he
          omega
      · next lines what near heq =>
        rw [heq] at hstep
        intro e he
        obtain rfl := List.mem_singleton.mp he
        exact ⟨Nat.le_add_right .., Nat.add_le_add_left hstep _⟩

theorem ofBytes_line {s : Bytes} {e : Except Malformed Lexeme} (h : e ∈ ofBytes s) :
    1 ≤ reported e ∧ reported e ≤ 1 + breaks s := scan_line _ 1 s e h

end HostedLua.Lua.Lexeme
