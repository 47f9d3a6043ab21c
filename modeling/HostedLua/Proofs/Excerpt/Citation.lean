import HostedLua.Excerpt
import Mathlib.Data.List.TakeWhile

/-! What counts as a place in a message, and that the search finds the first one. A `Citation` cuts a text
at such a place; `find_some_iff` says that the place found is the leftmost citation with all the white
space after it, and `IsFirst.unique` that there is only one such citation. -/

namespace HostedLua

/-- The name of a chunk as messages show it: in quotes and brackets, in angle brackets, or the path of a
Lua file. A path is not its ending alone. -/
inductive ChunkName : Text → Prop where
  | quoted {name : Text} (h : ∀ c ∈ name, c ≠ CodePoint.ofChar '"') :
    ChunkName ("[string \"" ++ (name ++ "\"]"))
  | angled {name : Text} (h : ∀ c ∈ name, c ≠ CodePoint.ofChar '>' ∧ c.isBlank = false) :
    ChunkName ("<" ++ (name ++ ">"))
  | path {stem : Text} (some : stem ≠ []) (h : ∀ c ∈ stem, Place.isPathChar c = true) :
    ChunkName (stem ++ ".lua")

/-- A text cut at a line that it cites: the name of a chunk, a colon, digits, a colon and white space. -/
@[ext]
structure Citation (t : Text) where
  before : Text
  chunk : Text
  digits : Text
  blank : Text
  after : Text
  named : ChunkName chunk
  numbered : digits ≠ []
  decimal : ∀ c ∈ digits, c.decimal?.isSome = true
  white : ∀ c ∈ blank, c.isBlank = true
  whole : before ++ (chunk ++ ((":" : Text) ++ (digits ++ ((":" : Text) ++ (blank ++ after))))) = t

namespace Citation

variable {t : Text}

/-- All the white space that follows is part of the citation. -/
def IsGreedy (c : Citation t) : Prop := ∀ d ∈ c.after.head?, d.isBlank = false

/-- The leftmost citation, with all the white space that follows. -/
structure IsFirst (c : Citation t) : Prop where
  leftmost : ∀ d : Citation t, c.before.length ≤ d.before.length
  greedy : c.IsGreedy

/-- The length of the span that a citation takes up. -/
def length (c : Citation t) : Nat := c.chunk.length + c.digits.length + c.blank.length + 2

def line (c : Citation t) : Nat := Integer.value (c.digits.filterMap CodePoint.decimal?)

def rest (c : Citation t) : Text := c.before ++ c.after

/-- A citation further on in a longer text. -/
def shift (a : CodePoint) (c : Citation t) : Citation (a :: t) :=
  { c with before := a :: c.before, whole := congrArg (a :: ·) c.whole }

/-- A citation that does not start the text stands in the rest of it. -/
theorem eq_shift {a : CodePoint} (c : Citation (a :: t)) (h : c.before ≠ []) :
    ∃ d : Citation t, c = d.shift a := by
  obtain ⟨before, chunk, digits, blank, after, named, numbered, decimal, white, whole⟩ := c
  obtain ⟨b, bs, rfl⟩ := List.exists_cons_of_ne_nil h
  obtain ⟨rfl, hbs⟩ := List.cons.inj whole
  exact ⟨⟨bs, chunk, digits, blank, after, named, numbered, decimal, white, hbs⟩, rfl⟩

end Citation

namespace Place

section Runs

variable {α : Type} {p : α → Bool} {run rest : List α}

/-- A run is taken off whole where what follows does not continue it. -/
theorem takeWhile_run (h : ∀ c ∈ run, p c = true) (stop : ∀ d ∈ rest.head?, p d = false) :
    (run ++ rest).takeWhile p = run := by
  rw [List.takeWhile_append_of_pos h]
  cases rest with
  | nil => simp
  | cons d _ => simp [stop d rfl]

/-- A list is its longest run and a rest that does not continue it. -/
theorem exists_run (p : α → Bool) (t : List α) :
    ∃ rest, t = t.takeWhile p ++ rest ∧ (∀ c ∈ t.takeWhile p, p c = true) ∧ ∀ d ∈ rest.head?, p d = false := by
  refine ⟨t.dropWhile p, List.takeWhile_append_dropWhile.symm, fun c => List.mem_takeWhile_imp, fun d hd => ?_⟩
  have := List.head?_dropWhile_not p t
  rw [hd] at this
  exact this

end Runs

variable {t name rest digits : Text} {n : Nat}

/-! ### Chunks -/

theorem quotedChunk?_sound (h : quotedChunk? t = some n) :
    ∃ name rest, ChunkName name ∧ t = name ++ rest ∧ name.length = n := by
  unfold quotedChunk? at h
  dsimp only at h
  split at h
  · next opening =>
    obtain ⟨body, rfl⟩ := List.isPrefixOf_iff_prefix.mp opening
    rw [List.drop_left] at h
    obtain ⟨after, hbody, inner, -⟩ := exists_run (fun d : CodePoint => d ≠ '"') body
    generalize body.takeWhile (fun d : CodePoint => d ≠ '"') = name at h hbody inner
    subst hbody
    rw [List.drop_left] at h
    split at h
    · next closing =>
      obtain ⟨rest, rfl⟩ := List.isPrefixOf_iff_prefix.mp closing
      refine ⟨_, rest, .quoted fun c hc => by simpa using inner c hc, ?_, ?_⟩
      · simp only [List.append_assoc]
      · simpa [Nat.add_assoc] using h
    · contradiction
  · contradiction

theorem angledChunk?_sound (h : angledChunk? t = some n) :
    ∃ name rest, ChunkName name ∧ t = name ++ rest ∧ name.length = n := by
  unfold angledChunk? at h
  split at h
  · next c body =>
    split at h
    · next hc =>
      subst hc
      dsimp only at h
      obtain ⟨after, hbody, inner, -⟩ := exists_run (fun d : CodePoint => d ≠ '>' && !d.isBlank) body
      generalize body.takeWhile (fun d : CodePoint => d ≠ '>' && !d.isBlank) = name at h hbody inner
      subst hbody
      rw [List.drop_left] at h
      split at h
      · next closing =>
        obtain ⟨rest, rfl⟩ := List.head?_eq_some_iff.mp closing
        refine ⟨_, rest, .angled fun c hc => by simpa using inner c hc, ?_, ?_⟩
        · simp [Text.ofString]
        · simpa [Text.ofString] using h
      · contradiction
    · contradiction
  · contradiction

theorem pathChunk?_sound (h : pathChunk? t = some n) :
    ∃ name rest, ChunkName name ∧ t = name ++ rest ∧ name.length = n := by
  unfold pathChunk? at h
  dsimp only at h
  split at h
  · next hrun =>
    rw [Bool.and_eq_true, decide_eq_true_iff] at hrun
    obtain ⟨rest, ht, inner, -⟩ := exists_run isPathChar t
    obtain ⟨stem, hstem⟩ := List.isSuffixOf_iff_suffix.mp hrun.2
    refine ⟨t.takeWhile isPathChar, rest, ?_, ht, Option.some.inj h⟩
    rw [← hstem] at hrun inner ⊢
    refine .path (fun hnil => ?_) fun c hc => inner c (List.mem_append_left _ hc)
    rw [hnil, List.nil_append] at hrun
    exact absurd hrun.1 (Nat.lt_irrefl _)
  · contradiction

def chunk? (t : Text) : Option Nat := (quotedChunk? t).or ((angledChunk? t).or (pathChunk? t))

theorem chunk?_sound (h : chunk? t = some n) :
    ∃ name rest, ChunkName name ∧ t = name ++ rest ∧ name.length = n := by
  rcases Option.or_eq_some_iff.mp h with h | ⟨-, h⟩
  · exact quotedChunk?_sound h
  · rcases Option.or_eq_some_iff.mp h with h | ⟨-, h⟩
    · exact angledChunk?_sound h
    · exact pathChunk?_sound h

/-- The three kinds of chunks start with different characters. -/
theorem quotedChunk?_cons {c : CodePoint} (h : c ≠ '[') : quotedChunk? (c :: t) = none := by
  have : ("[string \"" : Text).isPrefixOf (c :: t) = false := by
    simp [Text.ofString, List.isPrefixOf, Ne.symm h]
  simp [quotedChunk?, this]

theorem angledChunk?_cons {c : CodePoint} (h : c ≠ '<') : angledChunk? (c :: t) = none := by
  simp [angledChunk?, h]

theorem pathChunk?_cons {c : CodePoint} (h : isPathChar c = false) : pathChunk? (c :: t) = none := by
  simp [pathChunk?, h]

theorem not_isPathChar_colon : isPathChar (CodePoint.ofChar ':') = false := by decide +kernel

/-- A name before a colon is found whole. -/
theorem chunk?_name (h : ChunkName name) : chunk? (name ++ ((":" : Text) ++ rest)) = some name.length := by
  cases h with
  | @quoted name inner =>
    have hrun : (name ++ (("\"]" : Text) ++ ((":" : Text) ++ rest))).takeWhile (fun d : CodePoint => d ≠ '"') = name :=
      takeWhile_run (by simpa using inner) (by simp [Text.ofString])
    have : quotedChunk? ("[string \"" ++ (name ++ "\"]") ++ ((":" : Text) ++ rest)) =
        some (("[string \"" : Text) ++ (name ++ "\"]")).length := by
      simp only [quotedChunk?, List.append_assoc, List.isPrefixOf_iff_prefix.mpr (List.prefix_append _ _), if_true,
        List.drop_left, hrun, List.length_append, Nat.add_assoc]
    rw [chunk?, this, Option.some_or]
  | @angled name inner =>
    have hrun : (name ++ ((">" : Text) ++ ((":" : Text) ++ rest))).takeWhile
        (fun d : CodePoint => d ≠ '>' && !d.isBlank) = name :=
      takeWhile_run (by simpa using inner) (by simp [Text.ofString])
    have hangled : angledChunk? ("<" ++ (name ++ ">") ++ ((":" : Text) ++ rest)) =
        some (("<" : Text) ++ (name ++ ">")).length := by
      show angledChunk? (CodePoint.ofChar '<' :: ((name ++ ">") ++ ((":" : Text) ++ rest))) = _
      rw [List.append_assoc]
      simp only [angledChunk?, if_true, hrun, List.drop_left]
      simp [Text.ofString]
    have hquoted : quotedChunk? ("<" ++ (name ++ ">") ++ ((":" : Text) ++ rest)) = none :=
      quotedChunk?_cons (by decide)
    rw [chunk?, hquoted, hangled, Option.none_or, Option.some_or]
  | @path stem some inner =>
    have hlua : ∀ c ∈ (".lua" : Text), isPathChar c = true := List.all_eq_true.mp (by cbv)
    have hrun : (stem ++ (".lua" : Text) ++ ((":" : Text) ++ rest)).takeWhile isPathChar = stem ++ (".lua" : Text) := by
      refine takeWhile_run (fun c hc => ?_) (by simp [Text.ofString, not_isPathChar_colon])
      exact (List.mem_append.mp hc).elim (inner c) (hlua c)
    have hpath : pathChunk? (stem ++ (".lua" : Text) ++ ((":" : Text) ++ rest)) =
        Option.some (stem ++ (".lua" : Text)).length := by
      have hlen : (".lua" : Text).length < (stem ++ (".lua" : Text)).length := by
        rw [List.length_append]
        exact Nat.lt_add_of_pos_left (List.length_pos_iff.mpr some)
      rw [pathChunk?]
      simp only [hrun, hlen, List.isSuffixOf_iff_suffix.mpr (List.suffix_append _ _), decide_true, Bool.and_self, if_true]
    obtain ⟨c, cs, rfl⟩ := List.exists_cons_of_ne_nil some
    have hc := inner c (List.mem_cons_self ..)
    have hquoted : quotedChunk? (c :: cs ++ (".lua" : Text) ++ ((":" : Text) ++ rest)) = none :=
      quotedChunk?_cons fun e => absurd (e ▸ hc) (by decide +kernel)
    have hangled : angledChunk? (c :: cs ++ (".lua" : Text) ++ ((":" : Text) ++ rest)) = none :=
      angledChunk?_cons fun e => absurd (e ▸ hc) (by decide +kernel)
    rw [chunk?, hquoted, hangled, hpath, Option.none_or, Option.none_or]

/-! ### Lines -/

theorem line?_sound (h : line? t = some (digits, n)) :
    ∃ blank after : Text, (digits ≠ [] ∧ ∀ c ∈ digits, c.decimal?.isSome = true) ∧
      (∀ c ∈ blank, c.isBlank = true) ∧ (∀ d ∈ after.head?, d.isBlank = false) ∧
      t = (":" : Text) ++ (digits ++ ((":" : Text) ++ (blank ++ after))) ∧ n = digits.length + blank.length + 2 := by
  unfold line? at h
  split at h
  · next c body =>
    split at h
    · next hc =>
      subst hc
      dsimp only at h
      obtain ⟨tail, hbody, inner, -⟩ := exists_run (fun d : CodePoint => d.decimal?.isSome) body
      generalize body.takeWhile (fun d : CodePoint => d.decimal?.isSome) = ds at h hbody inner
      subst hbody
      rw [List.drop_left] at h
      split at h
      · next d rest =>
        split at h
        · next hd =>
          obtain ⟨hcolon, hne⟩ := Bool.and_eq_true_iff.mp hd
          obtain rfl := of_decide_eq_true hcolon
          obtain ⟨rfl, rfl⟩ := Prod.mk.inj (Option.some.inj h)
          obtain ⟨after, hrest, white, stop⟩ := exists_run CodePoint.isBlank rest
          refine ⟨_, after, ⟨by simpa using hne, inner⟩, white, stop, ?_, by omega⟩
          rw [← hrest]
          rfl
        · contradiction
      · contradiction
    · contradiction
  · contradiction

theorem not_decimal_colon : (CodePoint.ofChar ':').decimal? = none := by decide +kernel

/-- A line between colons is found, with all the white space after it. -/
theorem line?_digits (some : digits ≠ []) (h : ∀ c ∈ digits, c.decimal?.isSome = true) :
    line? ((":" : Text) ++ (digits ++ ((":" : Text) ++ rest))) =
      Option.some (digits, digits.length + (rest.takeWhile CodePoint.isBlank).length + 2) := by
  have hrun : (digits ++ (CodePoint.ofChar ':' :: rest)).takeWhile (fun d : CodePoint => d.decimal?.isSome) = digits :=
    takeWhile_run h (by simp [not_decimal_colon])
  show line? (CodePoint.ofChar ':' :: (digits ++ (CodePoint.ofChar ':' :: rest))) = _
  have hne : digits.isEmpty = false := by simpa using some
  simp only [line?, if_true, hrun, List.drop_left, decide_true, hne, Bool.not_false, Bool.and_self]
  rw [Nat.add_right_comm]

/-! ### Places at the head -/

theorem here?_eq (t : Text) :
    here? t = (chunk? t).bind fun n => (line? (t.drop n)).map fun (digits, m) => (n + m, digits) := by
  cases t with
  | nil => rfl
  | cons c cs =>
    by_cases hq : c = '['
    · have ha : angledChunk? (c :: cs) = none := angledChunk?_cons (by rw [hq]; decide)
      have hp : pathChunk? (c :: cs) = none := pathChunk?_cons (by rw [hq]; decide +kernel)
      cases h : quotedChunk? (c :: cs) with
      | none => simp [here?, chunk?, h, ha, hp]
      | some n => cases hl : line? ((c :: cs).drop n) <;> simp [here?, chunk?, h, ha, hp, hl]
    · have hq : quotedChunk? (c :: cs) = none := quotedChunk?_cons hq
      by_cases ha : c = '<'
      · have hp : pathChunk? (c :: cs) = none := pathChunk?_cons (by rw [ha]; decide +kernel)
        cases h : angledChunk? (c :: cs) with
        | none => simp [here?, chunk?, h, hq, hp]
        | some n => cases hl : line? ((c :: cs).drop n) <;> simp [here?, chunk?, h, hq, hp, hl]
      · have ha : angledChunk? (c :: cs) = none := angledChunk?_cons ha
        cases h : pathChunk? (c :: cs) with
        | none => simp [here?, chunk?, h, hq, ha]
        | some n => cases hl : line? ((c :: cs).drop n) <;> simp [here?, chunk?, h, hq, ha, hl]

theorem here?_sound (h : here? t = some (n, digits)) :
    ∃ c : Citation t, c.before = [] ∧ c.digits = digits ∧ c.length = n ∧ c.IsGreedy := by
  rw [here?_eq] at h
  obtain ⟨m, hm, h⟩ := Option.bind_eq_some_iff.mp h
  obtain ⟨⟨ds, k⟩, hk, heq⟩ := Option.map_eq_some_iff.mp h
  obtain ⟨rfl, rfl⟩ := Prod.mk.inj heq
  obtain ⟨name, rest, named, rfl, rfl⟩ := chunk?_sound hm
  rw [List.drop_left] at hk
  obtain ⟨blank, after, ⟨numbered, decimal⟩, white, stop, rfl, rfl⟩ := line?_sound hk
  refine ⟨⟨[], name, ds, blank, after, named, numbered, decimal, white, rfl⟩, rfl, rfl, ?_, stop⟩
  simp only [Citation.length]
  omega

theorem here?_citation (c : Citation t) (h : c.before = []) :
    here? t = some (c.chunk.length + c.digits.length + ((c.blank ++ c.after).takeWhile CodePoint.isBlank).length + 2,
      c.digits) := by
  have ht : t = c.chunk ++ ((":" : Text) ++ (c.digits ++ ((":" : Text) ++ (c.blank ++ c.after)))) := by
    rw [← List.nil_append (c.chunk ++ _), ← h, c.whole]
  rw [here?_eq, congrArg chunk? ht, chunk?_name c.named, Option.bind_some, congrArg (List.drop _) ht,
    List.drop_left, line?_digits c.numbered c.decimal, Option.map_some]
  simp only [Nat.add_assoc]

end Place

namespace Citation

variable {t : Text} {c d : Citation t}

theorem IsGreedy.takeWhile (h : c.IsGreedy) : (c.blank ++ c.after).takeWhile CodePoint.isBlank = c.blank :=
  Place.takeWhile_run c.white h

/-- Two citations that start in one place name one chunk. -/
theorem chunk_unique (h : c.before = d.before) : c.chunk = d.chunk := by
  have hwhole := c.whole.trans d.whole.symm
  rw [h, List.append_cancel_left_eq] at hwhole
  have hlen := congrArg Place.chunk? hwhole
  rw [Place.chunk?_name c.named, Place.chunk?_name d.named] at hlen
  exact (List.append_inj hwhole (Option.some.inj hlen)).1

/-- The first citation is one. -/
theorem IsFirst.unique (hc : c.IsFirst) (hd : d.IsFirst) : c = d := by
  have hlen : c.before.length = d.before.length := Nat.le_antisymm (hc.leftmost d) (hd.leftmost c)
  have hwhole := c.whole.trans d.whole.symm
  obtain ⟨hbefore, htail⟩ := List.append_inj hwhole hlen
  have hchunk := chunk_unique hbefore
  rw [hchunk, List.append_cancel_left_eq] at htail
  have hline := congrArg Place.line? htail
  rw [Place.line?_digits c.numbered c.decimal, Place.line?_digits d.numbered d.decimal] at hline
  have hdigits : c.digits = d.digits := (Prod.mk.inj (Option.some.inj hline)).1
  rw [hdigits, List.append_cancel_left_eq, List.append_cancel_left_eq, List.append_cancel_left_eq] at htail
  have hblank : c.blank = d.blank := by rw [← hc.greedy.takeWhile, htail, hd.greedy.takeWhile]
  rw [hblank, List.append_cancel_left_eq] at htail
  exact Citation.ext hbefore hchunk hdigits hblank htail

end Citation

namespace Place

variable {t : Text} {start : Nat} {p : Place}

/-! ### The search -/

theorem findFrom_none (h : findFrom start t = none) : IsEmpty (Citation t) := by
  induction t generalizing start with
  | nil =>
    refine ⟨fun c => ?_⟩
    have := congrArg List.length c.whole
    simp [Text.ofString] at this
  | cons a t ih =>
    rw [findFrom] at h
    split at h
    · contradiction
    · next hhere =>
      refine ⟨fun c => ?_⟩
      by_cases hbefore : c.before = []
      · rw [here?_citation c hbefore] at hhere
        contradiction
      · obtain ⟨d, -⟩ := c.eq_shift hbefore
        exact (ih h).elim d

theorem findFrom_some (h : findFrom start t = some p) :
    ∃ c : Citation t, c.IsFirst ∧ p = ⟨start + c.before.length, start + c.before.length + c.length, c.digits⟩ := by
  induction t generalizing start with
  | nil =>
    have : findFrom start [] = none := rfl
    rw [this] at h
    contradiction
  | cons a t ih =>
    rw [findFrom] at h
    split at h
    · next n digits hhere =>
      obtain ⟨c, hbefore, rfl, rfl, greedy⟩ := here?_sound hhere
      refine ⟨c, ⟨fun d => by rw [hbefore]; exact Nat.zero_le _, greedy⟩, ?_⟩
      rw [hbefore]
      exact (Option.some.inj h).symm
    · next hhere =>
      obtain ⟨c, hfirst, rfl⟩ := ih h
      refine ⟨c.shift a, ⟨fun d => ?_, hfirst.greedy⟩, ?_⟩
      · by_cases hbefore : d.before = []
        · rw [here?_citation d hbefore] at hhere
          contradiction
        · obtain ⟨e, rfl⟩ := d.eq_shift hbefore
          exact Nat.succ_le_succ (hfirst.leftmost e)
      · show _ = Place.mk (start + (c.before.length + 1)) (start + (c.before.length + 1) + c.length) c.digits
        rw [Nat.add_right_comm start 1, Nat.add_assoc]

/-- Nothing is found just where no line is cited. -/
theorem find_none_iff : find t = none ↔ IsEmpty (Citation t) := by
  refine ⟨findFrom_none, fun h => ?_⟩
  cases hfind : find t with
  | none => rfl
  | some p =>
    obtain ⟨c, -⟩ := findFrom_some hfind
    exact h.elim c

/-- What is found is the first citation. -/
theorem find_first {c : Citation t} (h : c.IsFirst) :
    find t = some ⟨c.before.length, c.before.length + c.length, c.digits⟩ := by
  cases hfind : find t with
  | none => exact (find_none_iff.mp hfind).elim c
  | some p =>
    obtain ⟨d, hd, rfl⟩ := findFrom_some hfind
    rw [h.unique hd, Nat.zero_add]

theorem exists_first (c : Citation t) : ∃ d : Citation t, d.IsFirst := by
  cases hfind : find t with
  | none => exact (find_none_iff.mp hfind).elim c
  | some p =>
    obtain ⟨d, hd, -⟩ := findFrom_some hfind
    exact ⟨d, hd⟩

/-- The place of a citation is taken out of the text, and nothing else. -/
theorem removeFrom_citation (c : Citation t) :
    removeFrom ⟨c.before.length, c.before.length + c.length, c.digits⟩ t = c.rest := by
  obtain ⟨before, chunk, digits, blank, after, named, numbered, decimal, white, rfl⟩ := c
  simp only [removeFrom, Citation.rest, Citation.length, List.take_left]
  congr 1
  rw [List.drop_append, List.drop_eq_nil_of_le (by omega), List.nil_append]
  have hlen : before.length + (chunk.length + digits.length + blank.length + 2) - before.length =
      (chunk ++ ((":" : Text) ++ (digits ++ ((":" : Text) ++ blank)))).length := by
    simp [Text.ofString]
    omega
  rw [hlen]
  simp only [← List.append_assoc, List.drop_left]

end Place

end HostedLua
