import HostedLua.Host.Run
import HostedLua.Proofs.Printer.Tree

/-! The lines of printed text. A block of entries has a line for each of them and two for its braces, and nothing else
breaks a line: what is in quotes has its line feeds escaped. Keys that are names stand without quotes; where a line feed
follows the name in the key, it stands in the text as well. -/

namespace HostedLua

open Host

namespace Printer

variable {p : Printer} {E : Engine} {level : Int} {t u : Text}

/-! ### Names -/

/-- A letter or an underscore, and then letters, digits and underscores. -/
def IsIdentifier (t : Text) : Prop :=
  ∃ c rest, t = c :: rest ∧ (c.isLetter = true ∨ c = '_') ∧
    ∀ d ∈ rest, d.isLetter = true ∨ d = '_' ∨ d.isDigit = true

theorem IsIdentifier.lineFeeds (h : IsIdentifier t) : t.lineFeeds = 0 := by
  have hfeed : CodePoint.isLetter (CodePoint.ofChar '\n') = false ∧ CodePoint.isDigit (CodePoint.ofChar '\n') = false ∧
      CodePoint.ofChar '\n' ≠ CodePoint.ofChar '_' := by decide
  obtain ⟨hletter, hdigit, hunder⟩ := hfeed
  obtain ⟨c, rest, rfl, hc, hrest⟩ := h
  rw [Text.lineFeeds_eq_zero, List.mem_cons, not_or]
  refine ⟨?_, fun hmem => ?_⟩
  · rintro rfl
    simp_all
  · have := hrest _ hmem
    simp_all

theorem lineFeeds_feed : Text.lineFeeds "\n" = 1 := by decide

theorem not_isIdentifier_feed : ¬ IsIdentifier (u ++ "\n") := by
  intro h
  have := h.lineFeeds
  rw [Text.lineFeeds_append, lineFeeds_feed] at this
  contradiction

/-- Names are identifiers, and identifiers that a line feed follows. -/
theorem isName_iff : isName t = true ↔ IsIdentifier t ∨ ∃ u, IsIdentifier u ∧ t = u ++ "\n" := by
  by_cases hlast : t.getLast? = some (CodePoint.ofChar '\n')
  · obtain ⟨u, rfl⟩ : ∃ u, t = u ++ [CodePoint.ofChar '\n'] := List.getLast?_eq_some_iff.mp hlast
    have hbody : isName (u ++ [CodePoint.ofChar '\n']) = true ↔ IsIdentifier u := by
      rw [isName, if_pos hlast, List.dropLast_concat]
      cases u with
      | nil => simp [IsIdentifier]
      | cons c rest => simp [IsIdentifier, or_assoc]
    refine hbody.trans ⟨fun h => .inr ⟨u, h, rfl⟩, ?_⟩
    rintro (h | ⟨v, hv, heq⟩)
    · exact absurd h not_isIdentifier_feed
    · exact List.append_cancel_right heq ▸ hv
  · have hbody : isName t = true ↔ IsIdentifier t := by
      rw [isName, if_neg hlast]
      cases t with
      | nil => simp [IsIdentifier]
      | cons c rest => simp [IsIdentifier, or_assoc]
    refine hbody.trans ⟨.inl, ?_⟩
    rintro (h | ⟨u, -, rfl⟩)
    · exact h
    · exact absurd (List.getLast?_concat ..) hlast

/-! ### Quotes -/

theorem lineFeeds_quoted (t : Text) : (quoted t).lineFeeds = 0 := by
  have hescape (c : CodePoint) : CodePoint.ofChar '\n' ∉ escape c := by
    unfold escape
    split_ifs with _ _ hfeed
    · decide
    · decide
    · decide
    · decide
    · decide
    · exact fun h => hfeed (List.mem_singleton.mp h).symm
  have hquote : Text.lineFeeds "\"" = 0 := by decide
  have hbody : Text.lineFeeds (t.flatMap escape) = 0 := by
    rw [Text.lineFeeds_eq_zero, List.mem_flatMap]
    exact fun ⟨c, _, hc⟩ => hescape c hc
  rw [quoted, Text.lineFeeds_append, Text.lineFeeds_append, hquote, hbody]

/-! ### Blocks -/

theorem lineFeeds_indent (p : Printer) (level : Int) : (p.indent level).lineFeeds = 0 := by
  rw [indent, Text.spaces, Text.lineFeeds_eq_zero, List.mem_replicate]
  exact fun h => absurd h.2 (by decide)

theorem lineFeeds_lines (ts : List Text) (h : ts ≠ []) :
    (Text.join "\n" ts).lineFeeds + 1 = ts.length + (ts.map Text.lineFeeds).sum := by
  fun_induction Text.join "\n" ts with
  | case1 => contradiction
  | case2 t => simp; omega
  | case3 t ts hne ih =>
    have := ih hne
    simp [lineFeeds_feed]
    omega

/-- A block takes a line for each of its entries and two for its braces, if it has any. -/
theorem lineFeeds_block (ts : List Text) (level : Int) :
    (p.block ts level).lineFeeds = (if ts = [] then 0 else ts.length + 1) + (ts.map Text.lineFeeds).sum := by
  have hempty : Text.lineFeeds "\x7b\x7d" = 0 := by decide
  have hopen : Text.lineFeeds "\x7b\n" = 1 := by decide
  have hcomma : Text.lineFeeds "," = 0 := by decide
  have hclose : Text.lineFeeds "\x7d" = 0 := by decide
  cases ts with
  | nil => exact hempty
  | cons t ts =>
    let line (e : Text) : Text := p.indent (level + 1) ++ e ++ ","
    have hline (e : Text) : (line e).lineFeeds = e.lineFeeds := by simp [line, lineFeeds_indent, hcomma]
    have hlines := lineFeeds_lines ((t :: ts).map line) (List.cons_ne_nil _ _)
    rw [List.length_map, List.map_map, funext hline (f := Text.lineFeeds ∘ line)] at hlines
    have hblock : p.block (t :: ts) level =
        "\x7b\n" ++ Text.join "\n" ((t :: ts).map line) ++ "\n" ++ p.indent level ++ "\x7d" := rfl
    rw [hblock, if_neg (List.cons_ne_nil _ _)]
    simp only [Text.lineFeeds_append, hopen, lineFeeds_feed, hclose, lineFeeds_indent]
    omega

namespace Tree

/-- A name with a line feed behind it. -/
def opensLine : Tree → Bool
  | string t => isName t && t.getLast? = some (CodePoint.ofChar '\n')
  | _ => false

def breaks : Tree → Nat
  | other t => t.lineFeeds
  | tuple parts => (parts.map breaks).sum
  | block parts => (if parts = [] then 0 else parts.length + 1) + (parts.map breaks).sum
  | entry k v => k.breaks + v.breaks
  | _ => 0

/-- The entries of a tree whose keys are names with a line feed behind them. -/
def openKeys : Tree → Nat
  | tuple parts | block parts => (parts.map openKeys).sum
  | entry k v => (if k.opensLine then 1 else 0) + k.openKeys + v.openKeys
  | _ => 0

/-- A key has the line feed of a name that one follows, or those of its text as a value. -/
theorem lineFeeds_keyText (k : Tree) {t : Text} (ht : ∀ name, k = string name → t.lineFeeds = 0) :
    (k.keyText t).lineFeeds = t.lineFeeds + if k.opensLine then 1 else 0 := by
  have hbracket : Text.lineFeeds ("[" ++ t ++ "]") = t.lineFeeds := by
    have hopen : Text.lineFeeds "[" = 0 := by decide
    have hclose : Text.lineFeeds "]" = 0 := by decide
    simp [hopen, hclose]
  cases k with
  | string name =>
    rw [keyText, opensLine]
    by_cases hname : isName name = true
    · rw [if_pos hname, hname, Bool.true_and, ht name rfl]
      rcases isName_iff.mp hname with hidentifier | ⟨u, hu, rfl⟩
      · have hlast : name.getLast? ≠ some (CodePoint.ofChar '\n') := by
          intro hlast
          obtain ⟨u, rfl⟩ := List.getLast?_eq_some_iff.mp hlast
          exact not_isIdentifier_feed hidentifier
        simp [hlast, hidentifier.lineFeeds]
      · have hlast : (u ++ ("\n" : Text)).getLast? = some (CodePoint.ofChar '\n') := List.getLast?_concat ..
        rw [Text.lineFeeds_append, hu.lineFeeds, lineFeeds_feed, hlast]
        rfl
    · rw [if_neg hname, hbracket]
      simp [hname]
  | _ => exact hbracket

theorem lineFeeds_address (a : Address) : a.digits.lineFeeds = 0 := by
  rw [Text.lineFeeds_eq_zero]
  exact fun h => absurd (a.hex _ h) (by decide)

theorem sum_lineFeeds {parts : List Tree} {level : Int}
    (h : ∀ d ∈ parts, (d.text p level).lineFeeds = d.breaks + d.openKeys) :
    ((parts.map (Tree.text p level)).map Text.lineFeeds).sum = (parts.map breaks).sum + (parts.map openKeys).sum := by
  induction parts with
  | nil => rfl
  | cons d parts ih =>
    obtain ⟨hd, hparts⟩ := List.forall_mem_cons.mp h
    simp only [List.map_cons, List.sum_cons, hd, ih hparts]
    omega

/-- A text has the line feeds that its blocks have, and those of the keys that are names with one behind them. -/
theorem lineFeeds_text (p : Printer) (level : Int) (d : Tree) :
    (d.text p level).lineFeeds = d.breaks + d.openKeys := by
  have hlabel (kind : HandleKind) : Text.lineFeeds kind.label = 0 := by cases kind <;> decide
  have hguest (v : Lua.Value) : Text.lineFeeds (Bridge.guestKind v) = 0 := by
    unfold Bridge.guestKind
    split <;> decide
  fun_induction Tree.text p level d with
  | case1 =>
    simp only [breaks, openKeys]
    decide
  | case2 level b =>
    simp only [breaks, openKeys]
    cases b <;> decide
  | case3 level i => simpa [breaks, openKeys] using Text.lineFeeds_ofInt i
  | case4 level x => simpa [breaks, openKeys] using Decimal.lineFeeds_shortest x
  | case5 level t => simpa [breaks, openKeys] using lineFeeds_quoted t
  | case6 level b => simpa [breaks, openKeys] using lineFeeds_quoted _
  | case7 level kind a =>
    simp only [breaks, openKeys, Text.lineFeeds_append, hlabel, lineFeeds_address]
    decide
  | case8 level value a =>
    simp only [breaks, openKeys, Text.lineFeeds_append, hguest, lineFeeds_address]
    decide
  | case9 level t => simp [breaks, openKeys]
  | case10 level parts ih =>
    have hcomma : Text.lineFeeds ", " = 0 := by decide
    rw [Text.lineFeeds_join hcomma, sum_lineFeeds ih, breaks, openKeys]
  | case11 level parts ih =>
    rw [lineFeeds_block, sum_lineFeeds ih, breaks, openKeys]
    simp only [List.map_eq_nil_iff, List.length_map]
    omega
  | case12 level k v ihk ihv =>
    have hequals : Text.lineFeeds " = " = 0 := by decide
    have hstring (name : Text) (hk : k = string name) : (k.text p level).lineFeeds = 0 := by
      rw [hk, Tree.text, lineFeeds_quoted]
    rw [Text.lineFeeds_append, Text.lineFeeds_append, hequals, lineFeeds_keyText k hstring, ihk, ihv, breaks, openKeys]
    omega
  | case13 =>
    simp only [breaks, openKeys]
    decide

end Tree

variable {v : Value} {w w' : World}

inductive HasEntries (p : Printer) (E : Engine) (level : Int) (w : World) : Value → Nat → Prop where
  | list {id : Nat} {vs : List Value} (found : w.objects[id]? = some (.list vs)) :
    HasEntries p E level w (.obj id) vs.length
  | dict {id : Nat} {ps : List (Value × Value)}
    (found : w.objects[id]? = some (.dict ps) ∨ w.objects[id]? = some (.proxy ps)) :
    HasEntries p E level w (.obj id) ps.length
  | table {id : Nat} {h : Handle} {es : List (Value × Value)} {w' : World} (found : w.objects[id]? = some (.handle h))
    (kind : h.kind = .table) (valid : w.valid h = true) (within : level < p.maxDepth)
    (mapping : Bridge.toMapping E h w = some (.ok es, w')) : HasEntries p E level w (.obj id) es.length

theorem length_mapM {α β : Type} {f : α → Bridge β} {xs : List α} {ys : List β}
    (h : xs.mapM f w = some (.ok ys, w')) : ys.length = xs.length := by
  induction xs generalizing w ys with
  | nil =>
    obtain ⟨rfl, -⟩ := Bridge.ok_inj h
    rfl
  | cons x xs ih =>
    rw [List.mapM_cons] at h
    obtain ⟨y, u, -, h⟩ := Bridge.bind_some_ok h
    obtain ⟨ys', u', hys, h⟩ := Bridge.bind_some_ok h
    obtain ⟨rfl, rfl⟩ := Bridge.ok_inj h
    rw [List.length_cons, List.length_cons, ih hys]

theorem length_mapM_zipIdx {α β : Type} {f : α × Nat → Bridge β} {xs : List α} {ys : List β}
    (h : xs.zipIdx.mapM f w = some (.ok ys, w')) : ys.length = xs.length :=
  (length_mapM h).trans List.length_zipIdx

/-- What is printed as a block has as many parts as the value has entries. -/
theorem hasEntries_block {l : Limits} {fuel : Nat} {parts : List Tree}
    (h : p.treeAt l E fuel [] level v w = some (.ok (.block parts), w')) : HasEntries p E level w v parts.length := by
  have hmap {α : Type} {f : α → Tree} {x : Bridge α} {u : World} (h : (f <$> x) u = some (.ok (.block parts), w')) :
      ∃ a, x u = some (.ok a, w') ∧ f a = .block parts := by
    rw [map_eq_pure_bind] at h
    obtain ⟨a, u', ha, h⟩ := Bridge.bind_some_ok h
    obtain ⟨hf, rfl⟩ := Bridge.ok_inj h
    exact ⟨a, ha, hf⟩
  cases fuel with
  | zero => cases h
  | succ fuel =>
    unfold treeAt at h
    extract_lets _ entries room at h
    have hroom : room = .ample := rfl
    rw [hroom, if_neg (by decide)] at h
    cases v with
    | obj id =>
      dsimp only at h
      rw [Bridge.bind_ok (Bridge.object_apply id w)] at h
      cases ho : w.objects[id]? with
      | none =>
        rw [ho] at h
        obtain ⟨_, _, ⟨⟩⟩ := hmap h
      | some o =>
        rw [ho, Option.getD_some] at h
        cases o with
        | list vs =>
          obtain ⟨ds, hds, ⟨⟩⟩ := hmap h
          exact length_mapM_zipIdx hds ▸ .list ho
        | dict ps =>
          obtain ⟨ds, hds, ⟨⟩⟩ := hmap h
          exact length_mapM_zipIdx hds ▸ .dict (.inl ho)
        | proxy ps =>
          obtain ⟨ds, hds, ⟨⟩⟩ := hmap h
          exact length_mapM_zipIdx hds ▸ .dict (.inr ho)
        | handle k =>
          cases hk : k.kind with
          | table =>
            simp only [hk] at h
            rw [Bridge.bind_ok (Bridge.valid_apply k w)] at h
            split_ifs at h with hvalid hdeep
            · obtain ⟨_, _, ⟨⟩⟩ := hmap h
            · cases h
            · obtain ⟨es, u, hes, h⟩ := Bridge.bind_some_ok h
              obtain ⟨ds, u', hds, h⟩ := Bridge.bind_some_ok h
              obtain ⟨hblock, rfl⟩ := Bridge.ok_inj h
              obtain rfl := Tree.block.inj hblock
              exact length_mapM_zipIdx hds ▸ .table ho hk (by simpa using hvalid) (Int.not_le.mp hdeep) hes
          | _ =>
            simp only [hk] at h
            obtain ⟨_, _, ⟨⟩⟩ := hmap h
        | badItems | error | guest => cases h
        | _ => obtain ⟨_, _, ⟨⟩⟩ := hmap h
    | member m => obtain ⟨_, _, ⟨⟩⟩ := hmap h
    | int i => obtain ⟨_, _, ⟨⟩⟩ := hmap h
    | _ => cases h

/-- The lines of a printed value are those of its blocks: a block of entries breaks as many lines as it has entries and
one more, and an empty one none, nor do tables that are not expanded, or strings. A string is a key without quotes just
if it is a name; a line feed may follow the name in it, and breaks a line as well. -/
theorem format_lines {t : Text} (h : p.format E v level w = some (.ok t, w')) :
    ∃ d, p.tree E v level w = some (.ok d, w') ∧ t = d.text p level ∧ t.lineFeeds = d.breaks + d.openKeys ∧
      (∀ parts, d = .block parts → HasEntries p E level w v parts.length) ∧
      ∀ name, ((IsIdentifier name ∨ ∃ u, IsIdentifier u ∧ name = u ++ "\n") →
          (Tree.string name).keyText (quoted name) = name) ∧
        (¬ (IsIdentifier name ∨ ∃ u, IsIdentifier u ∧ name = u ++ "\n") →
          (Tree.string name).keyText (quoted name) = "[" ++ quoted name ++ "]") := by
  rw [format_eq, map_eq_pure_bind] at h
  obtain ⟨d, u, hd, h⟩ := Bridge.bind_some_ok h
  obtain ⟨rfl, rfl⟩ := Bridge.ok_inj h
  refine ⟨d, hd, rfl, d.lineFeeds_text p level, ?_, fun name => ?_⟩
  · rintro parts rfl
    exact hasEntries_block hd
  · rw [← isName_iff]
    exact ⟨fun hname => if_pos hname, fun hname => if_neg hname⟩

/-- A key that ends in a line feed is printed without quotes, and its line feed breaks a line that no block does. -/
theorem format_lines_open_key :
    let w : World := { objects := #[.dict [(.text "a\n", .int 1)]] }
    let p : Printer := {}
    let t : Text := "\x7b\n  a\n = 1,\n\x7d"
    p.format (Bridge.engine 1) (.obj 0) 0 w = some (.ok t, w) ∧ t.lineFeeds = 3 ∧
      ∃ d, p.tree (Bridge.engine 1) (.obj 0) 0 w = some (.ok d, w) ∧ t = d.text p 0 ∧ d.breaks = 2 ∧
        d.openKeys = 1 := by
  intro w p t
  have hprinted : p.format (Bridge.engine 1) (.obj 0) 0 w = some (.ok t, w) := rfl
  obtain ⟨d, hd, htext, hlines, -⟩ := format_lines hprinted
  have htree : p.tree (Bridge.engine 1) (.obj 0) 0 w =
      some (.ok (.block [.entry (.string "a\n") (.int 1)]), w) := rfl
  obtain ⟨rfl, -⟩ := Bridge.ok_inj (hd.symm.trans htree)
  refine ⟨hprinted, by decide, _, hd, htext, ?_, ?_⟩
  · simp [Tree.breaks]
  · have hopens : Tree.opensLine (.string "a\n") = true := by decide
    simp [Tree.openKeys, hopens]

end Printer

end HostedLua
