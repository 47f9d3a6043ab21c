import Mathlib
import HostedLua.Lua.Parser
import HostedLua.Printer
import HostedLua.Proofs.Text.RoundTrip

/-! Quoted text as a string literal. The printer escapes five code points in quotes, and the lexer undoes
each of the five sequences; every other code point stands for itself, since no byte of its UTF-8 sequence
means anything in a short string (`shortString_escape`). So the lexer reads quoted text as one string that
holds the bytes of the text, and a chunk that returns the literal is the tree that returns the string
(`parse_returning`). -/

namespace HostedLua

open Lua Printer

theorem Text.isClean_append (t u : Text) : Text.isClean (t ++ u) = (t.isClean && u.isClean) := List.all_append

/-- What is written for clean text is clean. -/
theorem Printer.isClean_quoted {t : Text} (ht : t.isClean) : (quoted t).isClean := by
  have hescape (c : CodePoint) (hc : c.isSurrogate = false) : (Printer.escape c).isClean := by
    unfold Printer.escape
    split_ifs
    iterate 5 decide +kernel
    simp [Text.isClean, hc]
  have hbody : Text.isClean (t.flatMap Printer.escape) := by
    rw [Text.isClean, List.all_flatMap, List.all_eq_true]
    intro c hc
    have hclean := List.all_eq_true.mp ht c hc
    exact hescape c (by simpa using hclean)
  have hmark : Text.isClean "\"" = true := by decide +kernel
  rw [quoted, Text.isClean_append, Text.isClean_append, hmark, hbody]
  rfl

namespace Lua.Lexeme

variable {b : UInt8} {c : CodePoint} {fuel lines line : Nat} {acc rest : Bytes}

/-! ### Short strings -/

/-- What a short string in double quotes keeps as it is. -/
def Literal (b : UInt8) : Prop := b ≠ 34 ∧ b ≠ 10 ∧ b ≠ 13 ∧ b ≠ 92

theorem shortString_literal (h : Literal b) :
    shortString 34 (fuel + 1) lines acc (b :: rest) = shortString 34 fuel lines (b :: acc) rest := by
  obtain ⟨hquote, hfeed, hreturn, hslash⟩ := h
  rw [shortString, if_neg hquote, if_neg (by simp [hfeed, hreturn]), if_neg hslash]

theorem shortString_literals {run : Bytes} (h : ∀ b ∈ run, Literal b) :
    shortString 34 (fuel + run.length) lines acc (run ++ rest) = shortString 34 fuel lines (run.reverse ++ acc) rest := by
  induction run generalizing acc with
  | nil => rfl
  | cons b run ih =>
    obtain ⟨hb, hrun⟩ := List.forall_mem_cons.mp h
    rw [List.length_cons, ← Nat.add_assoc, List.cons_append, shortString_literal hb, ih hrun, List.reverse_cons,
      List.append_assoc]
    rfl

/-- A backslash with a letter or mark that stands for one byte. -/
theorem shortString_escaped {x : UInt8} (h : escape (b :: rest) = .ok ⟨[x], rest, 0⟩) :
    shortString 34 (fuel + 1) lines acc (92 :: b :: rest) = shortString 34 fuel lines (x :: acc) rest := by
  rw [shortString, if_neg (by decide), if_neg (by decide), if_pos rfl, h]
  rfl

/-- A code point that needs no escape is made of bytes that a short string keeps. -/
theorem literal_of_unit (hquote : c ≠ CodePoint.ofChar '"') (hslash : c ≠ CodePoint.ofChar '\\')
    (hfeed : c ≠ CodePoint.ofChar '\n') (hreturn : c ≠ CodePoint.ofChar '\r') : ∀ b ∈ Utf8.unit c, Literal b := by
  intro b hb
  have hne {x : UInt8} {d : CodePoint} (hx : x.toNat = d.val) (hlow : x.toNat < 0x80) (hd : c ≠ d) : b ≠ x := by
    rintro rfl
    rcases Utf8.mem_unit hb with h | h
    · exact hd (Fin.ext (h.symm.trans hx))
    · omega
  exact ⟨hne rfl (by decide) hquote, hne rfl (by decide) hfeed, hne rfl (by decide) hreturn,
    hne rfl (by decide) hslash⟩

/-- The lexer reads what the printer writes for a code point as the bytes of the code point. -/
theorem shortString_escape (c : CodePoint) :
    shortString 34 (fuel + (Utf8.unit c).length) lines acc ((Printer.escape c).flatMap Utf8.unit ++ rest) =
      shortString 34 fuel lines ((Utf8.unit c).reverse ++ acc) rest := by
  by_cases hquote : c = CodePoint.ofChar '"'
  · subst hquote
    exact shortString_escaped rfl
  by_cases hslash : c = CodePoint.ofChar '\\'
  · subst hslash
    exact shortString_escaped rfl
  by_cases hfeed : c = CodePoint.ofChar '\n'
  · subst hfeed
    exact shortString_escaped rfl
  by_cases hreturn : c = CodePoint.ofChar '\r'
  · subst hreturn
    exact shortString_escaped rfl
  by_cases htab : c = CodePoint.ofChar '\t'
  · subst htab
    exact shortString_escaped rfl
  have hplain : Printer.escape c = [c] := by
    rw [Printer.escape, if_neg hquote, if_neg hslash, if_neg hfeed, if_neg hreturn, if_neg htab]
  rw [hplain, List.flatMap_singleton]
  exact shortString_literals (literal_of_unit hquote hslash hfeed hreturn)

/-- The lexer reads what the printer writes for a text, up to the closing quote, as the bytes of the text. -/
theorem shortString_quoted (t : Text) :
    shortString 34 (fuel + (t.flatMap Utf8.unit).length + 1) lines acc
        ((t.flatMap Printer.escape).flatMap Utf8.unit ++ 34 :: rest) =
      .ok (acc.reverse ++ t.flatMap Utf8.unit, rest, lines) := by
  induction t generalizing acc with
  | nil => simp [shortString]
  | cons c t ih =>
    have hfuel : fuel + ((c :: t).flatMap Utf8.unit).length + 1 =
        fuel + (t.flatMap Utf8.unit).length + 1 + (Utf8.unit c).length := by
      rw [List.flatMap_cons, List.length_append]
      omega
    rw [hfuel, List.flatMap_cons, List.flatMap_append, List.append_assoc, shortString_escape, ih]
    simp

/-! ### The lexemes of a chunk that returns a literal -/

/-- What is written for a text takes as many bytes as the text, or more. -/
theorem length_escape_le (t : Text) :
    (t.flatMap Utf8.unit).length ≤ ((t.flatMap Printer.escape).flatMap Utf8.unit).length := by
  induction t with
  | nil => exact Nat.le_refl _
  | cons c t ih =>
    have hc : (Utf8.unit c).length ≤ ((Printer.escape c).flatMap Utf8.unit).length := by
      unfold Printer.escape
      split_ifs with h h h h h
      all_goals first
        | subst h; decide
        | simp
    simp only [List.flatMap_cons, List.flatMap_append, List.length_append]
    omega

theorem bytes_quoted (t : Text) :
    (quoted t).flatMap Utf8.unit = 34 :: ((t.flatMap Printer.escape).flatMap Utf8.unit ++ [34]) := by
  simp only [quoted, List.flatMap_append]
  rfl

/-- Quoted text is one token: the string of the bytes of the text. -/
theorem step_quoted (t : Text) : step line ((quoted t).flatMap Utf8.unit) =
    .token (.str (t.flatMap Utf8.unit)) (34 :: t.flatMap Utf8.unit ++ [34]) [] 0 := by
  rw [bytes_quoted]
  generalize hbody : (t.flatMap Printer.escape).flatMap Utf8.unit ++ [34] = body
  have hlength : (t.flatMap Utf8.unit).length + 1 ≤ body.length := by
    rw [← hbody, List.length_append, List.length_singleton]
    exact Nat.succ_le_succ (length_escape_le t)
  have hstring : shortString 34 (body.length + 1) 0 [] body = .ok (t.flatMap Utf8.unit, [], 0) := by
    obtain ⟨fuel, hfuel⟩ : ∃ fuel, body.length + 1 = fuel + (t.flatMap Utf8.unit).length + 1 :=
      ⟨body.length - (t.flatMap Utf8.unit).length, by omega⟩
    rw [hfuel, ← hbody, shortString_quoted]
    rfl
  have hplain : lineEnd? (34 :: body) = none := rfl
  rw [step]
  dsimp only
  rw [hplain]
  dsimp only
  rw [if_neg (by decide), if_neg (by simp), if_neg (by simp), if_pos (by decide), hstring]

theorem bytes_returning (t : Text) : (("return " : Text) ++ quoted t).flatMap Utf8.unit =
    Bytes.ofString "return" ++ 32 :: (quoted t).flatMap Utf8.unit := by
  rw [List.flatMap_append]
  rfl

/-- A chunk that returns quoted text is two tokens. -/
theorem ofBytes_returning (t : Text) : ofBytes ((("return " : Text) ++ quoted t).flatMap Utf8.unit) =
    [.ok ⟨.word "return", 1, Bytes.ofString "return"⟩,
      .ok ⟨.str (t.flatMap Utf8.unit), 1, 34 :: t.flatMap Utf8.unit ++ [34]⟩, .ok ⟨.eof, 1, []⟩] := by
  have hword (s : Bytes) : step 1 (Bytes.ofString "return" ++ 32 :: s) =
      .token (.word "return") (Bytes.ofString "return") (32 :: s) 0 := by
    cbv
  have hblank (s : Bytes) : step 1 (32 :: s) = .skip s 0 := rfl
  obtain ⟨fuel, hfuel⟩ : ∃ fuel, (Bytes.ofString "return" ++ 32 :: (quoted t).flatMap Utf8.unit).length + 1 = fuel + 4 := by
    refine ⟨(Bytes.ofString "return" ++ 32 :: (quoted t).flatMap Utf8.unit).length - 3, ?_⟩
    rw [List.length_append, show (Bytes.ofString "return").length = 6 from rfl]
    omega
  rw [ofBytes, bytes_returning, hfuel]
  have hsome : ((quoted t).flatMap Utf8.unit).isEmpty = false := by
    rw [bytes_quoted]
    rfl
  rw [scan, if_neg (by simp [Bytes.ofString]), hword]
  dsimp only
  rw [scan, if_neg (by simp), hblank]
  dsimp only
  rw [scan, if_neg (by simp [hsome]), step_quoted]
  rfl

end Lua.Lexeme

/-! ### The tree of the chunk -/

def Lua.returning (b : Bytes) : Func := .mk 0 0 .kept [.ret [.str b]]

/-- A chunk that returns quoted text is the tree that returns the bytes of the text. -/
theorem Lua.Chunk.parse_returning (t : Text) :
    parse ((("return " : Text) ++ quoted t).flatMap Utf8.unit) = .ok (returning (t.flatMap Utf8.unit)) := by
  rw [parse, Lexeme.ofBytes_returning]
  cbv

/-- Clean texts that are quoted alike are the same. -/
theorem Printer.quoted_injective {t t' : Text} (ht : t.isClean) (ht' : t'.isClean) (h : quoted t = quoted t') :
    t = t' := by
  have htree := (Lua.Chunk.parse_returning t).symm.trans (h ▸ Lua.Chunk.parse_returning t')
  have hbytes : t.flatMap Utf8.unit = t'.flatMap Utf8.unit := by simpa [Lua.returning] using htree
  rw [← Charset.decodeEscaped_units ht, hbytes, Charset.decodeEscaped_units ht']

end HostedLua
