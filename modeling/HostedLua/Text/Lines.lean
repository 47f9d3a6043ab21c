import HostedLua.Text.Basic

/-! The lines of a text, for display. A line ends at any of the Unicode line boundaries; a carriage
return and the line feed after it are one boundary, and a boundary at the end opens no further line. -/

namespace HostedLua

/-- A code point that ends a line. -/
def CodePoint.endsLine (c : CodePoint) : Bool :=
  let n := c.val
  (10 ≤ n && n ≤ 13) || (28 ≤ n && n ≤ 30) || n = 0x85 || n = 0x2028 || n = 0x2029

/-- The first line, and the rest if a boundary was met. -/
def Text.firstLine : Text → Text × Option Text
  | [] => ([], none)
  | c :: rest =>
    if c.endsLine then
      match rest with
      | d :: tail => if c = '\r' && d = '\n' then ([], some tail) else ([], some rest)
      | [] => ([], some [])
    else
      let (line, after) := firstLine rest
      (c :: line, after)

theorem Text.firstLine_shorter {t line rest : Text} (h : t.firstLine = (line, some rest)) :
    rest.length < t.length := by
  fun_induction Text.firstLine t generalizing line rest with
  | case1 => simp at h
  | case2 c d tail h1 h2 =>
    simp only [Prod.mk.injEq, Option.some.injEq] at h
    rw [← h.2]
    simp only [List.length_cons]
    omega
  | case3 c d tail h1 h2 =>
    simp only [Prod.mk.injEq, Option.some.injEq] at h
    rw [← h.2]
    simp only [List.length_cons]
    omega
  | case4 c h1 => simp_all
  | case5 c rest' h1 l a heq ih =>
    simp only [Prod.mk.injEq] at h
    obtain ⟨rfl, rfl⟩ := h
    have := ih heq
    simp; omega

/-- The lines of a text, without their boundaries. -/
def Text.lines (t : Text) : List Text :=
  match t with
  | [] => []
  | c :: cs =>
    match _h : Text.firstLine (c :: cs) with
    | (line, some rest) => line :: lines rest
    | (line, none) => [line]
termination_by t.length
decreasing_by exact Text.firstLine_shorter _h

/-- Text as it is read from a file: a carriage return, and one with a line feed after it, become a line
feed. -/
def Text.withLineFeeds : Text → Text
  | [] => []
  | c :: rest =>
    if c = '\r' then
      match rest with
      | d :: tail => if d = '\n' then d :: withLineFeeds tail else CodePoint.ofChar '\n' :: withLineFeeds (d :: tail)
      | [] => [CodePoint.ofChar '\n']
    else c :: withLineFeeds rest

end HostedLua
