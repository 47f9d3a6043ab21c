import HostedLua.Yaml.Cursor

/-! Scalars in their three styles: blocks under an indicator, quoted ones, and plain ones. Each reader gives
the text and the cursor after it. Lines are folded: a lone line break is a space, and of several the first
is dropped. -/

namespace HostedLua.Yaml

namespace Cursor

/-! ### Blocks -/

/-- What a block keeps of the line breaks at its end. -/
inductive Chomping where
  | clip | strip | keep
  deriving DecidableEq, Repr

/-- The indicators of a block: its chomping, and its indent if it is given. -/
def blockIndicators (c : Cursor) : Except Problem (Chomping × Option Nat × Cursor) :=
  let chomping? (c : Cursor) : Option Chomping :=
    if c.isAt 0 (· = '+') then some .keep else if c.isAt 0 (· = '-') then some .strip else none
  let digit? (c : Cursor) : Option Nat := (c.peek 0).bind fun d => if d.isDigit then d.hexValue? else none
  let (chomping, increment, c) : Option Chomping × Option Nat × Cursor :=
    match chomping? c with
    | some k =>
      match digit? c.next with
      | some n => (some k, some n, c.skip 2)
      | none => (some k, none, c.next)
    | none =>
      match digit? c with
      | some n =>
        match chomping? c.next with
        | some k => (some k, some n, c.skip 2)
        | none => (none, some n, c.next)
      | none => (none, none, c)
  if increment = some 0 || !c.endsField then .error .malformed
  else .ok (chomping.getD .clip, increment, c)

/-- The cursor after spaces, at most up to a column. -/
def indentTo (column : Nat) : (fuel : Nat) → Cursor → Cursor
  | 0, c => c
  | fuel + 1, c =>
    if c.column < column && c.isAt 0 (· = ' ') then indentTo column fuel c.next else c

/-- The line breaks ahead of a block of an indent. -/
def blockBreaks (indent : Nat) : (fuel : Nat) → Cursor → Text × Cursor
  | 0, c => ([], c)
  | fuel + 1, c =>
    let c := indentTo indent c.rest.length c
    if c.isAt 0 isBreak then
      let (b, c) := c.lineBreak
      let (bs, c) := blockBreaks indent fuel c
      (b ++ bs, c)
    else ([], c)

/-- The line breaks and the deepest indent ahead of a block. -/
def blockIndent (deepest : Nat) : (fuel : Nat) → Cursor → Text × Nat × Cursor
  | 0, c => ([], deepest, c)
  | fuel + 1, c =>
    if c.isAt 0 (· = ' ') then
      let c := c.next
      blockIndent (max deepest c.column) fuel c
    else if c.isAt 0 isBreak then
      let (b, c) := c.lineBreak
      let (bs, deepest, c) := blockIndent deepest fuel c
      (b ++ bs, deepest, c)
    else ([], deepest, c)

/-- The lines of a block, after the line breaks ahead of it: its text, the last line break and the breaks
after that. -/
def blockLines (folded : Bool) (indent : Nat) : (fuel : Nat) → (breaks : Text) → Cursor →
    Text × Text × Text × Cursor
  | 0, breaks, c => ([], [], breaks, c)
  | fuel + 1, breaks, c =>
    if c.column ≠ indent || c.atEnd then ([], [], breaks, c)
    else
      let startsWithWord := !c.isAt 0 isSpace
      let (line, c) := c.run fun d => !isBreak d
      let (lineBreak, c) := c.lineBreak
      let (nextBreaks, c) := blockBreaks indent (c.rest.length + 1) c
      if c.column = indent && !c.atEnd then
        let joint : Text :=
          if folded && lineBreak = "\n" && startsWithWord && !c.isAt 0 isSpace then
            if nextBreaks.isEmpty then " " else []
          else lineBreak
        let (text, last, tail, c) := blockLines folded indent fuel nextBreaks c
        (breaks ++ line ++ joint ++ text, last, tail, c)
      else (breaks ++ line, lineBreak, nextBreaks, c)

/-- A block scalar at its indicator, within an indent. -/
def blockScalar (folded : Bool) (outer : Int) (c : Cursor) : Except Problem (Text × Cursor) := do
  let (chomping, increment, c) ← c.next.blockIndicators
  let c ← c.endLine
  let least := (max (outer + 1) 1).toNat
  let fuel := c.rest.length + 1
  let (breaks, indent, c) := match increment with
    | none =>
      let (breaks, deepest, c) := blockIndent 0 fuel c
      (breaks, max least deepest, c)
    | some n =>
      let indent := least + n - 1
      let (breaks, c) := blockBreaks indent fuel c
      (breaks, indent, c)
  let (text, last, tail, c) := blockLines folded indent fuel breaks c
  return match chomping with
    | .strip => (text, c)
    | .clip => (text ++ last, c)
    | .keep => (text ++ last ++ tail, c)

/-! ### Quoted scalars -/

/-- The code points that escapes of one letter stand for. -/
def escapes : List (Char × Nat) :=
  [('0', 0), ('a', 7), ('b', 8), ('t', 9), ('\t', 9), ('n', 10), ('v', 11), ('f', 12), ('r', 13), ('e', 27),
   (' ', 32), ('"', 34), ('\\', 92), ('/', 47), ('N', 0x85), ('_', 0xA0), ('L', 0x2028), ('P', 0x2029)]

def escapeLengths : List (Char × Nat) := [('x', 2), ('u', 4), ('U', 8)]

def entryOf (table : List (Char × Nat)) (c : CodePoint) : Option Nat :=
  (table.find? fun (d, _) => c = CodePoint.ofChar d).map (·.2)

/-- The blank lines ahead in a quoted scalar, as line breaks. -/
def quotedBreaks : (fuel : Nat) → Cursor → Except Problem (Text × Cursor)
  | 0, _ => .error .malformed
  | fuel + 1, c =>
    if c.atDocumentMarker then .error .malformed
    else
      let c := (c.run isSpace).2
      if c.isAt 0 isBreak then do
        let (b, c) := c.lineBreak
        let (bs, c) ← quotedBreaks fuel c
        return (b ++ bs, c)
      else .ok ([], c)

/-- Folds a line break and the breaks after it. -/
def fold (lineBreak breaks : Text) : Text :=
  if lineBreak ≠ "\n" then lineBreak ++ breaks
  else if breaks.isEmpty then " "
  else breaks

/-- The white space at the cursor in a quoted scalar, folded. -/
def quotedSpaces (c : Cursor) : Except Problem (Text × Cursor) := do
  let (spaces, c) := c.run isSpace
  if c.atEnd then .error .malformed
  else if c.isAt 0 isBreak then
    let (lineBreak, c) := c.lineBreak
    let (breaks, c) ← quotedBreaks (c.rest.length + 1) c
    return (fold lineBreak breaks, c)
  else return (spaces, c)

/-- What an escape after its backslash stands for. -/
def escape (c : Cursor) : Except Problem (Text × Cursor) := do
  match c.peek 0 with
  | none => .error .malformed
  | some d =>
    match entryOf escapes d, entryOf escapeLengths d with
    | some n, _ => return ([.ofNat n], c.next)
    | none, some length =>
      let digits := c.next.rest.take length
      if digits.length = length && digits.all (fun e => e.hexValue?.isSome) then
        let n := Text.digitsValue 16 digits
        if n < 0x110000 then return ([.ofNat n], c.skip (length + 1))
        else .error (.fault (.of "ValueError" "chr() arg not in range(0x110000)"))
      else .error .malformed
    | none, none =>
      if isBreak d then quotedBreaks (c.rest.length + 1) c.lineBreak.2
      else .error .malformed

/-- A quoted scalar after its opening quote. -/
def quotedBody (quote : CodePoint) : (fuel : Nat) → Cursor → Except Problem (Text × Cursor)
  | 0, _ => .error .malformed
  | fuel + 1, c => do
    let double := quote = '"'
    match c.peek 0 with
    | none => .error .malformed
    | some d =>
      if d = quote then
        if !double && c.isAt 1 (· = quote) then
          let (t, c) ← quotedBody quote fuel (c.skip 2)
          return (quote :: t, c)
        else return ([], c.next)
      else if isSpace d || isBreak d then
        let (s, c) ← c.quotedSpaces
        let (t, c) ← quotedBody quote fuel c
        return (s ++ t, c)
      else if double && d = '\\' then
        let (s, c) ← c.next.escape
        let (t, c) ← quotedBody quote fuel c
        return (s ++ t, c)
      else
        let (t, c) ← quotedBody quote fuel c.next
        return (d :: t, c)

def quotedScalar (quote : CodePoint) (c : Cursor) : Except Problem (Text × Cursor) :=
  quotedBody quote (c.rest.length + 1) c.next

/-! ### Plain scalars -/

/-- The brackets and the comma of collections in flow style. -/
def isFlowMark (c : CodePoint) : Bool := List.elem c (Text.ofString ",[]\x7b\x7d")

def plainWord (inFlow : Bool) : Text → Text
  | [] => []
  | d :: rest =>
    let endsAfterColon : Bool := rest.head?.all fun e => isBreak e || isSpace e || (inFlow && isFlowMark e)
    if isBreak d || isSpace d || (d = ':' && endsAfterColon) || (inFlow && (isFlowMark d || d = '?')) then []
    else d :: plainWord inFlow rest

/-- The line breaks and spaces ahead in a plain scalar; none if a document marker ends it. -/
def plainBreaks : (fuel : Nat) → Cursor → Option Text × Cursor
  | 0, c => (some [], c)
  | fuel + 1, c =>
    if c.isAt 0 (· = ' ') then plainBreaks fuel c.next
    else if c.isAt 0 isBreak then
      let (b, c) := c.lineBreak
      if c.atDocumentMarker then (none, c)
      else
        let (bs, c) := plainBreaks fuel c
        (bs.map (b ++ ·), c)
    else (some [], c)

/-- The white space after a word of a plain scalar, folded; nothing if the scalar ends. The last part tells
whether a line was ended. -/
def plainSpaces (c : Cursor) : Text × Cursor × Bool :=
  let (spaces, c) := c.run (· = ' ')
  if c.isAt 0 isBreak then
    let (lineBreak, c) := c.lineBreak
    if c.atDocumentMarker then ([], c, true)
    else
      match plainBreaks (c.rest.length + 1) c with
      | (none, c) => ([], c, true)
      | (some breaks, c) => (fold lineBreak breaks, c, true)
  else (spaces, c, false)

/-- A plain scalar within an indent, after white space. The last part tells whether its last word was
followed by the end of a line. -/
def plainScalar (inFlow : Bool) (indent : Int) : (fuel : Nat) → (spaces : Text) → (ended : Bool) → Cursor →
    Text × Cursor × Bool
  | 0, _, ended, c => ([], c, ended)
  | fuel + 1, spaces, ended, c =>
    let word := if c.isAt 0 (· = '#') then [] else plainWord inFlow c.rest
    if word.isEmpty then ([], c, ended)
    else
      let (next, after, ended) := (c.skip word.length).plainSpaces
      if next.isEmpty || after.isAt 0 (· = '#') || (!inFlow && (after.column : Int) < indent + 1) then
        (spaces ++ word, after, ended)
      else
        let (t, after, ended) := plainScalar inFlow indent fuel next ended after
        (spaces ++ word ++ t, after, ended)

end Cursor

end HostedLua.Yaml
