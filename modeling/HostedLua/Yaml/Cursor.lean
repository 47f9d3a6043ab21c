import HostedLua.Fault

/-! A cursor in a YAML text: the text that is left, with the line and the column it is at. The end of the
text ends every word and every line. -/

namespace HostedLua.Yaml

/-- What can be wrong with a document: it is malformed, or a value in it cannot be made. -/
inductive Problem where
  | malformed
  | fault (f : Fault)
  deriving DecidableEq, Repr

def Problem.toFault : Problem → Fault
  | .malformed => .of "YAMLError" []
  | .fault f => f

def isBreak (c : CodePoint) : Bool :=
  let n := c.val
  n = 10 || n = 13 || n = 0x85 || n = 0x2028 || n = 0x2029

def isSpace (c : CodePoint) : Bool := c = ' ' || c = '\t'

/-- A code point that a document may hold. -/
def isPrintable (c : CodePoint) : Bool :=
  let n := c.val
  n = 9 || n = 10 || n = 13 || (0x20 ≤ n && n ≤ 0x7E) || n = 0x85 || (0xA0 ≤ n && n ≤ 0xD7FF) ||
  (0xE000 ≤ n && n ≤ 0xFFFD) || 0x10000 ≤ n

/-- A code point of names: of anchors, directives and tag handles. -/
def isNameChar (c : CodePoint) : Bool := c.isLetter || c.isDigit || c = '-' || c = '_'

def isTagChar (c : CodePoint) : Bool :=
  c.isLetter || c.isDigit || List.elem c (Text.ofString "-;/?:@&=+$,_.!~*'()[]%")

/-- The byte order mark, which takes no column. -/
def byteOrderMark : CodePoint := .ofNat 0xFEFF

/-- A cursor. -/
structure Cursor where
  rest : Text
  index : Nat := 0
  line : Nat := 0
  column : Nat := 0

namespace Cursor

def peek (c : Cursor) (ahead : Nat) : Option CodePoint := c.rest[ahead]?

/-- The code point ahead is in a class; none is there at the end. -/
def isAt (c : Cursor) (ahead : Nat) (p : CodePoint → Bool) : Bool := (c.peek ahead).any p

def endsLine (c : Cursor) (ahead : Nat) : Bool := (c.peek ahead).all isBreak

def endsWord (c : Cursor) (ahead : Nat) : Bool := (c.peek ahead).all fun d => isBreak d || isSpace d

/-- A space or the end of a line is ahead. -/
def endsField (c : Cursor) : Bool := (c.peek 0).all fun d => isBreak d || d = ' '

/-- The end of the text is reached. -/
def atEnd (c : Cursor) : Bool := c.rest.isEmpty

/-- The cursor after one code point. -/
def next (c : Cursor) : Cursor :=
  match c.rest with
  | [] => c
  | d :: rest =>
    let breaks := isBreak d && !(d = '\r' && rest.head? = some (CodePoint.ofChar '\n'))
    if breaks then { rest, index := c.index + 1, line := c.line + 1, column := 0 }
    else { rest, index := c.index + 1, line := c.line,
           column := if d = byteOrderMark then c.column else c.column + 1 }

/-- The cursor after some code points. -/
def skip (c : Cursor) : Nat → Cursor
  | 0 => c
  | n + 1 => c.next.skip n

def run (c : Cursor) (p : CodePoint → Bool) : Text × Cursor :=
  let t := c.rest.takeWhile p
  (t, c.skip t.length)

def skipSpaces (c : Cursor) : Cursor := (c.run (· = ' ')).2

def skipComment (c : Cursor) : Cursor :=
  if c.isAt 0 (· = '#') then (c.run fun d => !isBreak d).2 else c

/-- The line break at the cursor as text, nothing if there is none, and the cursor after it. -/
def lineBreak (c : Cursor) : Text × Cursor :=
  match c.rest with
  | [] => ([], c)
  | d :: rest =>
    if d = '\r' && rest.head? = some (CodePoint.ofChar '\n') then ("\n", c.skip 2)
    else if d = '\r' || d = '\n' || d.val = 0x85 then ("\n", c.next)
    else if isBreak d then ([d], c.next)
    else ([], c)

/-- A marker between documents is at the cursor. -/
def atMarker (c : Cursor) (marker : Text) : Bool := marker.isPrefixOf c.rest && c.endsWord 3

/-- A marker of the start or the end of a document is at the cursor. -/
def atDocumentMarker (c : Cursor) : Bool := c.atMarker "---" || c.atMarker "..."

/-- The cursor after the rest of a line that holds nothing but a comment. -/
def endLine (c : Cursor) : Except Problem Cursor :=
  let c := c.skipSpaces.skipComment
  if c.endsLine 0 then .ok c.lineBreak.2 else .error .malformed

end Cursor

end HostedLua.Yaml
