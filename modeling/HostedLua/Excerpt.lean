import HostedLua.Text.Class
import HostedLua.Text.Lines
import HostedLua.Number.Integer

/-! Places in chunks: finding the first `chunk:line:` in a message, and showing the lines of a source
around a line. -/

namespace HostedLua

/-- A place named in a message: the span that names it and the digits of the line. -/
structure Place where
  start : Nat
  stop : Nat
  digits : Text
  deriving DecidableEq, Repr

namespace Place

def isPathChar (c : CodePoint) : Bool := c.isWord || c = '.' || c = '/' || c = '\\' || c = '-'

/-- A chunk in quotes and brackets at the head of a text: its length. -/
def quotedChunk? (t : Text) : Option Nat :=
  let opening : Text := "[string \""
  if opening.isPrefixOf t then
    let body := t.drop opening.length
    let name := body.takeWhile fun (d : CodePoint) => d ≠ '"'
    let closing : Text := "\"]"
    if closing.isPrefixOf (body.drop name.length) then some (opening.length + name.length + closing.length)
    else none
  else none

/-- A chunk in angle brackets at the head of a text: its length. -/
def angledChunk? (t : Text) : Option Nat :=
  match t with
  | c :: body =>
    if c = '<' then
      let name := body.takeWhile fun (d : CodePoint) => d ≠ '>' && !d.isBlank
      if (body.drop name.length).head? = some (CodePoint.ofChar '>') then some (name.length + 2) else none
    else none
  | [] => none

/-- A path of a Lua file at the head of a text: its length. A colon must follow, so the path is the
whole run of path characters. -/
def pathChunk? (t : Text) : Option Nat :=
  let run := t.takeWhile isPathChar
  let ending : Text := ".lua"
  if ending.length < run.length && ending.isSuffixOf run then some run.length else none

/-- A line between colons at the head of a text, with the white space after it: its digits and the
length. -/
def line? (t : Text) : Option (Text × Nat) :=
  match t with
  | c :: body =>
    if c = ':' then
      let digits := body.takeWhile fun d => d.decimal?.isSome
      match body.drop digits.length with
      | d :: rest =>
        if d = ':' && !digits.isEmpty then
          some (digits, digits.length + 2 + (rest.takeWhile CodePoint.isBlank).length)
        else none
      | [] => none
    else none
  | [] => none

/-- A place at the head of a text: its length and the digits of its line. -/
def here? (t : Text) : Option (Nat × Text) :=
  [quotedChunk? t, angledChunk? t, pathChunk? t].findSome? fun length? =>
    match length? with
    | some n => (line? (t.drop n)).map fun (digits, m) => (n + m, digits)
    | none => none

/-- The first place in a text, sought from a position on. -/
def findFrom (start : Nat) (t : Text) : Option Place :=
  match here? t with
  | some (n, digits) => some ⟨start, start + n, digits⟩
  | none =>
    match t with
    | [] => none
    | _ :: rest => findFrom (start + 1) rest

def find (t : Text) : Option Place := findFrom 0 t

/-- A text without the span of a place. -/
def removeFrom (p : Place) (t : Text) : Text := t.take p.start ++ t.drop p.stop

end Place

def Excerpt.row (marked : Bool) (width : Nat) (number : Int) (line : Text) : Text :=
  (if marked then (">" : Text) else " ") ++ " " ++ Text.padLeft width (Text.ofInt number) ++ " | " ++ line

/-- The lines around a line, which is marked; nothing if there is no such line. -/
def Excerpt.around (lines : List Text) (line radius : Int) : Text :=
  if line < 1 ∨ lines.length < line then []
  else
    let start := max 1 (line - radius)
    let stop := min (lines.length : Int) (line + radius)
    let width := (Text.ofInt stop).length
    let numbers := (List.range (stop - start + 1).toNat).map fun (i : Nat) => start + i
    Text.join "\n" (numbers.map fun i =>
      Excerpt.row (i = line) width i (lines.getD (i - 1).toNat []))

end HostedLua
