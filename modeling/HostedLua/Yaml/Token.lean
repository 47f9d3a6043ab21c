import HostedLua.Yaml.Scalar

/-! The tokens of a YAML text. Indentation shows as tokens that open and end block collections. A mapping's
key is only known by the colon after it, so that places where a key may have started are remembered, and
its token is put in front when the colon is met. -/

namespace HostedLua.Yaml

/-- A directive: a version, a tag handle with what it stands for, or one that means nothing. -/
inductive Directive where
  | version (major : Nat)
  | handle (name meaning : Text)
  | ignored
  deriving DecidableEq, Repr

inductive Token where
  | streamEnd
  | directive (d : Directive)
  | documentStart
  | documentEnd
  | blockSequence
  | blockMapping
  | blockEnd
  | flowSequence
  | flowSequenceEnd
  | flowMapping
  | flowMappingEnd
  | blockEntry
  | flowEntry
  | key
  | value
  | alias (name : Text)
  | anchor (name : Text)
  | tag (handle : Option Text) (tail : Text)
  | scalar (text : Text) (isPlain : Bool)
  /-- The text has no tokens from here on. -/
  | broken (p : Problem)
  deriving DecidableEq, Repr

/-- A place where a key may have started: the number of its first token, whether it must be a key, and
where it is. -/
structure PossibleKey where
  token : Nat
  required : Bool
  index : Nat
  line : Nat
  column : Nat

/-- The state of reading tokens. -/
structure Reader where
  cursor : Cursor
  tokens : Array Token := #[]
  /-- How deep collections in flow style nest. -/
  flow : Int := 0
  indent : Int := -1
  /-- The indents around the present one. -/
  indents : List Int := []
  /-- A key may start here. -/
  keyAllowed : Bool := true
  /-- The possible keys by the depth of flow collections. -/
  keys : List (Int × PossibleKey) := []

namespace Reader

abbrev Step := Except Problem Reader

/-- Block style is in force. -/
def inBlock (r : Reader) : Bool := r.flow = 0

def push (r : Reader) (t : Token) : Reader := { r with tokens := r.tokens.push t }

/-- Adds a token and goes on behind it. -/
def pushPast (r : Reader) (length : Nat) (t : Token) : Reader :=
  { r with tokens := r.tokens.push t, cursor := r.cursor.skip length }

/-- Longest distance of a key's colon from its start. -/
def maxKeyLength : Nat := 1024

/-- Forgets the keys that their colon can no longer follow. -/
def dropStale (r : Reader) : Step :=
  let stale (k : PossibleKey) : Bool :=
    k.line ≠ r.cursor.line || k.index + maxKeyLength < r.cursor.index
  if r.keys.any fun (_, k) => stale k && k.required then .error .malformed
  else .ok { r with keys := r.keys.filter fun (_, k) => !stale k }

/-- Forgets the key of the present depth. -/
def dropKey (r : Reader) : Step :=
  match r.keys.lookup r.flow with
  | some k =>
    if k.required then .error .malformed
    else .ok { r with keys := r.keys.filter fun (f, _) => f ≠ r.flow }
  | none => .ok r

/-- Remembers that a key may start here. -/
def saveKey (r : Reader) : Step :=
  if r.keyAllowed then do
    let r ← r.dropKey
    let k : PossibleKey :=
      { token := r.tokens.size, required := r.inBlock && r.indent = r.cursor.column
        index := r.cursor.index, line := r.cursor.line, column := r.cursor.column }
    return { r with keys := (r.flow, k) :: r.keys }
  else .ok r

/-- Ends the block collections that lie deeper than a column. -/
def unwind (column : Int) : (fuel : Nat) → Reader → Reader
  | 0, r => r
  | fuel + 1, r =>
    if r.inBlock && column < r.indent then
      unwind column fuel
        ({ r with indent := r.indents.headD (-1), indents := r.indents.tail }.push .blockEnd)
    else r

/-- Ends the block collections that lie deeper than a column. -/
def unwindTo (r : Reader) (column : Int) : Reader := unwind column (r.indents.length + 1) r

/-- Opens a block collection at a column that lies deeper than the present one; its token is put at a
place. -/
def openBlock (r : Reader) (column : Nat) (place : Nat) (t : Token) : Reader :=
  if r.indent < column then
    { r with indent := column, indents := r.indent :: r.indents
             tokens := r.tokens.insertIdxIfInBounds place t }
  else r

/-- Goes on to the next token, over white space, comments and line breaks. -/
def skipBlank : (fuel : Nat) → Reader → Reader
  | 0, r => r
  | fuel + 1, r =>
    let c := r.cursor.skipSpaces.skipComment
    if c.isAt 0 isBreak then
      skipBlank fuel { r with cursor := c.lineBreak.2, keyAllowed := r.keyAllowed || r.inBlock }
    else { r with cursor := c }

def name? (c : Cursor) : Except Problem (Text × Cursor) :=
  match c.run isNameChar with
  | ([], _) => .error .malformed
  | r => .ok r

/-- Ends all block collections, as directives and markers of documents do. -/
def leaveBlocks (r : Reader) : Step := do
  let r ← (r.unwindTo (-1)).dropKey
  return { r with keyAllowed := false }

/-! ### Directives and tags -/

/-- The bytes of escapes at the head of a text, each a percent sign with two digits. -/
def escapedBytes : Text → Except Problem (Bytes × Nat)
  | p :: a :: b :: rest =>
    if p = '%' then
      match a.hexValue?, b.hexValue? with
      | some m, some n => do
        let (bs, length) ← escapedBytes rest
        return (.ofNat (16 * m + n) :: bs, length + 3)
      | _, _ => .error .malformed
    else .ok ([], 0)
  | [p, _] => if p = '%' then .error .malformed else .ok ([], 0)
  | [p] => if p = '%' then .error .malformed else .ok ([], 0)
  | [] => .ok ([], 0)

def tagText : (fuel : Nat) → Cursor → Except Problem (Text × Cursor)
  | 0, c => .ok ([], c)
  | fuel + 1, c =>
    if c.isAt 0 (· = '%') then do
      let (bytes, length) ← escapedBytes c.rest
      match Utf8.decode? bytes with
      | some t =>
        let (rest, c) ← tagText fuel (c.skip length)
        return (t ++ rest, c)
      | none => .error .malformed
    else if c.isAt 0 isTagChar then do
      let (t, c) := c.run fun d => isTagChar d && d ≠ '%'
      let (rest, c) ← tagText fuel c
      return (t ++ rest, c)
    else .ok ([], c)

def tagText? (c : Cursor) : Except Problem (Text × Cursor) :=
  if c.isAt 0 isTagChar then tagText (c.rest.length + 1) c else .error .malformed

/-- A tag handle: a name between exclamation marks, or one of them if a space follows. -/
def tagHandle? (c : Cursor) : Except Problem (Text × Cursor) :=
  if !c.isAt 0 (· = '!') then .error .malformed
  else if c.isAt 1 (· = ' ') then .ok ("!", c.next)
  else
    let (name, d) := c.next.run isNameChar
    if d.isAt 0 (· = '!') then .ok ("!" ++ name ++ "!", d.next) else .error .malformed

def number? (c : Cursor) : Except Problem (Nat × Cursor) :=
  match c.run CodePoint.isDigit with
  | ([], _) => .error .malformed
  | (ds, c) => .ok (Text.digitsValue 10 ds, c)

def directiveOf (name : Text) (c : Cursor) : Except Problem (Directive × Cursor) := do
  if name = "YAML" then
    let (major, c) ← number? c.skipSpaces
    if !c.isAt 0 (· = '.') then .error .malformed
    let (_, c) ← number? c.next
    if c.endsField then return (.version major, c) else .error .malformed
  else if name = "TAG" then
    let (handle, c) ← tagHandle? c.skipSpaces
    if !c.isAt 0 (· = ' ') then .error .malformed
    let (meaning, c) ← tagText? c.skipSpaces
    if c.endsField then return (.handle handle meaning, c) else .error .malformed
  else return (.ignored, (c.run fun d => !isBreak d).2)

def directive (r : Reader) : Step := do
  let r ← r.leaveBlocks
  let (name, c) ← name? r.cursor.next
  if !c.endsField then .error .malformed
  let (d, c) ← directiveOf name c
  return { r.push (.directive d) with cursor := ← c.endLine }

/-- A tag has a handle: an exclamation mark comes before its next space. -/
def hasHandle (t : Text) : Bool :=
  (t.takeWhile fun c => !(isBreak c || c = ' ')).elem (CodePoint.ofChar '!')

def tag (r : Reader) : Step := do
  let c := r.cursor
  let (handle, tail, c) ←
    if c.isAt 1 (· = '<') then
      let (t, c) ← tagText? (c.skip 2)
      if c.isAt 0 (· = '>') then pure (none, t, c.next) else .error .malformed
    else if c.endsWord 1 then pure (none, Text.ofString "!", c.next)
    else if hasHandle (c.rest.drop 1) then
      let (h, c) ← tagHandle? c
      let (t, c) ← tagText? c
      pure (some h, t, c)
    else
      let (t, c) ← tagText? c.next
      pure (some (Text.ofString "!"), t, c)
  if c.endsField then return { r.push (.tag handle tail) with cursor := c } else .error .malformed

/-! ### Tokens -/

/-- A token that may start a key, and allows none behind it. -/
def startsKey (r : Reader) (read : Reader → Step) : Step := do
  read { (← r.saveKey) with keyAllowed := false }

/-- Reads an alias or an anchor. -/
def named (token : Text → Token) (r : Reader) : Step := do
  let (name, c) ← name? r.cursor.next
  let mayFollow : CodePoint → Bool := fun d => List.elem d (Text.ofString "?:,]\x7d%@`")
  if c.endsWord 0 || c.isAt 0 mayFollow then return { r.push (token name) with cursor := c }
  else .error .malformed

def openFlow (t : Token) (r : Reader) : Step := do
  let r ← r.saveKey
  return { r.pushPast 1 t with flow := r.flow + 1, keyAllowed := true }

def closeFlow (t : Token) (r : Reader) : Step := do
  let r ← r.dropKey
  return { r.pushPast 1 t with flow := r.flow - 1, keyAllowed := false }

/-- Reads the comma between entries in flow style. -/
def flowEntry (r : Reader) : Step := do
  let r ← r.dropKey
  return { r.pushPast 1 .flowEntry with keyAllowed := true }

/-- Opens a block collection for an entry that starts here. -/
def openHere (r : Reader) (t : Token) : Step :=
  if !r.inBlock then .ok r
  else if !r.keyAllowed then .error .malformed
  else .ok (r.openBlock r.cursor.column r.tokens.size t)

def blockEntry (r : Reader) : Step := do
  let r ← (← r.openHere .blockSequence).dropKey
  return { r.pushPast 1 .blockEntry with keyAllowed := true }

def explicitKey (r : Reader) : Step := do
  let r ← (← r.openHere .blockMapping).dropKey
  return { r.pushPast 1 .key with keyAllowed := r.inBlock }

/-- Reads the colon of a value; the key in front gets its token. -/
def explicitValue (r : Reader) : Step := do
  match r.keys.lookup r.flow with
  | some k =>
    let r := { r with
      keys := r.keys.filter fun (f, _) => f ≠ r.flow
      tokens := r.tokens.insertIdxIfInBounds k.token .key
      keyAllowed := false }
    let r := if r.inBlock then r.openBlock k.column k.token .blockMapping else r
    return r.pushPast 1 .value
  | none =>
    let r ← r.openHere .blockMapping
    let r ← { r with keyAllowed := r.inBlock }.dropKey
    return r.pushPast 1 .value

def blockScalar (folded : Bool) (r : Reader) : Step := do
  let r ← { r with keyAllowed := true }.dropKey
  let (t, c) ← r.cursor.blockScalar folded r.indent
  return { r.push (.scalar t false) with cursor := c }

def quotedScalar (quote : CodePoint) (r : Reader) : Step := do
  let (t, c) ← r.cursor.quotedScalar quote
  return { r.push (.scalar t false) with cursor := c }

def plainScalar (r : Reader) : Step := do
  let (t, c, ended) := Cursor.plainScalar (!r.inBlock) r.indent (r.cursor.rest.length + 1) [] false r.cursor
  return { r.push (.scalar t true) with cursor := c, keyAllowed := ended }

/-- The code points that start no plain scalar, but for three before a word. -/
def isIndicator (c : CodePoint) : Bool :=
  isBreak c || isSpace c || List.elem c (Text.ofString "-?:,[]\x7b\x7d#&*!|>'\"%@`")

def startsPlain (r : Reader) (c : CodePoint) : Bool :=
  !isIndicator c || (!r.cursor.endsWord 1 && (c = '-' || (r.inBlock && (c = '?' || c = ':'))))

def tokenAt (r : Reader) (c : CodePoint) : Step :=
  let here := r.cursor
  let marker (t : Token) : Step := do return (← r.leaveBlocks).pushPast 3 t
  let ends := here.endsWord 1
  if c = '%' && here.column = 0 then r.directive
  else if here.column = 0 && here.atMarker "---" then marker .documentStart
  else if here.column = 0 && here.atMarker "..." then marker .documentEnd
  else if c = '[' then r.openFlow .flowSequence
  else if c = '\x7b' then r.openFlow .flowMapping
  else if c = ']' then r.closeFlow .flowSequenceEnd
  else if c = '\x7d' then r.closeFlow .flowMappingEnd
  else if c = ',' then r.flowEntry
  else if c = '-' && ends then r.blockEntry
  else if c = '?' && (!r.inBlock || ends) then r.explicitKey
  else if c = ':' && (!r.inBlock || ends) then r.explicitValue
  else if c = '*' then r.startsKey (named .alias)
  else if c = '&' then r.startsKey (named .anchor)
  else if c = '!' then r.startsKey tag
  else if c = '|' && r.inBlock then r.blockScalar false
  else if c = '>' && r.inBlock then r.blockScalar true
  else if c = '\'' || c = '"' then r.startsKey (quotedScalar c)
  else if r.startsPlain c then r.startsKey plainScalar
  else .error .malformed

/-- Reads the next tokens; none at the end of the text. -/
def fetch (r : Reader) : Except Problem (Option Reader) := do
  let r ← (skipBlank (r.cursor.rest.length + 1) r).dropStale
  let r := r.unwindTo r.cursor.column
  match r.cursor.peek 0 with
  | none => return none
  | some c => return some (← r.tokenAt c)

/-- The tokens that close a text. -/
def finish (r : Reader) : Array Token :=
  match (skipBlank (r.cursor.rest.length + 1) r).dropStale.bind fun r => (r.unwindTo (-1)).dropKey with
  | .ok r => r.tokens.push .streamEnd
  | .error p => r.tokens.push (.broken p)

def readAll : (fuel : Nat) → Reader → Array Token
  | 0, r => r.tokens.push (.broken .malformed)
  | fuel + 1, r =>
    match r.fetch with
    | .ok (some r) => readAll fuel r
    | .ok none => r.finish
    | .error p => r.tokens.push (.broken p)

end Reader

def Token.ofText (t : Text) : List Token :=
  if t.all isPrintable then
    let start : Cursor := { rest := t }
    let start := if t.head? = some byteOrderMark then start.next else start
    (Reader.readAll (t.length + 2) { cursor := start }).toList
  else [.broken .malformed]

end HostedLua.Yaml
