import HostedLua.Yaml.Tag
import HostedLua.Yaml.Token

/-! The nodes of a document. Aliases are replaced by the nodes that they stand for, unless they lie within
them. -/

namespace HostedLua.Yaml

inductive Node where
  | scalar (tag : Tag) (text : Text)
  | sequence (tag : Tag) (items : List Node)
  | mapping (tag : Tag) (entries : List (Node × Node))
  /-- A collection that is known by a name. -/
  | anchored (name : Text) (n : Node)
  /-- The collection of a name, within itself. -/
  | enclosing (name : Text)

namespace Node

def empty : Node := .scalar .null []

/-- A node without the name that it is known by. -/
def body : Node → Node
  | .anchored _ n => n.body
  | n => n

end Node

/-- The state of putting tokens together: those that are left, what tag handles stand for, and the nodes
of anchors, those still open without one. -/
structure Composer where
  tokens : List Token
  handles : List (Text × Text) := []
  anchors : List (Text × Option Node) := []

/-- A computation that takes tokens. -/
abbrev Compose := StateT Composer (Except Problem)

namespace Compose

/-- There is no document here. -/
def fail {α : Type} : Compose α := fun _ => .error .malformed

def peek : Compose Token := do
  match (← get).tokens with
  | [] => fail
  | .broken p :: _ => fun _ => .error p
  | t :: _ => return t

def advance : Compose Unit := modify fun s => { s with tokens := s.tokens.tail }

/-- Takes the next token if it is a certain one. -/
def accept (t : Token) : Compose Bool := do
  if (← peek) = t then
    advance
    return true
  else return false

/-- Takes the next token, which must be a certain one. -/
def expect (t : Token) : Compose Unit := do
  if !(← accept t) then fail

/-- An anchor before a node, if there is one. -/
def anchor? : Compose (Option Text) := do
  match ← peek with
  | .anchor name =>
    advance
    return some name
  | _ => return none

/-- A tag before a node, if there is one. -/
def tag? : Compose (Option (Option Text × Text)) := do
  match ← peek with
  | .tag handle tail =>
    advance
    return some (handle, tail)
  | _ => return none

/-- An anchor and a tag before a node, in any order. -/
def properties : Compose (Option Text × Option (Option Text × Text)) := do
  match ← anchor? with
  | some name => return (some name, ← tag?)
  | none =>
    match ← tag? with
    | some tag => return (← anchor?, some tag)
    | none => return (none, none)

def fullName (handle : Option Text) (tail : Text) : Compose Text := do
  match handle with
  | none => return tail
  | some h =>
    match (← get).handles.lookup h with
    | some meaning => return meaning ++ tail
    | none => fail

/-- The tag that a node is given: none, the one that leaves it to the form, or a tag. -/
inductive Given where
  | none
  | byForm
  | tag (t : Tag)

/-- The tag that properties give. -/
def given (p : Option (Option Text × Text)) : Compose Given := do
  match p with
  | none => return .none
  | some (handle, tail) =>
    let name ← fullName handle tail
    return if name == ("!" : Text) then .byForm else .tag (.ofName name)

/-- The tag of a collection. -/
def Given.orElse (g : Given) (t : Tag) : Tag :=
  match g with
  | .tag t => t
  | _ => t

def scalar (g : Given) (t : Text) (isPlain : Bool) : Node :=
  match g with
  | .tag tag => .scalar tag t
  | .byForm => .scalar (.ofPlain t) t
  | .none => .scalar (if isPlain then .ofPlain t else .text) t

def aliasOf (name : Text) : Compose Node := do
  match (← get).anchors.lookup name with
  | none => fail
  | some (some n) => return n
  | some none => return .enclosing name

/-- Composes a node that may be known by a name; a name is given once. -/
def anchoring (name : Option Text) (x : Compose Node) : Compose Node := do
  match name with
  | none => x
  | some name =>
    if ((← get).anchors.lookup name).isSome then fail
    modify fun s => { s with anchors := (name, none) :: s.anchors }
    let n ← x
    let n := match n with
      | .scalar .. => n
      | n => .anchored name n
    modify fun s => { s with anchors := (name, some n) :: s.anchors }
    return n

/-- A node, which is empty if one of some tokens is next. -/
def before (ends : List Token) (x : Compose Node) : Compose Node := do
  if ends.contains (← peek) then return .empty else x

mutual

/-- A node, in block style or in flow style. Sequences may start at the indent of the mapping that they
are a value in. -/
def node : (fuel : Nat) → (inBlock indentless : Bool) → Compose Node
  | 0, _, _ => fail
  | fuel + 1, inBlock, indentless => do
    match ← peek with
    | .alias name =>
      advance
      aliasOf name
    | _ =>
      let (anchor, tag) ← properties
      let g ← given tag
      anchoring anchor do
        match ← peek with
        | .scalar t isPlain =>
          advance
          return scalar g t isPlain
        | .flowSequence =>
          advance
          return .sequence (g.orElse .sequence) (← flowItems fuel true)
        | .flowMapping =>
          advance
          return .mapping (g.orElse .mapping) (← flowEntries fuel true)
        | t =>
          if indentless && t = .blockEntry then
            return .sequence (g.orElse .sequence) (← indentlessItems fuel)
          else if inBlock && t = .blockSequence then
            advance
            return .sequence (g.orElse .sequence) (← blockItems fuel)
          else if inBlock && t = .blockMapping then
            advance
            return .mapping (g.orElse .mapping) (← blockEntries fuel)
          else if anchor.isSome || tag.isSome then return scalar g [] (tag.isNone)
          else fail

def blockItems : (fuel : Nat) → Compose (List Node)
  | 0 => fail
  | fuel + 1 => do
    if ← accept .blockEntry then
      let n ← before [.blockEntry, .blockEnd] (node fuel true false)
      return n :: (← blockItems fuel)
    else
      expect .blockEnd
      return []

/-- The items of a sequence without an indent of its own. -/
def indentlessItems : (fuel : Nat) → Compose (List Node)
  | 0 => fail
  | fuel + 1 => do
    if ← accept .blockEntry then
      let n ← before [.blockEntry, .key, .value, .blockEnd] (node fuel true false)
      return n :: (← indentlessItems fuel)
    else return []

def blockEntries : (fuel : Nat) → Compose (List (Node × Node))
  | 0 => fail
  | fuel + 1 => do
    let half : Compose Node := before [.key, .value, .blockEnd] (node fuel true true)
    let valueOf (k : Node) : Compose (List (Node × Node)) := do
      let v ← if ← accept .value then half else pure .empty
      return (k, v) :: (← blockEntries fuel)
    if ← accept .key then valueOf (← half)
    else
      expect .blockEnd
      return []

/-- The items of a flow sequence; a pair among them is a mapping with one entry. -/
def flowItems : (fuel : Nat) → (first : Bool) → Compose (List Node)
  | 0, _ => fail
  | fuel + 1, first => do
    if ← accept .flowSequenceEnd then return []
    if !first then expect .flowEntry
    let half (ends : List Token) : Compose Node := before ends (node fuel false false)
    if ← accept .key then
      let k ← half [.value, .flowEntry, .flowSequenceEnd]
      let v ← if ← accept .value then half [.flowEntry, .flowSequenceEnd] else pure .empty
      return .mapping .mapping [(k, v)] :: (← flowItems fuel false)
    else if ← accept .flowSequenceEnd then return []
    else
      let n ← node fuel false false
      return n :: (← flowItems fuel false)

/-- The entries of a flow mapping; a key alone has an empty value. -/
def flowEntries : (fuel : Nat) → (first : Bool) → Compose (List (Node × Node))
  | 0, _ => fail
  | fuel + 1, first => do
    if ← accept .flowMappingEnd then return []
    if !first then expect .flowEntry
    let half (ends : List Token) : Compose Node := before ends (node fuel false false)
    if ← accept .key then
      let k ← half [.value, .flowEntry, .flowMappingEnd]
      let v ← if ← accept .value then half [.flowEntry, .flowMappingEnd] else pure .empty
      return (k, v) :: (← flowEntries fuel false)
    else if ← accept .flowMappingEnd then return []
    else
      let n ← node fuel false false
      return (n, .empty) :: (← flowEntries fuel false)

end

/-- What tag handles stand for unless directives say otherwise. -/
def usualHandles : List (Text × Text) := [("!", "!"), ("!!", Tag.standard)]

/-- The directives before a document: at most one version, which must be one of the first, and tag handles,
each once. -/
def directives : (fuel : Nat) → (versions : Nat) → (handles : List (Text × Text)) → Compose Unit
  | 0, _, _ => fail
  | fuel + 1, versions, handles => do
    match ← peek with
    | .directive d =>
      advance
      match d with
      | .version major =>
        if versions ≠ 0 || major ≠ 1 then fail
        directives fuel 1 handles
      | .handle name meaning =>
        if (handles.lookup name).isSome then fail
        directives fuel versions ((name, meaning) :: handles)
      | .ignored => directives fuel versions handles
    | _ => modify fun s => { s with handles := handles ++ usualHandles }

/-- Takes the markers of the end of a document. -/
def skipEnds : (fuel : Nat) → Compose Unit
  | 0 => fail
  | fuel + 1 => do
    if ← accept .documentEnd then skipEnds fuel

def document (fuel : Nat) : Compose (Option Node) := do
  let body : Compose Node := node fuel true false
  let finish (n : Node) : Compose (Option Node) := do
    skipEnds fuel
    expect .streamEnd
    return some n
  match ← peek with
  | .streamEnd => return none
  | .documentStart | .directive _ =>
    directives fuel 0 []
    expect .documentStart
    match ← peek with
    | .directive _ | .documentStart | .documentEnd | .streamEnd => finish .empty
    | _ => finish (← body)
  | _ => finish (← body)

end Compose

def Node.ofText? (t : Text) : Except Problem (Option Node) :=
  let tokens := Token.ofText t
  ((Compose.document (4 * tokens.length + 16)).run { tokens, handles := Compose.usualHandles }).map (·.1)

end HostedLua.Yaml
