import HostedLua.Printer
import HostedLua.Proofs.Bridge.Run
import HostedLua.Proofs.Text.Digits
import Mathlib.Data.List.TakeWhile

/-! Printing in two parts. What is printed is a tree: a value is read as one, tables down to the depth of the printer,
and the text of a tree is laid out without looking at the world. Printing is reading a tree and laying it out. -/

namespace HostedLua

open Host

/-- The digits of an address. -/
structure Address where
  digits : Text
  hex : ∀ c ∈ digits, c.hexValue?.isSome = true

namespace Address

theorem isSome_hexValue?_iff {c : CodePoint} : c.hexValue?.isSome = true ↔
    c.isDigit = true ∨ c.within 'a' 'f' = true ∨ c.within 'A' 'F' = true := by
  unfold CodePoint.hexValue?
  split_ifs <;> simp_all

theorem hexValue?_lower {c : CodePoint} (h : c.hexValue?.isSome = true) : c.lower.hexValue?.isSome = true := by
  rw [CodePoint.lower]
  split_ifs with hupper
  · rw [isSome_hexValue?_iff] at h ⊢
    have hval : (CodePoint.ofNat (c.val + 32)).val = (c.val + 32) % 0x110000 := rfl
    simp only [CodePoint.isDigit, CodePoint.within, Bool.and_eq_true, decide_eq_true_eq, hval] at h hupper ⊢
    simp only [Char.reduceToNat] at h hupper ⊢
    omega
  · exact h

theorem hex_addressHere? {t a : Text} (h : Bridge.addressHere? t = some a) : ∀ c ∈ a, c.hexValue?.isSome = true := by
  unfold Bridge.addressHere? at h
  split at h
  · next z x body =>
    obtain ⟨-, h⟩ := Option.ite_none_right_eq_some.mp h
    obtain rfl := Option.some.inj h
    intro c hc
    obtain ⟨d, hd, rfl⟩ := List.mem_map.mp hc
    have hhex := List.mem_takeWhile_imp (p := fun d : CodePoint => d.hexValue?.isSome) hd
    exact hexValue?_lower hhex
  · contradiction

theorem hex_addressIn? {t a : Text} (h : Bridge.addressIn? t = some a) : ∀ c ∈ a, c.hexValue?.isSome = true := by
  fun_induction Bridge.addressIn? t with
  | case1 => contradiction
  | case2 c rest a' hhere =>
    obtain rfl := Option.some.inj h
    exact hex_addressHere? hhere
  | case3 c rest hnone ih => exact ih h

def ofObject (id : Nat) : Address := ⟨Bridge.objectAddress id, Text.hexValue?_hex _⟩

def in? (t : Text) : Option Address :=
  match h : Bridge.addressIn? t with
  | some a => some ⟨a, hex_addressIn? h⟩
  | none => none

theorem map_in? (t : Text) : (in? t).map digits = Bridge.addressIn? t := by
  unfold in?
  split <;> simp_all

end Address

namespace Printer

/-- A value as it is printed. Lists and mappings are blocks, those of mappings of entries. -/
inductive Tree where
  | nil
  | bool (b : Bool)
  | int (i : Int)
  | float (x : Float)
  | string (t : Text)
  | bytes (b : Bytes)
  /-- A handle, by the address of what it stands for. -/
  | handle (kind : HandleKind) (address : Address)
  /-- A value of Lua's own without a handle, by the address that it has on the host. -/
  | guest (value : Lua.Value) (address : Address)
  /-- A value with a text of its own. -/
  | other (t : Text)
  | tuple (parts : List Tree)
  | block (parts : List Tree)
  | entry (key value : Tree)
  /-- A table that is not expanded. -/
  | cut

namespace Tree

/-- A key, which has a text as a value: names stand for themselves. -/
def keyText (key : Tree) (t : Text) : Text :=
  match key with
  | string name => if isName name then name else "[" ++ t ++ "]"
  | _ => "[" ++ t ++ "]"

def text (p : Printer) (level : Int) : Tree → Text
  | nil => "nil"
  | bool b => boolText b
  | int i => Text.ofInt i
  | float x => Decimal.shortest x
  | string t => quoted t
  | bytes b => quoted (Utf8.decodeLossy b)
  | handle kind a => "[" ++ kind.label ++ ":0x" ++ a.digits ++ "]"
  | guest value a => "<Lua " ++ Bridge.guestKind value ++ " at 0x" ++ a.digits ++ ">"
  | other t => t
  | tuple parts => Text.join ", " (parts.map (text p level))
  | block parts => p.block (parts.map (text p (level + 1))) level
  | entry k v => keyText k (text p level k) ++ " = " ++ text p level v
  | cut => "\x7b...\x7d"

end Tree

/-- The address that a handle shows. -/
def addressOf (E : Engine) (id : Nat) (h : Handle) : Bridge Address := do
  if !(← Bridge.isValid h) then return .ofObject id
  else if !(← Bridge.isOpen h.state) then return .ofObject id
  else
    match ← Bridge.protectedCall (Bridge.callLua E h.state (.builtin .tostring) [h.guest]) with
    | .ok [.text t] => return (Address.in? t).getD (.ofObject id)
    | _ => return .ofObject id

/-- The tree of a key: a name is a string, and any other value is shown. -/
def keyTree (shown : Value → Bridge Tree) (k : Value) : Bridge Tree :=
  match k with
  | .text t => if isName t then pure (.string t) else shown k
  | _ => shown k

/-- The tree that a value is printed as at a place and a level. -/
def treeAt (p : Printer) (l : Limits) (E : Engine) : (fuel : Nat) → Path → (level : Int) → Value → Bridge Tree
  | 0, _, _, _ => Bridge.failNesting
  | fuel + 1, path, level, v => do
    let parts (link : Link) (level : Int) (vs : List Value) : Bridge (List Tree) :=
      vs.zipIdx.mapM fun (v, i) => treeAt p l E fuel ((link, i) :: path) level v
    let entries (inTable : Bool) (ps : List (Value × Value)) : Bridge (List Tree) :=
      ps.zipIdx.mapM fun ((k, v), i) => do
        let key ← keyTree (treeAt p l E fuel ((.key inTable, i) :: path) (level + 1)) k
        return .entry key (← treeAt p l E fuel ((.value inTable, i) :: path) (level + 1) v)
    let room := l.roomAt path
    if room = .none then Bridge.failNesting
    else match v with
    | .none => return .nil
    | .bool b => return .bool b
    | .int i => (fun _ => .int i) <$> Bridge.intText i
    | .float x => return .float x
    | .text t => return .string t
    | .bytes b => return .bytes b
    | .member _ => .other <$> Bridge.repr E v
    | .obj id =>
      match ← Bridge.object id with
      | .tuple vs => .tuple <$> parts .part level vs
      | .list vs => .block <$> parts .item (level + 1) vs
      | .dict ps | .proxy ps => .block <$> entries false ps
      | .badItems text => Bridge.raise "ValueError" text
      | .error e _ => return .other ("error(" ++ e.status.name ++ "): " ++ e.message)
      | .handle h =>
        match h.kind with
        | .table =>
          if !(← Bridge.isValid h) then .handle h.kind <$> addressOf E id h
          else if p.maxDepth ≤ level then return .cut
          else return .block (← entries true (← entriesWithin E room h))
        | _ => .handle h.kind <$> addressOf E id h
      | .guest g => return .guest g.value (.ofObject id)
      | _ => .other <$> Bridge.repr E v

/-- The tree that a value is printed as at a level. -/
def tree (p : Printer) (E : Engine) (v : Value) (level : Int) : Bridge Tree := do
  let l := (← get).limits
  p.treeAt l E (l.printNesting + 1) [] level v

variable {p : Printer} {l : Limits} {E : Engine} {path : Path}

theorem handleText_eq (id : Nat) (h : Handle) :
    Bridge.handleText E id h = Tree.text p level <$> Tree.handle h.kind <$> addressOf E id h := by
  have haddress (x : Option Address) : (x.map Address.digits).getD (Bridge.objectAddress id) =
      (x.getD (.ofObject id)).digits := by cases x <;> rfl
  rw [Bridge.handleText, addressOf]
  simp only [map_bind]
  refine bind_congr fun valid => ?_
  cases valid with
  | false => simp [Tree.text, Address.ofObject]
  | true =>
    simp only [Bridge.addressOf, bind_assoc, if_true, Bool.not_true, Bool.false_eq_true, if_false, map_bind]
    refine bind_congr fun opened => ?_
    cases opened with
    | false => simp [Tree.text, Address.ofObject]
    | true =>
      simp only [bind_assoc, Bool.not_true, Bool.false_eq_true, if_false, map_bind]
      refine bind_congr fun r => ?_
      split <;> simp [Tree.text, haddress, ← Address.map_in?, Address.ofObject]

theorem mapM_map {α β γ : Type} (f : β → γ) (g : α → Bridge β) (xs : List α) :
    xs.mapM (fun x => f <$> g x) = List.map f <$> xs.mapM g := by
  induction xs with
  | nil => simp
  | cons x xs ih => simp [List.mapM_cons, ih]

theorem repr_guest {id : Nat} {g : Guest} {w : World} (hid : w.objects[id]? = some (.guest g)) :
    Bridge.repr E (.obj id) w = (Tree.text p level <$> pure (.guest g.value (.ofObject id)) : Bridge Text) w := by
  have hplain : Bridge.guestText E id g false w =
      some (.ok ("<Lua " ++ Bridge.guestKind g.value ++ " at 0x" ++ Bridge.objectAddress id ++ ">"), w) := by
    rw [Bridge.guestText, Bridge.bind_ok (Bridge.state?_apply g.state w)]
    cases w.states[g.state]? <;> rfl
  rw [Bridge.repr, Bridge.quotedText, Bridge.bind_ok (Bridge.get_apply w), Bridge.reprWith,
    Bridge.bind_ok (Bridge.object_apply id w), hid]
  exact hplain.trans (by simp [Tree.text, Address.ofObject])

theorem intText_eq (i : Int) : Bridge.intText i = Tree.text p level <$> (fun _ => Tree.int i) <$> Bridge.intText i := by
  rw [Bridge.intText, Integer.write?]
  split_ifs
  · simp [Tree.text]
  · rfl

/-- Of all values, only text is read as a string, and where it is no name it stands in brackets as a key. -/
theorem keyText_treeAt {k : Value} (hk : ∀ t, k = .text t → isName t = false) (fuel : Nat) (level : Int) :
    (fun d => d.keyText (Tree.text p level d)) <$> p.treeAt l E fuel path level k =
      (fun d => "[" ++ Tree.text p level d ++ "]") <$> p.treeAt l E fuel path level k := by
  cases fuel with
  | zero => rfl
  | succ fuel =>
    unfold treeAt
    extract_lets parts entries room
    by_cases hroom : room = .none
    · rw [if_pos hroom]
      rfl
    · rw [if_neg hroom]
      cases k with
      | text t => simp [Tree.keyText, hk t rfl]
      | obj id =>
        simp only [map_bind]
        refine bind_congr fun o => ?_
        cases o with
        | handle h =>
          dsimp only
          split
          · simp only [map_bind]
            refine bind_congr fun valid => ?_
            split_ifs <;> simp [Tree.keyText]
          · simp [Tree.keyText]
        | badItems => rfl
        | _ => simp [Tree.keyText]
      | _ => simp [Tree.keyText]

/-- The text of an entry is that of its key and that of its value. -/
theorem entry_eq {k v : Value} {fuel i : Nat} {inTable : Bool}
    (ih : ∀ path v, p.formatAt l E fuel path level v = Tree.text p level <$> p.treeAt l E fuel path level v) : (do
      let bracketed : Bridge Text := do return "[" ++ (← formatAt p l E fuel ((.key inTable, i) :: path) level k) ++ "]"
      let key ← match k with
        | .text t => if isName t then pure t else bracketed
        | _ => bracketed
      return key ++ " = " ++ (← formatAt p l E fuel ((.value inTable, i) :: path) level v)) =
    Tree.text p level <$> (do
      let key ← keyTree (treeAt p l E fuel ((.key inTable, i) :: path) level) k
      return .entry key (← treeAt p l E fuel ((.value inTable, i) :: path) level v)) := by
  have hentry (x : Bridge Text) {y : Bridge Tree} (hx : x = (fun d => d.keyText (Tree.text p level d)) <$> y) :
      (do return (← x) ++ " = " ++ (← formatAt p l E fuel ((.value inTable, i) :: path) level v)) =
        Tree.text p level <$> (do
          return .entry (← y) (← treeAt p l E fuel ((.value inTable, i) :: path) level v) : Bridge Tree) := by
    simp [hx, ih, Tree.text]
  have hbracketed (hk : ∀ t, k = .text t → isName t = false) :
      (do return "[" ++ (← formatAt p l E fuel ((.key inTable, i) :: path) level k) ++ "]") =
        (fun d => d.keyText (Tree.text p level d)) <$> p.treeAt l E fuel ((.key inTable, i) :: path) level k := by
    rw [keyText_treeAt hk, ih]
    simp
  cases k with
  | text t =>
    dsimp only [keyTree]
    split_ifs with hname
    · exact hentry (pure t) (by simp [Tree.keyText, hname])
    · exact hentry _ (hbracketed fun _ ht => by cases ht; simpa using hname)
  | _ => exact hentry _ (hbracketed fun _ => Value.noConfusion)

/-- Printing is reading a tree and laying it out. -/
theorem formatAt_eq (fuel : Nat) (path : Path) (level : Int) (v : Value) :
    p.formatAt l E fuel path level v = Tree.text p level <$> p.treeAt l E fuel path level v := by
  induction fuel generalizing path level v with
  | zero => rfl
  | succ fuel ih =>
    unfold formatAt treeAt
    extract_lets printedParts printed room parts entries
    have hentries (inTable : Bool) (ps : List (Value × Value)) :
        printed inTable ps = List.map (Tree.text p (level + 1)) <$> entries inTable ps :=
      (congrArg (ps.zipIdx.mapM ·) (funext fun _ => entry_eq fun path => ih path (level + 1))).trans (mapM_map ..)
    have hparts (link : Link) (level : Int) (vs : List Value) :
        printedParts link level vs = List.map (Tree.text p level) <$> parts link level vs :=
      (congrArg (vs.zipIdx.mapM ·) (funext fun _ => ih _ level _)).trans (mapM_map ..)
    by_cases hroom : room = .none
    · rw [if_pos hroom, if_pos hroom]
      rfl
    rw [if_neg hroom, if_neg hroom]
    cases v with
    | int i => exact intText_eq i
    | obj id =>
      funext w
      dsimp only
      rw [map_bind, Bridge.bind_ok (Bridge.object_apply id w), Bridge.bind_ok (Bridge.object_apply id w)]
      cases ho : w.objects[id]? with
      | none => simp [Tree.text]
      | some o =>
        rw [Option.getD_some]
        cases o with
        | tuple vs => simp [hparts, Tree.text]
        | list vs => simp [hparts, Tree.text]
        | dict ps => simp [hentries, Tree.text]
        | proxy ps => simp [hentries, Tree.text]
        | handle h =>
          have hhandle : Bridge.handleText E id h = Tree.text p level <$> Tree.handle h.kind <$> addressOf E id h :=
            handleText_eq id h
          cases hk : h.kind with
          | table =>
            rw [hk] at hhandle
            simp only [hk, map_bind]
            refine congrFun (bind_congr fun valid => ?_) w
            split_ifs
            · exact hhandle
            · simp [Tree.text]
            · simp [hentries, Tree.text]
          | _ =>
            simp only [hk]
            exact congrFun (hk ▸ hhandle) w
        | guest g => exact repr_guest ho
        | badItems t => rfl
        | error e b => simp [Tree.text]
        | _ => simp [Tree.text]
    | _ => simp [Tree.text]

/-- The text of a value is that of its tree. -/
theorem format_eq (p : Printer) (E : Engine) (v : Value) (level : Int) :
    p.format E v level = Tree.text p level <$> p.tree E v level := by
  rw [format, tree, map_bind]
  exact bind_congr fun w => formatAt_eq ..

end Printer

end HostedLua
