import HostedLua.Lua.Library.Args

/-! The functions of the library on sequences in tables. -/

namespace HostedLua.Lua.Library

open Operate (first)

def lengthOf (v : Value) (k : Int64 → Prog) : Prog :=
  Operate.unary none .len ⟨v, none⟩ fun n =>
    match n with
    | .int i => k i
    | _ =>
      match n.number?.bind Number.toInt? with
      | some i => k i
      | none => failHere (.ofString "object length is not an integer")

/-- A table, or a value that can be read like one. -/
def sequenceArg (args : Args) (n : Nat) (k : Value → Prog) : Prog :=
  match args.get? n with
  | some (.table id) => k (.table id)
  | v => failArgType n "table" v

/-- The values of a sequence between two places, joined as strings. -/
def concat (args : Args) : Prog :=
  sequenceArg args 1 fun t => lengthOf t fun length =>
    args.strOr 2 [] fun sep => args.intOr 3 1 fun i => args.intOr 4 length fun j =>
      go t sep ((j.toInt - i.toInt + 1).toNat) i []
where
  go (t : Value) (sep : Bytes) : Nat → Int64 → Bytes → Prog
    | 0, _, acc => .ret [.str acc]
    | n + 1, i, acc =>
      Operate.index none ⟨t, none⟩ (.int i) fun v =>
        match v.toBytes? with
        | some s => go t sep n (i + 1) (acc ++ s ++ if n = 0 then [] else sep)
        | none => .withHeap fun h =>
          failHere (.ofString "invalid value (" ++ h.typeName v ++ .ofString (") at index " ++
            toString i.toInt ++ " in table for 'concat'"))

/-- Puts a value at the end of a sequence, or at a place, from where on the others move up. -/
def insert (args : Args) : Prog :=
  args.table 1 fun id => lengthOf (.table id) fun length =>
    let last := length + 1
    if args.length = 2 then .upd fun h => (h.set id (.int last) (args.get 2), .ret [])
    else if args.length = 3 then
      args.int 2 fun pos =>
        if pos < 1 || last < pos then failArg 2 (.ofString "position out of bounds")
        else .upd fun h =>
          let moved := (List.range (last - pos).toNatClampNeg).foldl (fun h i =>
            let at_ := last - Int64.ofNat i
            h.set id (.int at_) (h.get id (.int (at_ - 1)))) h
          (moved.set id (.int pos) (args.get 3), .ret [])
    else failHere (.ofString "wrong number of arguments to 'insert'")

/-- Takes the value at a place out of a sequence; those after it move down. -/
def remove (args : Args) : Prog :=
  args.table 1 fun id => lengthOf (.table id) fun length =>
    args.intOr 2 length fun pos =>
      if 2 ≤ args.length && (length + 1 < pos || pos < 1) && !(length = 0 && pos = 0) then
        failArg 2 (.ofString "position out of bounds")
      else .upd fun h =>
        let v := h.get id (.int pos)
        let moved := (List.range (length - pos).toNatClampNeg).foldl (fun h i =>
          let at_ := pos + Int64.ofNat i
          h.set id (.int at_) (h.get id (.int (at_ + 1)))) h
        (moved.set id (.int (max pos length)) .nil, .ret [v])

/-- Its arguments as a table, with their count. -/
def pack (args : Args) : Prog :=
  .upd fun h =>
    let (h, id) := h.newTable
    let h := args.zipIdx.foldl (fun h (v, i) => h.set id (.int (Int64.ofNat (i + 1))) v) h
    (h.set id (.str (.ofString "n")) (.ofNat args.length), .ret [.table id])

/-- The values of a sequence between two places. -/
def unpack (args : Args) : Prog :=
  args.intOr 2 1 fun i =>
    let upTo (j : Int64) : Prog :=
      let n := (j.toInt - i.toInt + 1).toNat
      if 1000000 ≤ n then failHere (.ofString "too many results to unpack") else go n i []
    if args.isAbsent 3 then lengthOf (args.get 1) upTo else args.int 3 upTo
where
  go : Nat → Int64 → List Value → Prog
    | 0, _, acc => .ret acc.reverse
    | n + 1, i, acc =>
      Operate.index none ⟨args.get 1, none⟩ (.int i) fun v => go n (i + 1) (v :: acc)

def sortLess (order : Value) (a b : Value) (k : Bool → Prog) : Prog :=
  match order with
  | .nil => Operate.less none false a b k
  | f => .call ⟨none, none⟩ f [a, b] fun vs => k (first vs).truthy

/-- The value at a place of the table being sorted. -/
def at_ (id : Nat) (i : Int) (k : Value → Prog) : Prog :=
  .withHeap fun h => k (h.get id (.int (Int64.ofInt i)))

/-- Puts two values at two places of the table being sorted. -/
def put2 (id : Nat) (i : Int) (v : Value) (j : Int) (w : Value) (k : Prog) : Prog :=
  .upd fun h => ((h.set id (.int (Int64.ofInt i)) v).set id (.int (Int64.ofInt j)) w, k)

def failOrder : Prog := failHere (.ofString "invalid order function for sorting")

/-- Swaps two values if the second one is below the first one. -/
def swapIfBelow (id : Nat) (order : Value) (i j : Int) (k : Prog) : Prog :=
  at_ id i fun a => at_ id j fun b => sortLess order b a fun below =>
    if below then put2 id i b j a k else k

/-- Moves the values below a pivot before those above it, and gives the pivot's place. -/
def partition (id : Nat) (order pivot : Value) (up : Int) : (fuel : Nat) → (i j : Int) →
    (k : Int → Prog) → Prog
  | 0, _, _, _ => failOrder
  | fuel + 1, i, j, k =>
    rise fuel (i + 1) fun i a => fall fuel i (j - 1) fun j b =>
      if j < i then
        at_ id (up - 1) fun p => put2 id (up - 1) a i p (k i)
      else put2 id i b j a (partition id order pivot up fuel i j k)
where
  rise : Nat → Int → (Int → Value → Prog) → Prog
    | 0, _, _ => failOrder
    | fuel + 1, i, k => at_ id i fun a => sortLess order a pivot fun below =>
      if below then if i = up - 1 then failOrder else rise fuel (i + 1) k else k i a
  fall : Nat → Int → Int → (Int → Value → Prog) → Prog
    | 0, _, _, _ => failOrder
    | fuel + 1, i, j, k => at_ id j fun b => sortLess order pivot b fun below =>
      if below then if j < i then failOrder else fall fuel i (j - 1) k else k j b

/-- Sorts the values between two places: the median of three is the pivot, and the smaller part is
sorted first. -/
def sortRange (id : Nat) (order : Value) : (fuel : Nat) → (lo up : Int) → (k : Prog) → Prog
  | 0, _, _, k => k
  | fuel + 1, lo, up, k =>
    if up ≤ lo then k
    else
      swapIfBelow id order lo up
        (if up - lo = 1 then k
        else
          let p := (lo + up) / 2
          let afterMedian : Prog :=
            if up - lo = 2 then k
            else at_ id p fun pivot => at_ id (up - 1) fun b =>
              put2 id p b (up - 1) pivot
                (partition id order pivot up (up - lo + 2).toNat lo (up - 1) fun p =>
                  if p - lo < up - p then
                    sortRange id order fuel lo (p - 1) (sortRange id order fuel (p + 1) up k)
                  else sortRange id order fuel (p + 1) up (sortRange id order fuel lo (p - 1) k))
          at_ id p fun m => at_ id lo fun a => sortLess order m a fun below =>
            if below then put2 id p a lo m afterMedian
            else at_ id up fun b => sortLess order b m fun below =>
              if below then put2 id p b up m afterMedian else afterMedian)

/-- Sorts a sequence in place. -/
def sort (args : Args) : Prog :=
  args.table 1 fun id => lengthOf (.table id) fun n =>
    let run (order : Value) : Prog := sortRange id order n.toNatClampNeg 1 n.toInt (.ret [])
    if n ≤ 1 then .ret []
    else if args.isAbsent 2 then run .nil
    else args.function 2 run

end HostedLua.Lua.Library
