import HostedLua.Proofs.Container.Key
import HostedLua.Proofs.Crossing.Arrival

/-! Keys of Lua's that the host takes for one. To Lua a truth value is no number, while the host counts true as one and
false as none: there the two are the same key. All other keys stay apart, whatever their kinds are. -/

namespace HostedLua

namespace Lua

namespace Key

/-- A truth value, and the whole number that it counts as. -/
def twin : Key → Key → Bool
  | .bool b, .int i | .int i, .bool b => i == if b then 1 else 0
  | _, _ => false

variable {k l l' : Key}

theorem twin_comm (k l : Key) : k.twin l = l.twin k := by
  cases k <;> cases l <;> rfl

/-- A key has one twin at most. -/
theorem twin_unique (h : k.twin l = true) (h' : k.twin l' = true) : l = l' := by
  cases k <;> cases l <;> first | contradiction | skip
  all_goals cases l' <;> first | contradiction | skip
  case bool.int.int b i j => rw [eq_of_beq h, eq_of_beq h']
  case int.bool.bool i b c =>
    have hbc : (if b then 1 else 0 : Int64) = if c then 1 else 0 := (eq_of_beq h).symm.trans (eq_of_beq h')
    cases b <;> cases c <;> first | rfl | contradiction

theorem value_ne_host (h : ∀ id, k ≠ .host id) (id : Nat) : k.value ≠ .host id := by
  cases k with
  | host n => exact absurd rfl (h n)
  | _ => exact Value.noConfusion

end Key

/-! ### Entries of twins -/

variable {e p : Key × Value} {es : List (Key × Value)}

/-- Puts an entry among others: an entry with a twin of its key gets its value, or else it comes last. -/
def putTwin : List (Key × Value) → Key × Value → List (Key × Value)
  | [], p => [p]
  | e :: es, p => if e.1.twin p.1 then (e.1, p.2) :: es else e :: putTwin es p

/-- Entries of which those with twins as keys are merged: the key met first stays, and the value met last. -/
def mergeTwins : List (Key × Value) → List (Key × Value)
  | [] => []
  | e :: es => (e.1, ((es.find? (e.1.twin ·.1)).map (·.2)).getD e.2) :: (mergeTwins es).filter (!e.1.twin ·.1)

/-- Where no keys are twins every entry stays. -/
theorem mergeTwins_eq_self (h : es.Pairwise fun p q => p.1.twin q.1 = false) : mergeTwins es = es := by
  induction es with
  | nil => rfl
  | cons e es ih =>
    rw [List.pairwise_cons] at h
    have hfind : es.find? (e.1.twin ·.1) = none := List.find?_eq_none.mpr fun q hq => by simp [h.1 q hq]
    rw [mergeTwins, ih h.2, hfind, List.filter_eq_self.mpr fun q hq => by simp [h.1 q hq]]
    rfl

theorem key_of_mem_mergeTwins (h : p ∈ mergeTwins es) : ∃ q ∈ es, q.1 = p.1 := by
  induction es with
  | nil => contradiction
  | cons e es ih =>
    rcases List.mem_cons.mp h with rfl | h
    · exact ⟨e, List.mem_cons_self .., rfl⟩
    · obtain ⟨q, hq, hkey⟩ := ih (List.mem_filter.mp h).1
      exact ⟨q, List.mem_cons_of_mem _ hq, hkey⟩

theorem value_of_mem_mergeTwins (h : p ∈ mergeTwins es) : ∃ q ∈ es, q.2 = p.2 := by
  induction es with
  | nil => cases h
  | cons e es ih =>
    rw [mergeTwins] at h
    rcases List.mem_cons.mp h with rfl | h
    · cases hfind : es.find? (e.1.twin ·.1) with
      | none => exact ⟨e, List.mem_cons_self, rfl⟩
      | some q => exact ⟨q, List.mem_cons_of_mem _ (List.mem_of_find?_eq_some hfind), rfl⟩
    · obtain ⟨q, hq, heq⟩ := ih (List.mem_filter.mp h).1
      exact ⟨q, List.mem_cons_of_mem _ hq, heq⟩

theorem key_of_mem_putTwin (h : e ∈ putTwin es p) : e.1 = p.1 ∨ ∃ q ∈ es, q.1 = e.1 := by
  induction es with
  | nil => exact .inl (congrArg Prod.fst (List.mem_singleton.mp h))
  | cons q es ih =>
    rw [putTwin] at h
    split_ifs at h
    · rcases List.mem_cons.mp h with rfl | h
      · exact .inr ⟨q, List.mem_cons_self .., rfl⟩
      · exact .inr ⟨e, List.mem_cons_of_mem _ h, rfl⟩
    · rcases List.mem_cons.mp h with rfl | h
      · exact .inr ⟨e, List.mem_cons_self .., rfl⟩
      · rcases ih h with hkey | ⟨q', hq', hkey⟩
        · exact .inl hkey
        · exact .inr ⟨q', List.mem_cons_of_mem _ hq', hkey⟩

theorem putTwin_append (h : ∀ q ∈ es, q.1.twin p.1 = false) : putTwin es p = es ++ [p] := by
  induction es with
  | nil => rfl
  | cons e es ih =>
    rw [putTwin, if_neg (by simp [h e (List.mem_cons_self ..)]), ih fun q hq => h q (List.mem_cons_of_mem _ hq)]
    rfl

/-- Leaving entries out by their keys may come first, if neither the new entry nor a twin of it is left out. -/
theorem filter_putTwin (test : Key → Bool) (hp : test p.1 = true)
    (h : ∀ q ∈ es, q.1.twin p.1 = true → test q.1 = true) :
    (putTwin es p).filter (test ·.1) = putTwin (es.filter (test ·.1)) p := by
  induction es with
  | nil => simp [putTwin, hp]
  | cons e es ih =>
    have ih := ih fun q hq => h q (List.mem_cons_of_mem _ hq)
    cases htwin : e.1.twin p.1 with
    | true =>
      have he := h e (List.mem_cons_self ..) htwin
      simp only [putTwin, htwin, if_true, List.filter_cons, he]
    | false => cases he : test e.1 <;> simp [putTwin, htwin, he, ih]

/-- One more entry is merged with the others. -/
theorem mergeTwins_concat (h : (es ++ [p]).Pairwise fun p q => p.1 ≠ q.1) :
    mergeTwins (es ++ [p]) = putTwin (mergeTwins es) p := by
  induction es with
  | nil => rfl
  | cons e es ih =>
    rw [List.cons_append, List.pairwise_cons] at h
    obtain ⟨he, h⟩ := h
    have hep : e.1 ≠ p.1 := he p (by simp)
    have hp : ∀ q ∈ es, q.1 ≠ p.1 := fun q hq => (List.pairwise_append.mp h).2.2 q hq p (List.mem_singleton_self p)
    rw [List.cons_append, mergeTwins, mergeTwins, ih h, putTwin]
    cases htwin : e.1.twin p.1 with
    | true =>
      -- The new entry is the twin of the first one, so it is of no other, and no other is of the first one.
      have hfind : es.find? (e.1.twin ·.1) = none := List.find?_eq_none.mpr fun q hq hq' =>
        hp q hq (Key.twin_unique hq' htwin)
      have hnone : ∀ q ∈ mergeTwins es, q.1.twin p.1 = false := by
        intro q hq
        obtain ⟨q', hq', hkey⟩ := key_of_mem_mergeTwins hq
        by_contra hne
        have hqp : p.1.twin q.1 = true := by rw [Key.twin_comm, ← Bool.not_eq_false]; exact hne
        rw [Key.twin_comm] at htwin
        exact he q' (List.mem_append_left _ hq') ((Key.twin_unique htwin hqp).trans hkey.symm)
      rw [if_pos rfl, putTwin_append hnone, List.filter_append, List.find?_append, hfind]
      simp [htwin]
    | false =>
      have hkeep : ∀ q ∈ mergeTwins es, q.1.twin p.1 = true → (!e.1.twin q.1) = true := by
        intro q hq hqp
        by_contra hne
        have hqe : q.1.twin e.1 = true := by rw [Key.twin_comm]; simpa using hne
        exact hep (Key.twin_unique hqe hqp)
      rw [if_neg Bool.false_ne_true, filter_putTwin (!e.1.twin ·) (by simp [htwin]) hkeep,
        List.find?_append]
      simp [htwin]

theorem foldl_putTwin (h : es.Pairwise fun p q => p.1 ≠ q.1) : es.foldl putTwin [] = mergeTwins es := by
  induction es using List.reverseRecOn with
  | nil => rfl
  | append_singleton es p ih =>
    rw [List.foldl_append, ih (List.pairwise_append.mp h).1, mergeTwins_concat h]
    rfl

/-! ### Scalars -/

inductive Key.Form (cs : Charset) (encoding : Host.Value) : Key → Host.Value → Prop where
  | bool (b : Bool) : Form cs encoding (.bool b) (.bool b)
  | int (i : Int64) : Form cs encoding (.int i) (.int i.toInt)
  | float (x : FloatKey) : Form cs encoding (.float x) (.float (Float.ofBits x.bits))
  | str (b : Bytes) : Form cs encoding (.str b) (cs.shown encoding b)

namespace Key

open Host

variable {cs : Charset} {k l : Key} {encoding x y : Host.Value}

theorem isInt_float (x : FloatKey) (i : Int64) : Binary.isInt (Float.ofBits x.bits) i.toInt = false := by
  simpa [Binary.isInt] using x.whole?_ne i

/-- The whole number that a truth value counts as. -/
theorem toInt_ite (b : Bool) : (if b then 1 else 0 : Int64).toInt = if b then 1 else 0 := by
  cases b <;> rfl

theorem isInt_bool (x : FloatKey) (b : Bool) :
    Binary.isInt (Float.ofBits x.bits) (if b then 1 else 0) = false := by
  rw [← toInt_ite, isInt_float]

theorem beq_toInt (b : Bool) (i : Int64) : ((if b then 1 else 0 : Int) == i.toInt) = (i == if b then 1 else 0) := by
  rw [← toInt_ite, Bool.eq_iff_iff, beq_iff_eq, beq_iff_eq, Int64.toInt_inj, eq_comm]

/-- A string is equal to no scalar of another kind. -/
theorem scalarEq_str (b : Bytes) (hl : l.Form cs encoding y) (hstr : ∀ b', l ≠ .str b') :
    (cs.shown encoding b).scalarEq y = false ∧ y.scalarEq (cs.shown encoding b) = false := by
  rcases cs.shown_eq encoding b with ⟨t, h⟩ | ⟨b', h⟩ <;> rw [h] <;>
  cases hl with
  | str b' => exact absurd rfl (hstr b')
  | _ => exact ⟨rfl, rfl⟩

/-- A scalar is no object, and equal to none. -/
theorem Form.not_obj (h : k.Form cs encoding x) (id : Nat) :
    x ≠ .obj id ∧ x.scalarEq (.obj id) = false ∧ (Host.Value.obj id).scalarEq x = false := by
  cases h with
  | str b =>
    rcases cs.shown_eq encoding b with ⟨t, h⟩ | ⟨b', h⟩ <;> rw [h] <;> exact ⟨Host.Value.noConfusion, rfl, rfl⟩
  | _ => exact ⟨Host.Value.noConfusion, rfl, rfl⟩

/-- Scalars that are different keys of Lua's are equal on the host just if they are twins. -/
theorem scalarEq_form (hk : k.Form cs encoding x) (hl : l.Form cs encoding y) (hne : k ≠ l) :
    x.scalarEq y = k.twin l := by
  cases hk with
  | bool b =>
    cases hl with
    | bool c => cases b <;> cases c <;> first | rfl | contradiction
    | int i => exact beq_toInt b i
    | float x => exact isInt_bool x b
    | str b' => exact (scalarEq_str b' (.bool b) fun _ => Key.noConfusion).2
  | int i =>
    cases hl with
    | bool b => exact (Bool.beq_comm).trans (beq_toInt b i)
    | int j => exact beq_false_of_ne fun h => hne (congrArg Key.int (Int64.toInt_inj.mp h))
    | float x => exact isInt_float x i
    | str b => exact (scalarEq_str b (.int i) fun _ => Key.noConfusion).2
  | float x =>
    cases hl with
    | bool b => exact isInt_bool x b
    | int i => exact isInt_float x i
    | float y => exact Bool.eq_false_iff.mpr fun h => hne (congrArg Key.float (FloatKey.eq_of_beq h))
    | str b => exact (scalarEq_str b (.float x) fun _ => Key.noConfusion).2
  | str b =>
    cases hl with
    | str b' => exact Bool.eq_false_iff.mpr fun h => hne (congrArg Key.str (Charset.scalarEq_shown h))
    | bool c => exact (scalarEq_str b (.bool c) fun _ => Key.noConfusion).1
    | int i => exact (scalarEq_str b (.int i) fun _ => Key.noConfusion).1
    | float x => exact (scalarEq_str b (.float x) fun _ => Key.noConfusion).1

end Key

end Lua

open Host

namespace World

variable {w w' : World} {state depth : Nat} {s s' : LuaState} {encoding x y : Value} {k l : Lua.Key}

/-! ### Equality of what Lua has given -/

/-- A value is no container of the host's: if it is an object, it is a guest or a handle. -/
def Plain (w : World) (x : Value) : Prop :=
  ∀ id, x = .obj id → (∃ g, w.objects[id]? = some (.guest g)) ∨ ∃ h, w.objects[id]? = some (.handle h)

theorem Plain.of_scalar (h : ∀ id, x ≠ .obj id) : w.Plain x := fun id hid => absurd hid (h id)

theorem Plain.object? (h : w.Plain x) :
    w.object? x = none ∨ (∃ g, w.object? x = some (.guest g)) ∨ ∃ h, w.object? x = some (.handle h) := by
  cases x with
  | obj id => exact .inr (h id rfl)
  | _ => exact .inl rfl

/-- Values that are no containers are equal just if they are as scalars, objects by identity. -/
theorem valueEq_plain (hx : w.Plain x) (hy : w.Plain y) : w.valueEq depth x y = x.scalarEq y := by
  cases depth with
  | zero => rfl
  | succ depth =>
    rw [valueEq]
    rcases hx.object? with hx | ⟨g, hx⟩ | ⟨h, hx⟩ <;> rcases hy.object? with hy | ⟨g', hy⟩ | ⟨h', hy⟩ <;>
      rw [hx, hy] <;> cases x.scalarEq y <;> rfl

theorem hashable_plain (hx : w.Plain x) : w.hashable depth x = true := by
  cases depth with
  | zero => rfl
  | succ depth =>
    rw [hashable]
    rcases hx.object? with hx | ⟨g, hx⟩ | ⟨h, hx⟩ <;> rw [hx]

/-- The host form of a key is a scalar, or it is a handle; only the standard output is a guest there. -/
theorem presents_key (h : w'.Presents state s encoding k.value x) (hk : ∀ id, k ≠ .host id) :
    k.Form s.charset encoding x ∨ (∀ l, k.twin l = false) ∧ ∃ id, x = .obj id ∧
      ((∃ h, w'.objects[id]? = some (.handle h)) ∨ k = .stdout ∧ ∃ g, w'.objects[id]? = some (.guest g)) := by
  generalize hv : k.value = v at h
  cases h with
  | nil => cases k <;> cases hv
  | bool b =>
    cases k <;> cases hv
    exact .inl (.bool b)
  | int i =>
    cases k <;> cases hv
    exact .inl (.int i)
  | float x =>
    cases k <;> cases hv
    exact .inl (.float _)
  | str b =>
    cases k <;> cases hv
    exact .inl (.str b)
  | handle kind_eq started guest handle =>
    refine .inr ⟨fun l => ?_, _, rfl, .inl ⟨_, handle⟩⟩
    cases k <;> cases hv <;> first | rfl | contradiction
  | fresh unstarted runs handle =>
    cases k <;> cases hv
    exact .inr ⟨fun l => rfl, _, rfl, .inl ⟨_, handle⟩⟩
  | stdout guest =>
    cases k <;> cases hv
    exact .inr ⟨fun l => rfl, _, rfl, .inr ⟨rfl, _, guest⟩⟩
  | object n =>
    cases k <;> cases hv
    exact absurd rfl (hk n)

/-- The host form of a value of Lua's own is no container. -/
theorem Presents.plain {v : Lua.Value} (h : w.Presents state s encoding v x) (hv : ∀ id, v ≠ .host id) : w.Plain x := by
  cases h with
  | nil | bool | int | float => exact .of_scalar fun _ => Value.noConfusion
  | str b => exact .of_scalar (Charset.shown_ne_obj _ _ b)
  | handle kind_eq started guest handle =>
    rintro _ ⟨⟩
    exact .inr ⟨_, handle⟩
  | fresh unstarted runs handle =>
    rintro _ ⟨⟩
    exact .inr ⟨_, handle⟩
  | stdout guest =>
    rintro _ ⟨⟩
    exact .inl ⟨_, guest⟩
  | object n => exact absurd rfl (hv n)

/-- The host forms of different keys are equal just if the keys are twins. The later one is new if it is an object. -/
theorem scalarEq_presents (hcs : s'.charset = s.charset)
    (hx : w.Presents state s encoding k.value x) (hk : ∀ id, k ≠ .host id) (hw : w.Grown state w')
    (hy : w'.Presents state s' encoding l.value y) (hl : ∀ id, l ≠ .host id)
    (hnew : ∀ id, y = .obj id → w.objects.size ≤ id ∨ ∃ g, w'.objects[id]? = some (.guest g)) (hne : k ≠ l) :
    x.scalarEq y = k.twin l := by
  rcases presents_key hx hk with hxk | ⟨hktwin, i, rfl, hi⟩ <;>
    rcases presents_key hy hl with hyl | ⟨hltwin, j, rfl, hj⟩
  · exact Lua.Key.scalarEq_form hxk (hcs ▸ hyl) hne
  · rw [Lua.Key.twin_comm, hltwin, (hxk.not_obj j).2.1]
  · rw [hktwin, (hyl.not_obj i).2.2]
  · rw [hktwin]
    refine beq_false_of_ne ?_
    rintro rfl
    rcases hnew i rfl with hsize | ⟨g, hg⟩
    · have hnone := Array.getElem?_eq_none hsize
      rcases hi with ⟨h, hi⟩ | ⟨-, g, hi⟩ <;> cases hnone.symm.trans hi
    · rcases hj with ⟨h, hj⟩ | ⟨rfl, -⟩
      · cases hg.symm.trans hj
      · rcases hi with ⟨h, hi⟩ | ⟨rfl, -⟩
        · cases hg.symm.trans (hw.objects hi)
        · exact hne rfl

end World

end HostedLua
