import Mathlib
import HostedLua.Proofs.Evolution.Handle

/-! The state of a language. It is opened when it is asked for and there is no open one, under options that must be
usable; ending the language closes it. What a language computes keeps what operations on handles keep. -/

namespace HostedLua

open Host

namespace World

/-- Options under which a state can be opened: their names are known, and the limit on memory can be read and kept. -/
def Usable (w : World) (config : Nat) : Prop :=
  ∃ o limit charset, ((w.configs[config]?).getD {}).options w = some (.ok o, w) ∧
    Bridge.memoryLimit o.maxMemory w = some (.ok limit, w) ∧
    Bridge.charset? ((w.configs[config]?).getD {}).encoding = some charset

def closed (w : World) (state : Nat) : World :=
  { w with states := w.states.modify state fun s => { s with isOpen := false } }

/-- A language has no open state. -/
def Vacant (w : World) (language : Nat) : Prop :=
  ∀ {s : Nat}, (w.languageOf language).state = some s → w.opened s = false

variable {w : World}

theorem opened_push (objects : Array Object) (s : LuaState) (i : Nat) :
    World.opened { w with objects, states := w.states.push s } i =
      if i = w.states.size then s.isOpen else w.opened i := by
  simp only [opened, Array.getElem?_push]
  split_ifs <;> rfl

theorem opened_closed (s i : Nat) : (w.closed s).opened i = (w.opened i && decide (s ≠ i)) := by
  simp only [opened, closed, Array.getElem?_modify]
  split_ifs with hi
  · cases w.states[i]? <;> simp [hi]
  · simp [hi]

end World

namespace Bridge

variable {α : Type} {I : World → Prop} {R : World → World → Prop} {w w' : World} {c d l s : Nat}

/-! ### Opening a state -/

/-- Reading a text as a whole number, or refusing it under a quotation. -/
theorem reads_read (t quoted : Text) :
    Reads (match Integer.read t with
      | .ok i => return i
      | .error e => raise "ValueError" (e.message quoted) : Bridge Int) := by
  split
  · exact .pure _
  · exact .raise _ _

theorem reads_toInt (v : Value) : Reads (toInt v) := by
  unfold toInt
  split
  · exact reads_read _ _
  · exact reads_read _ _
  · split
    · exact .raise _ _
    · exact .raise _ _
    · exact .pure _
  · refine (reads_object _).bind fun o => ?_
    split
    · exact reads_read _ _
    · exact .raise _ _
  · split
    · exact .pure _
    · exact .raise _ _

theorem reads_guestCodec (v : Value) : Reads (guestCodec v) := by
  unfold guestCodec
  split
  · exact .pure _
  · split
    · exact .pure _
    · exact .raise _ _
  · exact .raise _ _

theorem reads_options (c : Config) : Reads c.options := by
  unfold Host.Config.options
  refine (reads_guestCodec _).bind fun encoding => ?_
  dsimp only
  split
  · exact .bind (.pure _) fun _ => .pure _
  · exact .bind (.map (reads_toInt _) _) fun _ => .pure _

theorem reads_memoryLimit (maxMemory : Option Int) : Reads (memoryLimit maxMemory) := by
  unfold memoryLimit
  split
  · exact .pure _
  · split_ifs
    · exact .raise _ _
    · exact .raise _ _
    · exact .pure _
    · refine reads_limits (f := fun l => if _ < (l.leastMemory : Int) then _ else _) fun l => ?_
      split
      · exact .raise _ _
      · exact .pure _

/-- Whether options are usable depends on the options, the objects and the limits alone. -/
theorem usable_congr (hu : w.Usable c) (hconfigs : w'.configs = w.configs) (hobjects : w'.objects = w.objects)
    (hlimits : w'.limits = w.limits) : w'.Usable c := by
  obtain ⟨o, limit, charset, ho, hlimit, hcharset⟩ := hu
  rw [← hconfigs] at ho hcharset
  exact ⟨o, limit, charset, (reads_options _).congr ho hobjects hlimits, (reads_memoryLimit _).congr hlimit hobjects hlimits,
    hcharset⟩

/-- Every value is true or false. -/
theorem truthy_ok (v : Value) (w : World) : ∃ b, truthy v w = some (.ok b, w) := by
  cases v with
  | obj id =>
    rw [truthy, bind_ok (object_apply id w)]
    cases (w.objects[id]?).getD .nothing <;> exact ⟨_, rfl⟩
  | _ => exact ⟨_, rfl⟩

/-- What the bridge's table is given may be objects made for it. -/
theorem registered_ok (name typeName : String) (flag : Value) (w : World) :
    ∃ entries objects, registered name typeName flag w = some (.ok entries, { w with objects }) := by
  obtain ⟨b, hb⟩ := truthy_ok flag w
  rw [registered, bind_ok hb]
  cases b with
  | false => exact ⟨[], w.objects, rfl⟩
  | true => exact ⟨_, _, rfl⟩

theorem addNamed_size (h : Lua.Heap) (fields : List (String × Lua.Value)) :
    (Lua.Library.addNamed h fields).1.tables.size = h.tables.size + 1 := by
  have hfold (g : Lua.Heap) (id : Nat) : (fields.foldl
      (fun g (p : String × Lua.Value) => g.set id (.str (.ofString p.1)) p.2) g).tables.size = g.tables.size := by
    induction fields generalizing g with
    | nil => rfl
    | cons p fields ih =>
      rw [List.foldl_cons, ih]
      exact Array.size_modify
  exact (hfold h.newTable.1 h.newTable.2).trans (Array.size_push _)

/-- The memory of a new machine has the table of globals in it. -/
theorem globals_initialHeap (limit : Option Nat) (bridge : List (String × Lua.Value)) :
    (Lua.Library.initialHeap limit bridge).globals < (Lua.Library.initialHeap limit bridge).tables.size := by
  have hlast {h h' : Lua.Heap} {fields : List (String × Lua.Value)} {id : Nat}
      (heq : Lua.Library.addNamed h fields = (h', id)) (k : Lua.Key) (v : Lua.Value) : id < (h'.set id k v).tables.size := by
    have hsize := addNamed_size h fields
    have hid : id = h.tables.size := (congrArg Prod.snd heq).symm
    rw [heq] at hsize
    dsimp only at hsize
    rw [Lua.Heap.set, Lua.Heap.modifyTable, Array.size_modify]
    omega
  unfold Lua.Library.initialHeap
  iterate 9 split
  next heq => exact hlast heq _ _

/-- The function that a function makes of its argument by calling it. -/
def wrapping : Lua.Func :=
  .mk 1 1 .dropped [.ret [.function (.mk 1 0 .kept [.retCall (.call 1 (.var .outer 0 (.ofString "f")) [.varargs])])]]

set_option maxRecDepth 10000 in
theorem parse_wrapperSource : Lua.Chunk.parse wrapperSource = .ok (.mk 0 0 .kept [.ret [.function wrapping]]) := by cbv

/-- A chunk that gives a function changes nothing but that there is the function. -/
theorem run_function {h : Lua.Heap} {id : Nat} {f : Lua.Func} {cells : List Nat}
    (hid : h.closures[id]? = some ⟨.mk 0 0 .kept [.ret [.function f]], cells⟩) :
    (Lua.Machine.enter { heap := h } (.call ⟨none, none⟩ (.closure id) [] .ret)).run 1000 =
      some ({ heap := (h.newClosure ⟨f, cells⟩).1 }, .done (.ok [.closure h.closures.size])) := by
  have henter : Lua.Closure.enter ⟨.mk 0 0 .kept [.ret [.function f]], cells⟩ [] = .upd fun h =>
      (h, .upd fun h => ((h.newClosure ⟨f, cells⟩).1, .ret [.closure h.closures.size])) := by
    simp only [Lua.Closure.enter, Lua.Env.bind, Lua.adjust, Lua.execBlock, Lua.Stat.exec, Lua.evalList,
      Lua.Expr.isOpen, Lua.Expr.eval, Bool.and_false, Bool.false_eq_true, if_false, Lua.Heap.newCells,
      Lua.Heap.newClosure, Lua.afterStat]
  have hbody : Lua.Machine.body h (.closure id) [] = .upd fun h =>
      (h, .upd fun h => ((h.newClosure ⟨f, cells⟩).1, .ret [.closure h.closures.size])) := by
    rw [Lua.Machine.body, hid, ← henter]
  have hstep : (Lua.Machine.enter { heap := h } (.call ⟨none, none⟩ (.closure id) [] .ret)).step = .inl
      { heap := h
        stack := [.call ⟨.closure id, none, Lua.Machine.startLine h (.closure id), 0⟩ 1 1 .ret, .entry 0]
        prog := Lua.Machine.body h (.closure id) [] } := rfl
  rw [Lua.Machine.run, hstep, hbody]
  rfl

/-- A new machine has its library and the wrapping function in its memory, and nothing is under way on it. -/
theorem freshMachine_eq (limit : Option Nat) (bridge : List (String × Lua.Value)) :
    ∃ (h : Lua.Heap) (cell id : Nat) (cells : List Nat),
      freshMachine limit bridge = ({ heap := h }, cell, .closure id) ∧ h.closures[id]? = some ⟨wrapping, cells⟩ ∧
        h.globals = (Lua.Library.initialHeap limit bridge).globals ∧
        h.tables = (Lua.Library.initialHeap limit bridge).tables := by
  have hfound (h : Lua.Heap) (c : Lua.Closure) : (h.newClosure c).1.closures[(h.newClosure c).2]? = some c :=
    Array.getElem?_push_size
  unfold freshMachine
  -- what the library holds plays no part
  generalize Lua.Library.initialHeap limit bridge = g
  rw [parse_wrapperSource]
  dsimp only
  rw [run_function (hfound _ _)]
  exact ⟨_, _, _, _, rfl, Array.getElem?_push_size, rfl, rfl⟩

theorem sound_freshMachine (limit : Option Nat) (bridge : List (String × Lua.Value)) :
    (freshMachine limit bridge).1.Sound := by
  obtain ⟨h, cell, id, cells, hfresh, -⟩ := freshMachine_eq limit bridge
  rw [hfresh]
  exact .new h

theorem globals_freshMachine (limit : Option Nat) (bridge : List (String × Lua.Value)) :
    (freshMachine limit bridge).1.heap.globals < (freshMachine limit bridge).1.heap.tables.size := by
  obtain ⟨h, cell, id, cells, hfresh, -, hglobals, htables⟩ := freshMachine_eq limit bridge
  rw [hfresh]
  dsimp only
  rw [hglobals, htables]
  exact globals_initialHeap limit bridge

/-- A state that is new, under options and with diagnostics. -/
structure Fresh (w : World) (c d : Nat) (s : LuaState) : Prop where
  config : s.config = c
  diagnostics : s.diagnostics = d
  isOpen : s.isOpen = true
  hasIntegers : s.hasIntegers = true
  charset : charset? ((w.configs[c]?).getD {}).encoding = some s.charset
  machine : ∃ limit bridge, (s.machine, s.globals, s.wrapper) = freshMachine limit bridge

/-- Where options and the limit on memory have been read, a new state is opened if the encoding names a charset, and
none otherwise. -/
theorem openState_read {o : Options} {limit : Option Nat}
    (ho : ((w.configs[c]?).getD {}).options w = some (.ok o, w))
    (hlimit : memoryLimit o.maxMemory w = some (.ok limit, w)) (d : Nat) : ∃ objects,
      (∀ {charset}, charset? ((w.configs[c]?).getD {}).encoding = some charset → ∃ s,
        openState c d w = some (.ok w.states.size, { w with objects, states := w.states.push s }) ∧ Fresh w c d s) ∧
      (charset? ((w.configs[c]?).getD {}).encoding = none →
        ∃ f, openState c d w = some (.error f, { w with objects })) := by
  obtain ⟨unpackTuples, hunpack⟩ := truthy_ok o.unpackTuples w
  obtain ⟨eval, objects, heval⟩ := registered_ok "eval" "builtin_function_or_method" o.registerEval w
  obtain ⟨builtins, objects', hbuiltins⟩ :=
    registered_ok "builtins" "module" o.registerBuiltins { w with objects }
  rw [openState, bind_ok (config_apply c w), bind_ok ho, bind_ok hlimit, bind_ok hunpack, bind_ok heval,
    bind_ok hbuiltins]
  refine ⟨objects', fun hcharset => ?_, fun hcharset => ?_⟩
  · rw [hcharset]
    exact ⟨_, rfl, rfl, rfl, rfl, rfl, hcharset, _, _, rfl⟩
  · rw [hcharset]
    exact ⟨_, rfl⟩

/-- Under usable options a new state is opened. -/
theorem openState_fresh (hu : w.Usable c) (d : Nat) : ∃ objects s,
    openState c d w = some (.ok w.states.size, { w with objects, states := w.states.push s }) ∧ Fresh w c d s := by
  obtain ⟨o, limit, charset, ho, hlimit, hcharset⟩ := hu
  obtain ⟨objects, hopened, -⟩ := openState_read ho hlimit d
  exact ⟨objects, hopened hcharset⟩

/-- Under usable options a state is opened. -/
theorem openState_ok (hu : w.Usable c) (d : Nat) : ∃ objects s,
    openState c d w = some (.ok w.states.size, { w with objects, states := w.states.push s }) ∧ s.isOpen = true ∧
      s.config = c ∧ s.diagnostics = d ∧ s.machine.heap.globals < s.machine.heap.tables.size := by
  obtain ⟨objects, s, hopen, hs⟩ := openState_fresh hu d
  obtain ⟨limit, bridge, hmachine⟩ := hs.machine
  refine ⟨objects, s, hopen, hs.isOpen, hs.config, hs.diagnostics, ?_⟩
  rw [show s.machine = (freshMachine limit bridge).1 from congrArg Prod.fst hmachine]
  exact globals_freshMachine limit bridge

/-- Under other options none is. -/
theorem openState_error (hu : ¬ w.Usable c) (d : Nat) :
    ∃ f objects, openState c d w = some (.error f, { w with objects }) := by
  obtain ⟨f | o, ho⟩ := (reads_options ((w.configs[c]?).getD {})).total w
  · exact ⟨f, w.objects, (bind_ok (config_apply c w)).trans (bind_error ho)⟩
  obtain ⟨f | limit, hlimit⟩ := (reads_memoryLimit o.maxMemory).total w
  · exact ⟨f, w.objects, (bind_ok (config_apply c w)).trans ((bind_ok ho).trans (bind_error hlimit))⟩
  cases hcharset : charset? ((w.configs[c]?).getD {}).encoding with
  | some charset => exact absurd ⟨o, limit, charset, ho, hlimit, hcharset⟩ hu
  | none =>
    obtain ⟨objects, -, hrefused⟩ := openState_read ho hlimit d
    obtain ⟨f, herror⟩ := hrefused hcharset
    exact ⟨f, objects, herror⟩

/-! ### The state of a language -/

theorem language_apply (l : Nat) (w : World) : language l w = some (.ok (w.languageOf l), w) := rfl

theorem closeState_apply (s : Nat) (w : World) : closeState s w = some (.ok ⟨⟩, w.closed s) := rfl

theorem enter_apply (l : Nat) (state : Option Nat) (w : World) :
    modifyLanguage l ({ · with state }) w = some (.ok ⟨⟩, w.enter l state) := rfl

/-- The open state of a language stays its state. -/
theorem languageState_opened (hs : (w.languageOf l).state = some s) (ho : w.opened s = true) :
    languageState l w = some (.ok s, w) := by
  rw [languageState, bind_ok (language_apply l w), hs]
  dsimp only
  rw [bind_ok (opened_apply s w), ho]
  rfl

/-- A language without an open state opens one. -/
theorem languageState_vacant (hv : w.Vacant l) : languageState l w = (do
    let s ← openState (w.languageOf l).config (w.languageOf l).diagnostics
    modifyLanguage l ({ · with state := some s })
    return s : Bridge Nat) w := by
  rw [languageState, bind_ok (language_apply l w)]
  cases hs : (w.languageOf l).state with
  | none => rfl
  | some s =>
    dsimp only
    rw [bind_ok (opened_apply s w), hv hs]
    rfl

theorem vacant_or (l : Nat) (w : World) :
    w.Vacant l ∨ ∃ s, (w.languageOf l).state = some s ∧ w.opened s = true := by
  by_cases h : ∃ s, (w.languageOf l).state = some s ∧ w.opened s = true
  · exact .inr h
  · exact .inl fun hs => Bool.eq_false_iff.mpr fun ho => h ⟨_, hs, ho⟩

/-- Ending a language closes its state and leaves it without one. -/
theorem finish_apply (l : Nat) (w : World) : finish l w = some (.ok ⟨⟩,
    let v := match (w.languageOf l).state with
      | some s => (w.closed s).enter l none
      | none => w
    if v.singleton = some l then { v with singleton := none } else v) := by
  rw [finish, bind_ok (language_apply l w)]
  cases (w.languageOf l).state <;> rfl

/-! ### What languages keep -/

section Keeps

variable [Admits I R]

@[grind ←] theorem keeps_language (id : Nat) : Keeps I R (language id) := by
  grind [language]

theorem keeps_registered (name typeName : String) (flag : Value) : Keeps I R (registered name typeName flag) := by
  grind [registered]

theorem keeps_openState (configId diagnostics : Nat) : Keeps I R (openState configId diagnostics) := by
  refine (keeps_config configId).bind fun c => (reads_options c).keeps.bind fun o => ?_
  refine (reads_memoryLimit _).keeps.bind fun limit => (keeps_truthy _).bind fun unpackTuples => ?_
  refine (keeps_registered _ _ _).bind fun eval => (keeps_registered _ _ _).bind fun builtins => ?_
  split
  · exact .raise _ _
  · exact keeps_pushState (sound_freshMachine _ _)

@[grind ←] theorem keeps_languageState (id : Nat) : Keeps I R (languageState id) := by
  intro w r w' hw h
  rcases vacant_or id w with hv | ⟨s, hs, ho⟩
  · rw [languageState_vacant hv] at h
    by_cases hu : w.Usable (w.languageOf id).config
    · obtain ⟨objects, s, hopen, -, -, -⟩ := openState_ok hu (w.languageOf id).diagnostics
      obtain ⟨hv', hk⟩ := keeps_openState _ _ hw hopen
      rw [bind_ok hopen, bind_ok (enter_apply id _ _)] at h
      obtain ⟨-, rfl⟩ := Prod.mk.inj (Option.some.inj h)
      have hnew (i : Nat) (hi : (w.languageOf id).state = some i)
          (hopen : World.opened { w with objects, states := w.states.push s } i = true) :
          some w.states.size = some i := by
        rw [World.opened_push] at hopen
        split_ifs at hopen with hsize
        · rw [hsize]
        · rw [hv hi] at hopen
          cases hopen
      obtain ⟨hw', hk'⟩ := Admits.enter hv' hnew
      exact ⟨hw', Admits.trans I hk hk'⟩
    · obtain ⟨f, objects, hopen⟩ := openState_error hu (w.languageOf id).diagnostics
      rw [bind_error hopen] at h
      obtain ⟨-, rfl⟩ := Prod.mk.inj (Option.some.inj h)
      exact keeps_openState _ _ hw hopen
  · rw [languageState_opened hs ho] at h
    exact Keeps.pure s hw h

theorem keeps_finish (id : Nat) : Keeps I R (finish id) := by
  have hsingleton : Keeps I R (modify fun w : World =>
      if w.singleton = some id then { w with singleton := none } else w) := by
    refine keeps_modify fun w => ?_
    split <;> exact ⟨rfl, rfl, rfl, rfl, rfl, rfl, rfl⟩
  intro w r w' hw h
  rw [finish, bind_ok (language_apply id w)] at h
  cases hs : (w.languageOf id).state with
  | none =>
    rw [hs] at h
    exact hsingleton hw h
  | some s =>
    rw [hs] at h
    obtain ⟨hv, hk⟩ := keeps_closeState s hw (closeState_apply s w)
    have hclosed (i : Nat) (hi : (w.languageOf id).state = some i) (hopen : (w.closed s).opened i = true) :
        none = some i := by
      obtain rfl := Option.some.inj (hs.symm.trans hi)
      simp [World.opened_closed] at hopen
    obtain ⟨hu, hk'⟩ := Admits.enter hv hclosed
    obtain ⟨hw', hk''⟩ := hsingleton hu h
    exact ⟨hw', Admits.trans I (Admits.trans I hk hk') hk''⟩

theorem keeps_doString {E : Engine} (hE : EngineKeeps I R E) (state : Nat) (source : Value) :
    Keeps I R (doString E state source) := by
  refine (keeps_isOpen state).bind fun opened => ?_
  split
  · exact (keeps_reportTo _ _).bind fun _ => .pure _
  · exact ((keeps_execute hE _ _).protectedCall.bind fun r => keeps_toHostResult hE _ r).holding

/-- Running a chunk in a language, whose state is opened for it if need be. -/
theorem keeps_runIn {E : Engine} (hE : EngineKeeps I R E) (language : Nat) (source : Value) :
    Keeps I R (runIn E language source) :=
  (keeps_languageState language).bind fun state => keeps_doString hE state source

end Keeps

end Bridge

end HostedLua
