import HostedLua.Proofs.Script.Instance
import HostedLua.Proofs.Table.Lookup

/-! The name and the base that a class gives its script. Both are read as fields of the class: the name of the field goes
to Lua and the string there comes back, each in the form that the encoding asks for. ASCII is the same in every set, so
names in ASCII are read as they are written, whatever the encoding. -/

namespace HostedLua

open Host

/-! ### Names in ASCII -/

namespace Charset

variable {b : Bytes}

theorem decodable_ascii : ascii.Decodable b ↔ ∀ x ∈ b, x < 0x80 := Iff.rfl

/-- Every set reads ASCII as the code points of the same numbers. -/
theorem decodeEscaped_ascii (cs : Charset) (hb : ascii.Decodable b) : cs.decodeEscaped b = b.widen := by
  have hread := cs.decodeEscaped_ascii_append hb []
  rwa [List.append_nil, decodeEscaped_nil, List.append_nil] at hread

/-- Every set writes ASCII as the bytes of the same numbers. -/
theorem encodeEscaped_ascii (cs : Charset) (hb : ascii.Decodable b) : cs.encodeEscaped b.widen = .ok b :=
  cs.decodeEscaped_ascii hb ▸ cs.encodeEscaped_decodeEscaped b

theorem isClean_ascii (hb : ascii.Decodable b) : Text.isClean b.widen := by
  obtain ⟨t, ht⟩ := Option.isSome_iff_exists.mp (isSome_decode?_iff.mpr hb)
  obtain ⟨heq, hclean⟩ := decodeEscaped_of_decode? ht
  rwa [← heq, decodeEscaped_ascii ascii hb] at hclean

end Charset

def World.defaultBase (w : World) (k : Script) : Value :=
  ((w.configs[(w.languageOf k.language).config]?).getD {}).defaultBaseType

/-- A script is valid, and its class is a table of a state that can be used. -/
structure World.ClassAt (w : World) (id : Nat) (k : Script) (h : Handle) (s : LuaState) (t : Nat) : Prop where
  script : w.scripts[id]? = some k
  state : k.state = .valid
  loaded : ∃ r, k.loaded = some r ∧ w.objects[r]? = some (.handle h)
  valid : w.valid h = true
  found : w.states[h.state]? = some s
  guest : ∃ o, h.guest = .obj o ∧ w.objects[o]? = some (.guest ⟨h.state, .table t, false⟩)

/-- The class of a valid script, read off the world. -/
def World.classAt? (w : World) (id : Nat) : Option (Script × Handle × LuaState × Nat) := do
  let k ← w.scripts[id]?
  let r ← k.loaded
  let h ← w.handleAt (.obj r)
  let s ← w.states[h.state]?
  match h.guest with
  | .obj o =>
    match w.objects[o]? with
    | some (.guest ⟨state, .table t, false⟩) =>
      guard (k.state = .valid ∧ w.valid h = true ∧ state = h.state)
      return (k, h, s, t)
    | _ => none
  | _ => none

theorem World.classAt_of {w : World} {id t : Nat} {k : Script} {h : Handle} {s : LuaState}
    (hclass : w.classAt? id = some (k, h, s, t)) : w.ClassAt id k h s t := by
  simp only [classAt?, Option.bind_eq_bind, Option.bind_eq_some_iff] at hclass
  obtain ⟨k', hk, r, hr, h', hh, s', hs, hclass⟩ := hclass
  obtain ⟨_, hr', ho⟩ := handleAt_some hh
  obtain rfl := Value.obj.inj hr'
  split at hclass
  · next o hguest =>
    split at hclass
    · next state t' hobject =>
      simp only [Option.bind_eq_some_iff, Option.guard_eq_some'] at hclass
      obtain ⟨-, ⟨hvalid, hstands, rfl⟩, hclass⟩ := hclass
      obtain ⟨rfl, rfl, rfl, rfl⟩ := Option.some.inj hclass
      exact ⟨hk, hvalid, ⟨r, hr, ho⟩, hstands, hs, o, hguest, hobject⟩
    · contradiction
  · contradiction

namespace Bridge

open World

variable {E : Engine} {n id state t : Nat} {w : World} {k : Script} {h : Handle} {s : LuaState} {b name : Bytes}

/-- A string in ASCII comes to the host as text under any encoding. -/
theorem toHost_ascii (hs : w.states[state]? = some s) (hb : Charset.ascii.Decodable b) :
    (fetch state (.str b) >>= toHost E state) w = some (.ok (.text b.widen), w) := by
  have hfetch : fetch state (.str b) w = some (.ok (.text b.widen), w) :=
    s.charset.decodeEscaped_ascii hb ▸ fetch_inl hs rfl
  rw [bind_ok hfetch, toHost, bind_ok (configOf_apply hs)]
  unfold hostText
  rw [if_pos (Charset.isClean_ascii hb)]
  rfl

/-- A name in ASCII goes to Lua as its bytes under any encoding: without one they are made on the way, else by the
state. -/
theorem toGuest_ascii (hs : w.states[state]? = some s) (hb : Charset.ascii.Decodable b) :
    ∃ u, toGuest state (.text b.widen) w = some (.ok u, w) ∧ pushKey state u w = some (.ok (.str b), w) := by
  have hpush : pushKey state (.text b.widen) w = some (.ok (.str b), w) := by
    show push state (.text b.widen) w = _
    rw [push, bind_ok (state?_apply state w), hs]
    dsimp only
    rw [s.charset.encodeEscaped_ascii hb]
    rfl
  cases he : ((w.configs[s.config]?).getD {}).encoding with
  | none =>
    refine ⟨.bytes b, toGuest_ok (σ := []) ?_, rfl⟩
    rw [toGuestAt, seen_bind_ok (lift_ok (configOf_apply hs)), he]
    dsimp only
    rw [Charset.encodeEscaped_ascii .utf8 hb]
    rfl
  | _ =>
    refine ⟨.text b.widen, toGuest_ok (σ := []) ?_, hpush⟩
    rw [toGuestAt, seen_bind_ok (lift_ok (configOf_apply hs)), he]
    rfl

/-! ### Fields of a class -/

theorem classValue_apply (hc : w.ClassAt id k h s t) (E : Engine) (key : Text) (d : Value) :
    classValue E id key d w = getValue E h (.text key) d w := by
  obtain ⟨r, hr, ho⟩ := hc.loaded
  have hscript : script id w = some (.ok k, w) := by rw [script_apply, scriptOf, hc.script, Option.getD_some]
  rw [classValue, bind_ok hscript, hc.state, hr]
  dsimp only
  rw [bind_ok (object_apply r w), ho]
  rfl

/-- A field that holds a string in ASCII is read as that text. -/
theorem classValue_ascii (hc : w.ClassAt id k h s t) (hname : Charset.ascii.Decodable name)
    (hb : Charset.ascii.Decodable b) (hv : s.machine.heap.get t (.str name) = .str b) (n : Nat) (d : Value) :
    ∃ w', classValue (engine (n + 1)) id name.widen d w = some (.ok (.text b.widen), w') := by
  let held : World := w.hold [h.guest, .text name.widen, d] h.state
  have hs : held.states[h.state]? = some s := hc.found
  obtain ⟨o, hguest, ho⟩ := hc.guest
  obtain ⟨u, hu, hκ⟩ := toGuest_ascii hs hname
  obtain ⟨m, hread, -⟩ := readAt_entry (n := n) (d := d) hs hguest ho hκ
    ((Lua.Heap.rawGet_value _ t (.str name)).trans hv) Lua.Value.noConfusion fun _ => Lua.Value.noConfusion
  have hfound : (held.withMachine h.state m).states[h.state]? = some { s with machine := m } := withMachine_states hs
  rw [classValue_apply hc]
  exact ⟨_, getValue_of hc.valid hu (hread.trans (toHost_ascii hfound hb))⟩

/-- A field that is nil is the default, if no metamethod gives it. -/
theorem classValue_absent (hc : w.ClassAt id k h s t) (hname : Charset.ascii.Decodable name)
    (hv : s.machine.heap.get t (.str name) = .nil) (hmeta : s.machine.heap.metamethod (.table t) "__index" = .nil)
    (n : Nat) (d : Value) : ∃ w', classValue (engine (n + 1)) id name.widen d w = some (.ok d, w') := by
  let held : World := w.hold [h.guest, .text name.widen, d] h.state
  have hs : held.states[h.state]? = some s := hc.found
  obtain ⟨o, hguest, ho⟩ := hc.guest
  obtain ⟨u, hu, hκ⟩ := toGuest_ascii hs hname
  obtain ⟨w', hread⟩ := readAt_default (n := n) (d := d) hs hguest ho hκ
    ((Lua.Heap.rawGet_value _ t (.str name)).trans hv) hmeta
  rw [classValue_apply hc]
  exact ⟨_, getValue_of hc.valid hu hread⟩

/-! ### Name and base -/

theorem globalName_text {x : Text} {w' : World}
    (h : classValue E id "class_name" (.text []) w = some (.ok (.text x), w')) :
    globalName E id w = some (.ok x, w') := by
  rw [globalName, bind_ok h]
  rfl

/-- The base is what the class gives if that is text, and the default otherwise. -/
theorem baseType_of {v : Value} {w' : World} (hs : w.scripts[id]? = some k)
    (h : classValue E id "extends" (w.defaultBase k) w = some (.ok v, w'))
    (hv : v = w.defaultBase k ∨ ∃ x, v = .text x) : baseType E id w = some (.ok v, w') := by
  have hscript : script id w = some (.ok k, w) := by rw [script_apply, scriptOf, hs, Option.getD_some]
  rw [baseType, bind_ok hscript, bind_ok (language_apply k.language w), bind_ok (config_apply _ w)]
  refine (bind_ok h).trans ?_
  cases v with
  | text x => rfl
  | _ =>
    obtain hd | ⟨x, hx⟩ := hv
    · exact congrArg (fun v => some (Except.ok v, w')) hd.symm
    · contradiction

/-- Under any encoding the name and the base of a valid script are those that its class gives in ASCII. A class that
gives none, itself or by a metamethod, has the empty name and the base of the configuration. -/
theorem metadata_ascii (hc : w.ClassAt id k h s t) (n : Nat) :
    (∀ b, Charset.ascii.Decodable b → s.machine.heap.get t (.str (.ofString "class_name")) = .str b →
      ∃ w', globalName (engine (n + 1)) id w = some (.ok b.widen, w')) ∧
    (∀ b, Charset.ascii.Decodable b → s.machine.heap.get t (.str (.ofString "extends")) = .str b →
      ∃ w', baseType (engine (n + 1)) id w = some (.ok (.text b.widen), w')) ∧
    (s.machine.heap.metamethod (.table t) "__index" = .nil →
      (s.machine.heap.get t (.str (.ofString "class_name")) = .nil →
        ∃ w', globalName (engine (n + 1)) id w = some (.ok [], w')) ∧
      (s.machine.heap.get t (.str (.ofString "extends")) = .nil →
        ∃ w', baseType (engine (n + 1)) id w =
          some (.ok (w.defaultBase k), w'))) := by
  have hname : Charset.ascii.Decodable (.ofString "class_name") := Charset.decodable_ascii.mpr (by decide +kernel)
  have hbase : Charset.ascii.Decodable (.ofString "extends") := Charset.decodable_ascii.mpr (by decide +kernel)
  have hclassKey : (Bytes.ofString "class_name").widen = "class_name" := by decide +kernel
  have hbaseKey : (Bytes.ofString "extends").widen = "extends" := by decide +kernel
  refine ⟨fun b hb hv => ?_, fun b hb hv => ?_, fun hmeta => ⟨fun hv => ?_, fun hv => ?_⟩⟩
  · obtain ⟨w', h⟩ := classValue_ascii hc hname hb hv n (.text [])
    exact ⟨w', globalName_text (hclassKey ▸ h)⟩
  · obtain ⟨w', h⟩ := classValue_ascii hc hbase hb hv n (w.defaultBase k)
    exact ⟨w', baseType_of hc.script (hbaseKey ▸ h) (.inr ⟨_, rfl⟩)⟩
  · obtain ⟨w', h⟩ := classValue_absent hc hname hv hmeta n (.text [])
    exact ⟨w', globalName_text (hclassKey ▸ h)⟩
  · obtain ⟨w', h⟩ := classValue_absent hc hbase hv hmeta n (w.defaultBase k)
    exact ⟨w', baseType_of hc.script (hbaseKey ▸ h) (.inl rfl)⟩

namespace Unencoded

/-! A script whose class gives its name but no base, in a language that reads strings in code page 1252 when it opens
its state and loses its encoding afterwards. -/

def world : World :=
  { World.unopened { encoding := .text "cp1252" } with
    scripts := #[{ language := 0, source := "local class = {} class.class_name = 'Hi' return class" }] }

def forget (w : World) : World :=
  { w with configs := w.configs.modify 0 ({ · with encoding := .none }) }

/-- The class gives that name and no base, itself or by a metamethod; another base is configured. -/
def gives (w : World) (k : Script) (s : LuaState) (t : Nat) : Bool :=
  match s.machine.heap.get t (.str (.ofString "class_name")), s.machine.heap.get t (.str (.ofString "extends")),
    s.machine.heap.metamethod (.table t) "__index", w.defaultBase k with
  | .str b, .nil, .nil, .text base => b = .ofString "Hi" ∧ base = "RefCounted"
  | _, _, _, _ => false

theorem of_gives {w : World} {k : Script} {s : LuaState} {t : Nat} (h : gives w k s t = true) :
    s.machine.heap.get t (.str (.ofString "class_name")) = .str (.ofString "Hi") ∧
    s.machine.heap.get t (.str (.ofString "extends")) = .nil ∧
    s.machine.heap.metamethod (.table t) "__index" = .nil ∧ w.defaultBase k = .text "RefCounted" := by
  unfold gives at h
  split at h
  · next hname hbase hmeta hdefault =>
    obtain ⟨rfl, rfl⟩ := of_decide_eq_true h
    exact ⟨hname, hbase, hmeta, hdefault⟩
  · contradiction

/-- The reload succeeds, and the class does so in a world that has lost its encoding. -/
def named (status : ReloadStatus) (w : World) : Bool :=
  decide (status = .ok) && ((forget w).classAt? 0).any fun (k, _, s, t) => gives (forget w) k s t

theorem reload_named : succeedsWith named (reload (engine 1) 0 world) = true := by decide +kernel

end Unencoded

/-- A script is reloaded, which opens the state of its language in code page 1252. When the encoding is lost, its name is
still the one that its class gives, and its base the configured one. -/
theorem metadata_ascii_unencoded : ∃ v w k h s t, reload (engine 1) 0 Unencoded.world = some (.ok .ok, v) ∧
    w = Unencoded.forget v ∧ w.ClassAt 0 k h s t ∧ (∃ w', globalName (engine 1) 0 w = some (.ok "Hi", w')) ∧
    ∃ w', baseType (engine 1) 0 w = some (.ok (.text "RefCounted"), w') := by
  obtain ⟨status, v, hreload, hnamed⟩ := eq_ok_of_succeedsWith Unencoded.reload_named
  obtain ⟨hstatus, htest⟩ := Bool.and_eq_true_iff.mp hnamed
  obtain rfl := of_decide_eq_true hstatus
  obtain ⟨⟨k, h, s, t⟩, hclass, htest⟩ := (Option.any_eq_true _ _).mp htest
  obtain ⟨hname, hbase, hmeta, hdefault⟩ := Unencoded.of_gives htest
  have hc := World.classAt_of hclass
  have hascii : Charset.ascii.Decodable (.ofString "Hi") := Charset.decodable_ascii.mpr (by decide +kernel)
  obtain ⟨hnames, -, hdefaults⟩ := metadata_ascii hc 0
  exact ⟨v, _, k, h, s, t, hreload, rfl, hc, hnames _ hascii hname,
    hdefault ▸ (hdefaults hmeta).2 hbase⟩

end Bridge

end HostedLua
