import HostedLua.Host.Run
import HostedLua.Proofs.Crossing.Leaf
import HostedLua.Proofs.Text.RoundTrip

/-! Lua values through the host and back. Whatever a state hands to the host, once it has its host form and
is converted back, it is pushed as the value that it was: numbers of both kinds, strings byte for byte, and
Lua's own objects by identity. Values come to the host by `fetch`; what a state without an encoding would give is
`handed`. -/

namespace HostedLua

open Host

/-- A value that the host gets as it is: no object of the host's own, and no thread that stands for the
function it will run. -/
def Lua.Machine.Hands (m : Lua.Machine) (g : Lua.Value) : Prop :=
  match g with
  | .host _ => False
  | .thread t => m.unstarted? t = none
  | _ => True

namespace Bridge

/-- A Lua value as the host would first get it from a state without an encoding: strings as bytes, and the rest as it
is fetched. The program's own reading is `fetch`, always: no state opens without an encoding, and one whose options lose
theirs later reads strings in the set that it was opened with. The two differ in nothing else (`handed_eq_fetch`), so
what is said of both says what the program does, and what it would do if such a state opened. -/
def handed (state : Nat) (g : Lua.Value) : Bridge Value := do
  match g, (← configOf state).encoding with
  | .str b, .none => return .bytes b
  | g, _ => fetch state g

/-- A Lua value goes to the host and back while its state is held. -/
def passThrough (E : Engine) (state : Nat) (g : Lua.Value) : Bridge Lua.Value :=
  holding [] state do
    let v ← toHost E state (← handed state g)
    push state (← toGuest state v)

variable {w : World} {state : Nat} {s : LuaState} {encoding : Value}

/-! ### Strings -/

theorem charset?_text_nil : charset? (.text []) = none := by
  have hnil : Charset.lookup [] = Charset.lookupNormal 0 [] := rfl
  simp only [charset?, hnil, Charset.lookupNormal]
  rw [if_neg (by decide), if_neg (by decide), if_neg (by decide), if_neg (by decide)]
  split_ifs <;> rfl

/-- A string in its host form: its text if it was decodable throughout, else its bytes. -/
theorem hostText_decodeEscaped {cs : Charset} (h : charset? encoding = some cs) (b : Bytes) :
    hostText (cs.decodeEscaped b) encoding w =
      some (.ok (if (cs.decodeEscaped b).isClean then .text (cs.decodeEscaped b) else .bytes b), w) := by
  unfold hostText
  split_ifs with hc
  · rfl
  · match encoding with
    | .text [] => rw [charset?_text_nil] at h; contradiction
    | .text (c :: t) => simp [h, Charset.encodeEscaped_decodeEscaped]
    | .none | .bool _ | .int _ | .float _ | .bytes _ | .member _ | .obj _ => simp [charset?] at h

/-! ### To the host -/

theorem handed_eq_fetch (hs : w.states[state]? = some s) {g : Lua.Value}
    (hg : ∀ b, g = .str b → ((w.configs[s.config]?).getD {}).encoding ≠ .none) :
    handed state g w = fetch state g w := by
  rw [handed, bind_ok (configOf_apply hs)]
  cases g with
  | str b =>
    have he := hg b rfl
    cases he' : ((w.configs[s.config]?).getD {}).encoding <;> first | exact absurd he' he | rfl
  | _ => rfl

theorem handed_bytes (hs : w.states[state]? = some s) {b : Bytes}
    (he : ((w.configs[s.config]?).getD {}).encoding = .none) :
    handed state (.str b) w = some (.ok (.bytes b), w) := by
  rw [handed, bind_ok (configOf_apply hs), he]
  rfl

theorem fetch_inl (hs : w.states[state]? = some s) {g : Lua.Value} {v : Value}
    (hv : World.fetched s state g = .inl v) : fetch state g w = some (.ok v, w) := by
  rw [fetch, bind_ok (state?_apply state w), hs]
  simp [hv]

/-- An object of the host's own comes back as itself. -/
theorem fetch_host (hs : w.states[state]? = some s) {id : Nat} (hid : id ≠ Value.nothingId) :
    fetch state (.host id) w = some (.ok (.obj id), w) := fetch_inl hs (congrArg Sum.inl (if_neg hid))

theorem fetch_inr (hs : w.states[state]? = some s) {g : Lua.Value} {o : Guest}
    (ho : World.fetched s state g = .inr o) :
    fetch state g w = some (.ok (.obj w.objects.size), { w with objects := w.objects.push (.guest o) }) := by
  rw [fetch, bind_ok (state?_apply state w), hs]
  simp [ho]

/-- Fetching values only adds objects. -/
theorem fetch_more (state : Nat) (v : Lua.Value) (w : World) :
    ∃ u os, fetch state v w = some (.ok u, w.more os) := by
  cases hs : w.states[state]? with
  | none =>
    refine ⟨.none, #[], ?_⟩
    rw [World.more_empty, fetch, bind_ok (state?_apply state w), hs]
    rfl
  | some s =>
    cases hf : World.fetched s state v with
    | inl u => exact ⟨u, #[], by rw [World.more_empty]; exact fetch_inl hs hf⟩
    | inr g =>
      refine ⟨.obj w.objects.size, #[.guest g], ?_⟩
      rw [fetch_inr hs hf]
      simp [World.more]

theorem fetchAll_more (state : Nat) (vs : List Lua.Value) (w : World) :
    ∃ us os, fetchAll state vs w = some (.ok us, w.more os) := by
  induction vs generalizing w with
  | nil => exact ⟨[], #[], by rw [World.more_empty]; rfl⟩
  | cons v vs ih =>
    obtain ⟨u, os, hu⟩ := fetch_more state v w
    obtain ⟨us, os', hus⟩ := ih (w.more os)
    refine ⟨u :: us, os ++ os', ?_⟩
    rw [← World.more_more, fetchAll, List.mapM_cons, bind_ok hu]
    exact (bind_ok hus).trans rfl

/-- A guest that stands for itself gets a handle or stays as it is, and is converted back to itself. -/
theorem toHost_guest (E : Engine) (encoding : Value) {id : Nat} {g : Lua.Value}
    (hid : w.objects[id]? = some (.guest ⟨state, g, false⟩)) :
    ∃ v os, toHost E state (.obj id) w = some (.ok v, { w with objects := w.objects ++ os }) ∧
      World.leafForm? { w with objects := w.objects ++ os } state encoding v = some (.obj id) := by
  rw [toHost, bind_ok (object_apply id w), hid]
  simp only [Option.getD_some, Bool.false_eq_true, if_false]
  have handle (kind : HandleKind) : ∃ v os,
      newHandle { kind, state, guest := .obj id } w = some (.ok v, { w with objects := w.objects ++ os }) ∧
      World.leafForm? { w with objects := w.objects ++ os } state encoding v = some (.obj id) := by
    refine ⟨.obj w.objects.size, #[.handle { kind, state, guest := .obj id }], ?_, ?_⟩
    · simp [newHandle]
    · simp [World.leafForm?]
  cases g with
  | table _ => exact handle .table
  | closure _ | builtin _ | wrapped _ => exact handle .function
  | thread _ => exact handle .coroutine
  | _ =>
    refine ⟨.obj id, #[], by simp, ?_⟩
    simp [World.leafForm?, hid, items?]

/-- The host form of a Lua value is converted to a form that is pushed as the value. Only objects are added
on the way. -/
def Returns (E : Engine) (state : Nat) (s : LuaState) (encoding : Value) (g : Lua.Value) (w : World) : Prop :=
  ∃ h u os, (handed state g >>= toHost E state) w = some (.ok h, { w with objects := w.objects ++ os }) ∧
    World.leafForm? { w with objects := w.objects ++ os } state encoding h = some u ∧
    World.pushed? { w with objects := w.objects ++ os } state s.charset u = some g

theorem returns_scalar (E : Engine) (hs : w.states[state]? = some s) {g : Lua.Value} (hg : ∀ b, g ≠ .str b)
    {v : Value} (hv : World.fetched s state g = .inl v) (hh : toHost E state v w = some (.ok v, w))
    (hl : w.leafForm? state encoding v = some v) (hp : w.pushed? state s.charset v = some g) :
    Returns E state s encoding g w := by
  refine ⟨v, v, #[], ?_, by simpa using hl, by simpa using hp⟩
  have hf := handed_eq_fetch hs fun b hb => absurd hb (hg b)
  rw [bind_ok (hf.trans (fetch_inl hs hv)), hh]
  simp

theorem returns_guest (E : Engine) (hs : w.states[state]? = some s) {g : Lua.Value} (hg : ∀ b, g ≠ .str b)
    (hv : World.fetched s state g = .inr ⟨state, g, false⟩) : Returns E state s encoding g w := by
  have hf := handed_eq_fetch hs fun b hb => absurd hb (hg b)
  let met : World := { w with objects := w.objects.push (.guest ⟨state, g, false⟩) }
  have hmet : met.objects[w.objects.size]? = some (.guest ⟨state, g, false⟩) := by simp [met]
  obtain ⟨h, os, hh, hl⟩ := toHost_guest E encoding hmet
  refine ⟨h, .obj w.objects.size, #[.guest ⟨state, g, false⟩] ++ os, ?_, by simpa [met] using hl, ?_⟩
  · rw [bind_ok (hf.trans (fetch_inr hs hv)), hh]
    simp [met]
  · have hid : (w.objects ++ (#[.guest ⟨state, g, false⟩] ++ os))[w.objects.size]? =
        some (.guest ⟨state, g, false⟩) := by
      rw [← Array.append_assoc, Array.getElem?_append_left (by simp)]
      simp
    simp only [World.pushed?, hid, if_true]

theorem returns_str (E : Engine) (hs : w.Serves state s encoding) (b : Bytes) :
    Returns E state s encoding (.str b) w := by
  by_cases he : encoding = .none
  · refine ⟨.bytes b, .bytes b, #[], ?_, rfl, rfl⟩
    rw [bind_ok (handed_bytes hs.found (hs.encoding_eq.trans he))]
    simp [toHost]
  · have hc := hs.charset.resolve_left he
    have hf := handed_eq_fetch (w := w) hs.found (g := .str b) fun _ _ => by rwa [hs.encoding_eq]
    rw [Returns, bind_ok (hf.trans (fetch_inl hs.found rfl))]
    simp only [toHost, bind_ok (configOf_apply hs.found), hs.encoding_eq, hostText_decodeEscaped hc]
    -- Text that is clean crosses as text; it is written in the same set that it was read in.
    split_ifs with hclean
    · refine ⟨_, .text (s.charset.decodeEscaped b), #[], by simp; rfl, ?_, ?_⟩
      · cases encoding <;> first | exact absurd rfl he | rfl
      · simp [World.pushed?, Charset.encodeEscaped_decodeEscaped, Except.toOption]
    · exact ⟨_, .bytes b, #[], by simp; rfl, rfl, rfl⟩

theorem returns (E : Engine) (hs : w.Serves state s encoding) {g : Lua.Value} (hg : s.machine.Hands g) :
    Returns E state s encoding g w := by
  cases g with
  | nil => exact returns_scalar E hs.found (by simp) (v := .none) rfl rfl rfl rfl
  | bool b => exact returns_scalar E hs.found (by simp) (v := .bool b) rfl rfl rfl rfl
  | int i =>
    have hi : minInt ≤ i.toInt ∧ i.toInt ≤ maxInt :=
      ⟨i.le_toInt, by have := i.toInt_lt; simp [maxInt]; omega⟩
    exact returns_scalar E hs.found (by simp) (v := .int i.toInt) rfl rfl (by simp [World.leafForm?, hi])
      (by simp [World.pushed?, hi])
  | float x =>
    refine returns_scalar E hs.found (by simp) (v := .float x) rfl ?_ rfl rfl
    rw [toHost, bind_ok (state?_apply state w), hs.found]
    simp [hs.hasIntegers]
  | str b => exact returns_str E hs b
  | table | closure | builtin | wrapped | stdout => exact returns_guest E hs.found (by simp) rfl
  | thread t =>
    have ht : s.machine.unstarted? t = none := hg
    exact returns_guest E hs.found (by simp) (by simp [World.fetched, ht])
  | host => exact hg.elim

/-! ### And back -/

/-- A Lua value that goes to the host and back is the value that it was, and no state has changed. -/
theorem passThrough_eq (E : Engine) (hs : w.Serves state s encoding) {g : Lua.Value}
    (hg : s.machine.Hands g) :
    ∃ w', passThrough E state g w = some (.ok g, w') ∧ w'.states = w.states := by
  let held : World := { w with held := [] ++ w.held, heldStates := state :: w.heldStates }
  have hheld : held.Serves state s encoding := hs.mono rfl rfl
  obtain ⟨h, u, os, hh, hl, hp⟩ := returns E hheld hg
  let met : World := { held with objects := held.objects ++ os }
  have hmet : met.Serves state s encoding := hheld.mono rfl rfl
  obtain ⟨reports, hu⟩ := toGuestAt_leaf w.limits.nesting (σ := []) hmet.toOpens
    (List.mem_cons_self ..) hl
  have hpush := push_ok (w := { met with diagnostics := reports }) hmet.found hp
  have hbody : (do
      let v ← toHost E state (← handed state g)
      push state (← toGuest state v)) held = some (.ok g, { met with diagnostics := reports }) := by
    rw [← bind_assoc, bind_ok hh, bind_ok (toGuest_ok hu), hpush]
  exact ⟨_, holding_ok hbody, rfl⟩

/-- A string that is no UTF-8 at all, a truncated character and half of a pair, passes through a state whose
encoding is UTF-8. -/
theorem passThrough_malformed :
    let s : LuaState := { config := 0, diagnostics := 0, charset := .utf8, machine := { heap := {} }, globals := 0 }
    let w : World := { configs := #[{}], diagnostics := #[[]], states := #[s] }
    w.Serves 0 s (.text "UTF-8") ∧ s.machine.Hands (.str [0xC3, 0x28, 0xED, 0xA0, 0x80]) ∧
      ∃ w', passThrough (engine 1) 0 (.str [0xC3, 0x28, 0xED, 0xA0, 0x80]) w =
        some (.ok (.str [0xC3, 0x28, 0xED, 0xA0, 0x80]), w') ∧ w'.states = w.states := by
  intro s w
  have hs : w.Serves 0 s (.text "UTF-8") := ⟨⟨rfl, rfl, rfl⟩, rfl, .inr (by decide +kernel)⟩
  exact ⟨hs, trivial, passThrough_eq (engine 1) hs trivial⟩

end Bridge

end HostedLua
