/-
  NovaMP.Server.Plugins — plugins and events
  (`loadPlugins`, `fireEvent` and `lua_TriggerEvent` in
  `servers/src/lua/lua_engine.cpp`).

  All plugins are loaded into one Lua state, so their handlers are global variables of one
  table, and a plugin that is loaded later overwrites the names it shares with an earlier
  one. `fireEvent` calls what the name of the event holds then. It gives its arguments to
  Lua as C strings; `MP.TriggerEvent` gives it one of its arguments only.

  - `loadPlugins_handler_iff`: a name holds the handler of the last plugin that assigns it.
  - `every_plugin_iff`: so an event reaches every plugin exactly if no plugin handles it,
    or one does and nothing in the names and arguments gets in the way.
  - `shipped_chat`: two of the plugins that come with the server.
-/

import Mathlib.Data.List.Induction
import Mathlib.Data.List.Nodup
import Mathlib.Data.List.TakeWhile
import NovaMP.Server.Handlers

namespace NovaMP

open Lib

/-! ## Lua values -/

namespace LuaEngine

inductive LuaValue where
  | nil
  | boolean (b : Bool)
  | number (bits : UInt64)
  | string (s : Bytes)
  | other
deriving DecidableEq

/-- What a name holds: the handler a plugin has defined under that name, a C function, or
    something that is no function. -/
inductive Global where
  | handler (plugin : Nat) (event : Bytes)
  | cfunction
  | other
deriving DecidableEq

structure Invocation where
  callee : Global
  args : List LuaValue
deriving DecidableEq

/-- Lua: how it prints a number, which names its libraries and the API of the server have
    made C functions, and what a call returns (`none` is an error). -/
structure Lua where
  numberText : UInt64 → Bytes
  libs : Bytes → Bool
  run : Invocation → Option LuaValue

/-- `lua_isstring(L, i) ? lua_tostring(L, i) : ""`, as a `std::string`. -/
def Lua.tostring (lua : Lua) : LuaValue → Bytes
  | .string s => cstr s
  | .number bits => cstr (lua.numberText bits)
  | _ => []

/-! ## Loading -/

abbrev Globals := Bytes → Global

/-- What a plugin assigns to a name. -/
inductive Kind where
  | handler
  | cfunction
  | other
deriving DecidableEq

def Kind.value (plugin : Nat) (name : Bytes) : Kind → Global
  | .handler => .handler plugin name
  | .cfunction => .cfunction
  | .other => .other

/-- The global assignments of a file, in the order they are run. -/
abbrev Plugin := List (Bytes × Kind)

def initial (lua : Lua) : Globals := fun name => if lua.libs name then .cfunction else .other

def loadFile (i : Nat) (p : Plugin) (g : Globals) : Globals :=
  p.foldl (fun g a => Function.update g a.1 (a.2.value i a.1)) g

/-- The loop over the directory, in whatever order it has the files; `i` numbers them. -/
def loadFrom : Nat → List Plugin → Globals → Globals
  | _, [], g => g
  | i, p :: ps, g => loadFrom (i + 1) ps (loadFile i p g)

def loadPlugins (lua : Lua) (ps : List Plugin) : Globals := loadFrom 0 ps (initial lua)

/-! ## Events -/

variable (lua : Lua) (g : Globals)

/-- The result and the calls it has made. -/
def fireEvent (event : Bytes) (args : List Bytes) : Bytes × List Invocation :=
  match g (cstr event) with
  | .other => ([], [])
  | f =>
    let call : Invocation := ⟨f, args.map fun a => .string (cstr a)⟩
    match lua.run call with
    | none => ([], [call])
    | some ret => (lua.tostring ret, [call])

/-- `MP.TriggerEvent(event, args...)`; `luaL_checkstring` gives a C string. -/
def lua_TriggerEvent (event : Bytes) (args : List LuaValue) : List Invocation :=
  let data := lua.tostring (args[0]?.getD .nil)
  (fireEvent lua g (cstr event) [data]).2

/-! ## The claim about the calls -/

/-- The last thing a plugin assigns to a name. -/
def Plugin.last : Plugin → Bytes → Option Kind
  | [], _ => none
  | a :: p, name => (last p name).or (if a.1 = name then some a.2 else none)

/-- The last thing the plugin number `i` assigns to a name. -/
def assigned (ps : List Plugin) (i : Nat) (name : Bytes) : Option Kind := ps[i]?.bind (Plugin.last · name)

/-- The plugin number `i` defines a handler for the event. -/
def Defines (ps : List Plugin) (i : Nat) (event : Bytes) : Prop := assigned ps i event = some .handler

instance (ps : List Plugin) (i : Nat) (event : Bytes) : Decidable (Defines ps i event) :=
  inferInstanceAs (Decidable (_ = _))

/-- It defines one, and no later plugin assigns anything to the name. -/
def Holds (ps : List Plugin) (i : Nat) (event : Bytes) : Prop :=
  Defines ps i event ∧ ∀ j, i < j → assigned ps j event = none

def definers (ps : List Plugin) (event : Bytes) : List Nat :=
  (List.range ps.length).filter fun i => decide (Defines ps i event)

def Global.isHandler : Global → Bool
  | .handler _ _ => true
  | _ => false

/-- The calls of handlers are, in some order, one for each plugin that defines one for the
    event, with the arguments. -/
def Everywhere (ps : List Plugin) (event : Bytes) (args : List LuaValue) (calls : List Invocation) : Prop :=
  (calls.filter fun c => c.callee.isHandler).Perm ((definers ps event).map fun i => ⟨.handler i event, args⟩)

/-- No plugin defines a handler for the event, nor is there one under the name that is
    left of it as a C string. -/
def Unheard (ps : List Plugin) (event : Bytes) : Prop :=
  (∀ i, ¬ Defines ps i event) ∧ ∀ i, ¬ Holds ps i (cstr event)

/-- One plugin alone defines a handler, no later one assigns anything else to the name, and
    the name is a C string. -/
def Alone (ps : List Plugin) (event : Bytes) : Prop :=
  ∃ i, Holds ps i event ∧ (∀ j, Defines ps j event → j = i) ∧ 0 ∉ event

/-! ## What a name holds -/

variable {lua g} {ps : List Plugin} {event : Bytes}

theorem loadFile_apply (i : Nat) (p : Plugin) (g : Globals) (name : Bytes) :
    loadFile i p g name = ((p.last name).map (Kind.value i name)).getD (g name) := by
  induction p generalizing g with
  | nil => rfl
  | cons a p ih =>
    have hcons : loadFile i (a :: p) g = loadFile i p (Function.update g a.1 (a.2.value i a.1)) := rfl
    rw [hcons, ih, Plugin.last]
    cases Plugin.last p name with
    | some k => rfl
    | none =>
      by_cases hname : a.1 = name
      · rw [if_pos hname, ← hname]
        simp
      · rw [if_neg hname]
        simp [Function.update_of_ne (Ne.symm hname)]

theorem Kind.value_eq_handler_iff {i k : Nat} {name e : Bytes} {kind : Kind} :
    kind.value i name = .handler k e ↔ kind = .handler ∧ k = i ∧ e = name := by
  cases kind <;> simp [Kind.value, eq_comm]

theorem loadFrom_concat (i : Nat) (ps : List Plugin) (p : Plugin) (g : Globals) :
    loadFrom i (ps ++ [p]) g = loadFile (i + ps.length) p (loadFrom i ps g) := by
  induction ps generalizing i g with
  | nil => rfl
  | cons q ps ih =>
    rw [List.cons_append, loadFrom, ih, loadFrom, List.length_cons]
    congr 1
    omega

theorem assigned_of_le {i : Nat} (h : ps.length ≤ i) (name : Bytes) : assigned ps i name = none := by
  rw [assigned, List.getElem?_eq_none h]
  rfl

/-- One more plugin, which is the last. -/
theorem assigned_concat (ps : List Plugin) (p : Plugin) (i : Nat) (name : Bytes) :
    assigned (ps ++ [p]) i name = if i = ps.length then p.last name else assigned ps i name := by
  split
  · rename_i hi
    subst hi
    rw [assigned, List.getElem?_append_right (Nat.le_refl _), Nat.sub_self]
    rfl
  · rename_i hi
    by_cases hlt : i < ps.length
    · rw [assigned, List.getElem?_append_left hlt]
      rfl
    · have hlen : (ps ++ [p]).length ≤ i := by
        rw [List.length_append, List.length_singleton]
        omega
      rw [assigned_of_le hlen, assigned_of_le (not_lt.mp hlt)]

theorem holds_concat_of_none {p : Plugin} {name : Bytes} (h : p.last name = none) (k : Nat) :
    Holds (ps ++ [p]) k name ↔ Holds ps k name := by
  have hsame : ∀ i, assigned (ps ++ [p]) i name = assigned ps i name := by
    intro i
    rw [assigned_concat]
    split
    · rename_i hi
      rw [h, assigned_of_le (by omega)]
    · rfl
  simp only [Holds, Defines, hsame]

theorem holds_concat_of_some {p : Plugin} {name : Bytes} {kind : Kind} (h : p.last name = some kind) (k : Nat) :
    Holds (ps ++ [p]) k name ↔ kind = .handler ∧ k = ps.length := by
  have hlast : assigned (ps ++ [p]) ps.length name = some kind := by
    rw [assigned_concat, if_pos rfl, h]
  constructor
  · rintro ⟨hdef, hlater⟩
    rcases Nat.lt_trichotomy k ps.length with hlt | rfl | hgt
    · rw [hlater _ hlt] at hlast
      cases hlast
    · exact ⟨Option.some.inj (hlast.symm.trans hdef), rfl⟩
    · rw [Defines, assigned_of_le] at hdef
      · cases hdef
      · rw [List.length_append, List.length_singleton]
        omega
  · rintro ⟨rfl, rfl⟩
    refine ⟨hlast, fun j hj => assigned_of_le ?_ name⟩
    rw [List.length_append, List.length_singleton]
    omega

/-- After all plugins are loaded a name holds the handler of the last plugin that assigns
    anything to it, if that is a handler. -/
theorem loadPlugins_handler_iff (lua : Lua) (ps : List Plugin) (name e : Bytes) (k : Nat) :
    loadPlugins lua ps name = .handler k e ↔ e = name ∧ Holds ps k name := by
  induction ps using List.reverseRecOn with
  | nil =>
    have hinit : initial lua name ≠ .handler k e := by
      unfold initial
      split <;> exact nofun
    exact ⟨fun h => absurd h hinit, fun h => nomatch h.2.1⟩
  | append_singleton ps p ih =>
    rw [loadPlugins, loadFrom_concat, loadFile_apply, Nat.zero_add]
    cases hlast : p.last name with
    | none =>
      rw [holds_concat_of_none hlast]
      exact ih
    | some kind =>
      rw [holds_concat_of_some hlast]
      show Kind.value _ name kind = .handler k e ↔ _
      rw [Kind.value_eq_handler_iff]
      exact ⟨fun ⟨hkind, hk, he⟩ => ⟨he, hkind, hk⟩, fun ⟨he, hkind, hk⟩ => ⟨hkind, hk, he⟩⟩

/-- So one plugin's handler at most is in a name. -/
theorem Holds.unique {name : Bytes} {i j : Nat} (hi : Holds ps i name) (hj : Holds ps j name) : i = j := by
  rcases Nat.lt_trichotomy i j with hlt | heq | hgt
  · exact nomatch (hi.2 j hlt).symm.trans hj.1
  · exact heq
  · exact nomatch (hj.2 i hgt).symm.trans hi.1

/-! ## Who is called -/

theorem mem_definers {i : Nat} : i ∈ definers ps event ↔ Defines ps i event := by
  rw [definers, List.mem_filter, List.mem_range, decide_eq_true_eq]
  refine ⟨fun h => h.2, fun h => ⟨?_, h⟩⟩
  by_contra hle
  rw [Defines, assigned_of_le (not_lt.mp hle)] at h
  cases h

theorem nodup_definers (ps : List Plugin) (event : Bytes) : (definers ps event).Nodup := List.nodup_range.filter _

theorem definers_eq_nil_iff : definers ps event = [] ↔ ∀ i, ¬ Defines ps i event := by
  simp only [List.eq_nil_iff_forall_not_mem, mem_definers]

theorem definers_eq_singleton_iff {i : Nat} :
    definers ps event = [i] ↔ Defines ps i event ∧ ∀ j, Defines ps j event → j = i := by
  rw [← List.perm_singleton, List.perm_ext_iff_of_nodup (nodup_definers ps event) (List.nodup_singleton i)]
  simp only [mem_definers, List.mem_singleton]
  exact ⟨fun h => ⟨(h i).mpr rfl, fun j => (h j).mp⟩, fun h j => ⟨h.2 j, fun hj => hj ▸ h.1⟩⟩

theorem cstr_eq_self_iff {b : Bytes} : cstr b = b ↔ 0 ∉ b := by
  rw [cstr, List.takeWhile_eq_self_iff]
  exact ⟨fun h hmem => by simpa using h 0 hmem, fun h x hx => decide_eq_true fun h0 => h (h0 ▸ hx)⟩

theorem zero_notMem_cstr (b : Bytes) : 0 ∉ cstr b := by
  intro hmem
  simpa using List.mem_takeWhile_imp hmem

@[simp] theorem cstr_cstr (b : Bytes) : cstr (cstr b) = cstr b := cstr_eq_self_iff.mpr (zero_notMem_cstr b)

/-- What `MP.TriggerEvent` gives a handler. -/
def triggerData (lua : Lua) (args : List LuaValue) : Bytes := cstr (lua.tostring (args[0]?.getD .nil))

/-- The one call that an event may make. -/
def callsOf (g : Globals) (event : Bytes) (args : List LuaValue) : List Invocation :=
  if g (cstr event) = .other then [] else [⟨g (cstr event), args⟩]

theorem fireEvent_calls (lua : Lua) (g : Globals) (event : Bytes) (args : List Bytes) :
    (fireEvent lua g event args).2 = callsOf g event (args.map fun a => .string (cstr a)) := by
  unfold fireEvent callsOf
  split
  · rename_i hg
    rw [if_pos hg]
  · rename_i hg
    rw [if_neg hg]
    dsimp only
    split <;> rfl

/-- A call reaches every plugin exactly if no plugin waits for it, or one does alone and the
    arguments are the ones that were meant. -/
theorem everywhere_callsOf_iff (lua : Lua) (ps : List Plugin) (event : Bytes) (args args' : List LuaValue) :
    Everywhere ps event args (callsOf (loadPlugins lua ps) event args') ↔
      Unheard ps event ∨ Alone ps event ∧ args' = args := by
  by_cases hheld : ∃ k, Holds ps k (cstr event)
  · obtain ⟨k, hk⟩ := hheld
    have hg : loadPlugins lua ps (cstr event) = .handler k (cstr event) :=
      (loadPlugins_handler_iff lua ps _ _ k).mpr ⟨rfl, hk⟩
    have hcall : callsOf (loadPlugins lua ps) event args' = [⟨.handler k (cstr event), args'⟩] := by
      rw [callsOf, hg, if_neg (by simp)]
    rw [Everywhere, hcall, List.filter_cons_of_pos rfl, List.filter_nil, List.singleton_perm, eq_comm,
      List.map_eq_singleton_iff]
    constructor
    · rintro ⟨i, hi, heq⟩
      obtain ⟨hdef, honly⟩ := definers_eq_singleton_iff.mp hi
      simp only [Invocation.mk.injEq, Global.handler.injEq] at heq
      obtain ⟨⟨rfl, hname⟩, rfl⟩ := heq
      refine .inr ⟨⟨i, ?_, honly, cstr_eq_self_iff.mp hname.symm⟩, rfl⟩
      rwa [← hname] at hk
    · rintro (⟨-, hnone⟩ | ⟨⟨i, hi, honly, hzero⟩, rfl⟩)
      · exact absurd hk (hnone k)
      · have hname := cstr_eq_self_iff.mpr hzero
        rw [hname] at hk ⊢
        obtain rfl := hk.unique hi
        exact ⟨k, definers_eq_singleton_iff.mpr ⟨hi.1, honly⟩, rfl⟩
  · have hnone : ∀ k, ¬ Holds ps k (cstr event) := fun k hk => hheld ⟨k, hk⟩
    have hcalls : (callsOf (loadPlugins lua ps) event args').filter (fun c => c.callee.isHandler) = [] := by
      unfold callsOf
      split
      · rfl
      · refine List.filter_cons_of_neg ?_
        cases hg : loadPlugins lua ps (cstr event) with
        | handler k e => exact absurd ((loadPlugins_handler_iff lua ps _ _ k).mp hg).2 (hnone k)
        | cfunction => exact Bool.false_ne_true
        | other => exact Bool.false_ne_true
    rw [Everywhere, hcalls, List.nil_perm, List.map_eq_nil_iff, definers_eq_nil_iff]
    constructor
    · exact fun hdef => .inl ⟨hdef, hnone⟩
    · rintro (⟨hdef, -⟩ | ⟨⟨i, hi, -, hzero⟩, -⟩)
      · exact hdef
      · rw [← cstr_eq_self_iff.mpr hzero] at hi
        exact absurd hi (hnone i)

theorem strings_eq_iff {args : List Bytes} :
    (args.map fun a => LuaValue.string (cstr a)) = args.map .string ↔ ∀ a ∈ args, 0 ∉ a := by
  rw [List.map_inj_left]
  simp only [LuaValue.string.injEq, cstr_eq_self_iff]

theorem trigger_calls (lua : Lua) (g : Globals) (event : Bytes) (args : List LuaValue) :
    lua_TriggerEvent lua g event args = callsOf g event [.string (triggerData lua args)] := by
  rw [lua_TriggerEvent, fireEvent_calls, callsOf, cstr_cstr, callsOf]
  rfl

/-- What `MP.TriggerEvent` gives on is what it was given only if that is one string. -/
theorem triggerData_iff {args : List LuaValue} :
    [.string (triggerData lua args)] = args ↔ ∃ s, args = [.string s] ∧ 0 ∉ s := by
  constructor
  · intro h
    cases args with
    | nil => cases h
    | cons a rest =>
      obtain ⟨ha, rfl⟩ := List.cons.inj h
      cases a with
      | string s =>
        refine ⟨s, rfl, cstr_eq_self_iff.mp ?_⟩
        have hs : cstr (cstr s) = s := LuaValue.string.inj ha
        rwa [cstr_cstr] at hs
      | nil => cases ha
      | boolean b => cases ha
      | number bits => cases ha
      | other => cases ha
  · rintro ⟨s, rfl, hzero⟩
    show [LuaValue.string (cstr (cstr s))] = _
    rw [cstr_cstr, cstr_eq_self_iff.mpr hzero]

/-- What the plugins answer to an event; the handlers of the server have it as a parameter
    of each call (`Env.plugin`). -/
def answer (lua : Lua) (g : Globals) (event : String) (args : List Bytes) : Bytes :=
  (fireEvent lua g (utf8 event) args).1

theorem zero_notMem_tostring (lua : Lua) (v : LuaValue) : 0 ∉ lua.tostring v := by
  cases v with
  | string s => exact zero_notMem_cstr s
  | number bits => exact zero_notMem_cstr _
  | nil => exact List.not_mem_nil
  | boolean b => exact List.not_mem_nil
  | other => exact List.not_mem_nil

/-- It depends on what Lua reads of the arguments, and is a C string: `fireEvent` of the
    handlers is that of the engine. -/
theorem answer_cstr (lua : Lua) (g : Globals) (event : String) (args : List Bytes) :
    cstr (answer lua g event (args.map cstr)) = (fireEvent lua g (utf8 event) args).1 := by
  have hargs : ((args.map cstr).map fun a => LuaValue.string (cstr a)) = args.map fun a => .string (cstr a) := by
    simp [Function.comp_def]
  unfold answer fireEvent
  rw [hargs]
  split
  · rfl
  · dsimp only
    split
    · rfl
    · exact cstr_eq_self_iff.mpr (zero_notMem_tostring lua _)

/-! ## Every event to every plugin -/

/-- `fireEvent` reaches every plugin that defines a handler exactly if there is none, or
    one alone that keeps the name and no argument has a zero byte; `MP.TriggerEvent`
    besides only with one argument that is a string. -/
theorem every_plugin_iff (lua : Lua) (ps : List Plugin) (event : Bytes) :
    (∀ args : List Bytes, Everywhere ps event (args.map .string) (fireEvent lua (loadPlugins lua ps) event args).2 ↔
      Unheard ps event ∨ Alone ps event ∧ ∀ a ∈ args, 0 ∉ a) ∧
    (∀ args : List LuaValue, Everywhere ps event args (lua_TriggerEvent lua (loadPlugins lua ps) event args) ↔
      Unheard ps event ∨ Alone ps event ∧ ∃ s, args = [.string s] ∧ 0 ∉ s) := by
  constructor
  · intro args
    rw [fireEvent_calls, everywhere_callsOf_iff, strings_eq_iff]
  · intro args
    rw [trigger_calls, everywhere_callsOf_iff, triggerData_iff]

/-! ## The plugins of the server -/

def handlers (names : List String) : Plugin := names.map fun name => (utf8 name, .handler)

def exampleLua : Plugin :=
  handlers ["onInit", "onPlayerAuth", "onPlayerJoin", "onPlayerDisconnect", "onChatMessage", "onVehicleSpawn",
    "onVehicleDelete", "onShutdown"]

def chatCommandsLua : Plugin := handlers ["onChatMessage"]

/-- Two of them have a handler for a chat message, and one of these is called. -/
theorem shipped_chat : ¬ ∀ (lua : Lua) (ps : List Plugin) (event : Bytes) (args : List Bytes),
    Everywhere ps event (args.map .string) (fireEvent lua (loadPlugins lua ps) event args).2 := by
  intro hall
  have hall := hall ⟨fun _ => [], fun _ => false, fun _ => none⟩ [exampleLua, chatCommandsLua] (utf8 "onChatMessage")
    [utf8 "1", utf8 "ann", utf8 "!help"]
  have hfirst : Defines [exampleLua, chatCommandsLua] 0 (utf8 "onChatMessage") := by decide
  have hsecond : Defines [exampleLua, chatCommandsLua] 1 (utf8 "onChatMessage") := by decide
  rw [fireEvent_calls, everywhere_callsOf_iff] at hall
  rcases hall with ⟨hnone, -⟩ | ⟨⟨i, -, honly, -⟩, -⟩
  · exact hnone 0 hfirst
  · exact absurd ((honly 0 hfirst).trans (honly 1 hsecond).symm) (by decide)

end LuaEngine

end NovaMP
