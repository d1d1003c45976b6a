/-
  NovaMP.Client.Echo — the Lua clients of a server, and who hears of a new vehicle
  (`handleVehicleSpawn` in `servers/src/game_server.cpp`, `TCPServer::sendAll`,
  `handlePacket` in `client/Resources/Client/main.lua`, `onRemoteVehicleSpawn` in
  `vehicle_sync.lua`).

  A `Lobby` is the server and the clients on its session objects, with what either side has
  written to the TCP connections and the other has not read, and the server's datagrams,
  which any client may get at any time. The server and its other callers are those of all
  runs (`GameServer.Step`); `lua` says which session objects are Lua clients.

  The server announces a vehicle with `sendAll`, which leaves nobody out, and the mod
  spawns what is announced without a look at its own id.

  - `told_all`: what is said to all is said to each registered session, the one that has
    asked among them.
  - `no_echo_iff`: no client has an entry under its own id exactly as long as none handles
    a `VEHICLE_SPAWN` that names itself (`Foreign`).
  - `own_car_echoed`: one client spawns one vehicle.
-/

import Mathlib.Logic.Function.Basic
import NovaMP.Client.Extension
import NovaMP.Server.Dump
import NovaMP.Server.Messages

namespace NovaMP.Client

open Lib StringPack Extension GameServer

/-! ## A client and its connection -/

structure Peer where
  client : Extension
  /-- What the server has not read yet, and what it has written. -/
  outbox : List Bytes
  inbox : List Bytes

/-- What the user, the game and the clock make the mod do. -/
inductive Act where
  | connect (auth : Bytes)
  | chat (msg : Bytes)
  | game (e : GameEvent)
  | tick (due : Bool) (read : Nat → Option Reading)

namespace Peer

def init : Peer := ⟨.init, [], []⟩

/-- The server takes the four length bytes off. -/
def send (p : Peer) (ptype : Int) (payload : Bytes) : Peer :=
  match tcpSend p.client.mod ptype (some payload) with
  | (mod, .ok bytes) => { p with client := { p.client with mod }, outbox := p.outbox ++ [bytes.drop 4] }
  | (mod, .error _) => { p with client := { p.client with mod } }

def act (p : Peer) : Act → Peer
  | .connect auth => p.send 0x01 auth
  | .chat msg => if p.client.connected then p.send 0x0B msg else p
  | .game e =>
    let (client, written, _) := p.client.happens e
    { p with client, outbox := p.outbox ++ written.map (·.drop 4) }
  | .tick due read => { p with client := (p.client.onUpdate due read).1 }

end Peer

/-! ## The clients and the server -/

structure Lobby where
  server : Server
  /-- By their session objects. -/
  peers : Nat → Peer
  datagrams : List Bytes

/-- What a call has written to a session object. -/
def inboxOf (object : Nat) (sent : List NovaMP.Sent) : List Bytes :=
  sent.filterMap fun
    | .tcp _ (some k) packet => if k = object then some packet else none
    | _ => none

def datagramsOf (sent : List NovaMP.Sent) : List Bytes :=
  sent.filterMap fun
    | .udp _ packet => some packet
    | _ => none

namespace Lobby

def init : Lobby := ⟨Server.init, fun _ => .init, []⟩

def setPeer (c : Lobby) (k : Nat) (p : Peer) : Lobby := { c with peers := Function.update c.peers k p }

/-- The server has gone on to `s`. -/
def hears (c : Lobby) (s : Server) : Lobby where
  server := s
  peers k := { c.peers k with inbox := (c.peers k).inbox ++ inboxOf k s.sent }
  datagrams := c.datagrams ++ datagramsOf s.sent

inductive Run (lua : Nat → Prop) (w : World) (decode : Bytes → Option Json)
    (ok : Extension → Option Nat → Except PackError Incoming → Prop) : Lobby → Prop
  | init : Run lua w decode ok init
  | act {c : Lobby} {k : Nat} (a : Act) : Run lua w decode ok c → lua k →
      Run lua w decode ok (c.setPeer k ((c.peers k).act a))
  | serve {c : Lobby} {k : Nat} {data : Bytes} {rest : List Bytes} {x : Env} {s : Server} : Run lua w decode ok c → lua k →
      (c.peers k).outbox = data :: rest → Step w c.server x (.frame k data) s →
      Run lua w decode ok ((c.setPeer k { c.peers k with outbox := rest }).hears s)
  | elsewhere {c : Lobby} {x : Env} {call : Call} {s : Server} : Run lua w decode ok c →
      (∀ k data, lua k → call ≠ .frame k data) → Step w c.server x call s → Run lua w decode ok (c.hears s)
  | tcp {c : Lobby} {k : Nat} {packet : Bytes} {rest : List Bytes} (spawned : Option Nat) : Run lua w decode ok c → lua k →
      (c.peers k).inbox = packet :: rest → ok (c.peers k).client spawned (readTCP decode packet) →
      Run lua w decode ok
        (c.setPeer k { c.peers k with client := ((c.peers k).client.receive decode spawned packet).1, inbox := rest })
  | udp {c : Lobby} {k : Nat} {data : Bytes} (spawned : Option Nat) : Run lua w decode ok c → lua k →
      data ∈ c.datagrams → ok (c.peers k).client spawned (readUDP decode data) →
      Run lua w decode ok
        (c.setPeer k { c.peers k with client := ((c.peers k).client.handleRead spawned (readUDP decode data)).1 })

end Lobby

/-! ## The server tells everyone -/

/-- A post to all is written to each session that is registered, also to the one it is about. -/
theorem told_all {w : World} {x : Env} {s s' : Server} {call : Call} {m : Message} {sid : UInt16} {k : Nat}
    (hs : Step w s x call s') (hm : ⟨.all, m⟩ ∈ posts w x s.clear call) (hk : s'.tcp.sessions.lookup sid = some k)
    (hsid : sid ≠ 0xFFFF) : m.packet w ∈ inboxOf k s'.sent := by
  have hsent := outcome_sent w x s.clear call
  rw [step_outcome hs] at hsent
  have hmem : NovaMP.Sent.tcp sid (some k) (m.packet w) ∈ tcpSent s' := by
    rw [hsent]
    refine List.mem_append_right _ (List.mem_flatMap.mpr ⟨_, hm, ?_⟩)
    exact List.mem_map.mpr ⟨⟨sid, k⟩, List.mem_filter.mpr ⟨Table.lookup_iff_mem.mp hk, by simpa using hsid⟩, rfl⟩
  exact List.mem_filterMap.mpr ⟨_, (List.mem_filter.mp hmem).1, by simp⟩

/-! ## What a client handles -/

/-- No entry under the client's own id. -/
def Extension.NoEcho (x : Extension) : Prop := x.mod.playerId ∉ x.remoteVehicles

/-- A spawn is that of another player, or the game does not spawn it; a login gives the
    client an id under which it has no entry. -/
def Foreign (x : Extension) (spawned : Option Nat) : Except PackError Incoming → Prop
  | .ok (.vehicleSpawn (some p) _) => spawned.isSome → p ≠ x.mod.playerId
  | .ok (.authenticated (some p)) => p ∉ x.remoteVehicles
  | _ => True

variable {x : Extension} {spawned : Option Nat}

theorem handleRead_echo_iff (h : x.NoEcho) (r : Except PackError Incoming) :
    (x.handleRead spawned r).1.NoEcho ↔ Foreign x spawned r := by
  cases r with
  | error e => exact iff_of_true h trivial
  | ok i =>
    have hc := handle_change x spawned i
    constructor
    · intro hy
      cases i with
      | vehicleSpawn p v =>
        cases p with
        | none => trivial
        | some p =>
          rintro hspawned rfl
          obtain ⟨gid, rfl⟩ := Option.isSome_iff_exists.mp hspawned
          refine hy ?_
          rcases hc.playerId with hid | hid
          · show (x.handle (some gid) _).1.mod.playerId ∈ _
            rw [hid]
            exact mem_remote_spawn x.mod.playerId v gid
          · cases hid
      | authenticated p =>
        cases p with
        | none => trivial
        | some p => exact hy
      | _ => trivial
    · intro hf hmem
      rcases hc.mem_remote hmem with hmem | ⟨v, gid, hspawn, hspawned⟩ <;> rcases hc.playerId with hid | hlogin
      · exact h (hid ▸ hmem)
      · rw [hlogin] at hf
        exact hf hmem
      · rw [hspawned, hspawn] at hf
        exact hf rfl hid
      · rw [hlogin] at hspawn
        cases hspawn

theorem Peer.act_frame (p : Peer) (a : Act) : (p.act a).client.mod.playerId = p.client.mod.playerId ∧
    (p.act a).client.remoteVehicles = p.client.remoteVehicles := by
  have hsend : ∀ ptype payload, (p.send ptype payload).client.mod.playerId = p.client.mod.playerId ∧
      (p.send ptype payload).client.remoteVehicles = p.client.remoteVehicles := by
    intro ptype payload
    unfold Peer.send
    split
    · rename_i hm
      exact ⟨by rw [tcpSend_mod hm], rfl⟩
    · rename_i hm
      exact ⟨by rw [tcpSend_mod hm], rfl⟩
  cases a with
  | connect auth => exact hsend _ _
  | chat msg =>
    rw [Peer.act]
    split
    · exact hsend _ _
    · exact ⟨rfl, rfl⟩
  | game e =>
    obtain ⟨tcpSeq, scene, playerVids, hframe⟩ := happens_frame p.client e
    have hclient : (p.act (.game e)).client = (p.client.happens e).1 := rfl
    rw [hclient, hframe]
    exact ⟨rfl, rfl⟩
  | tick due read =>
    obtain ⟨vidMap, hframe⟩ := onUpdate_frame p.client due read
    have hclient : (p.act (.tick due read)).client = (p.client.onUpdate due read).1 := rfl
    rw [hclient, hframe]
    exact ⟨rfl, rfl⟩

/-! ## Runs -/

namespace Lobby

def NoEcho (c : Lobby) : Prop := ∀ k, (c.peers k).client.NoEcho

variable {c : Lobby}

theorem setPeer_noEcho (h : c.NoEcho) {k : Nat} {p : Peer} (hp : p.client.NoEcho) : (c.setPeer k p).NoEcho := by
  intro j
  by_cases hj : j = k
  · subst hj
    show (Function.update c.peers j p j).client.NoEcho
    rw [Function.update_self]
    exact hp
  · show (Function.update c.peers k p j).client.NoEcho
    rw [Function.update_of_ne hj]
    exact h j

variable {lua : Nat → Prop} {w : World} {decode : Bytes → Option Json}

theorem Run.noEcho (hr : Run lua w decode Foreign c) : c.NoEcho := by
  induction hr with
  | init => exact fun _ => AList.notMem_empty 0
  | @act c k a _ _ ih =>
    refine setPeer_noEcho ih ?_
    obtain ⟨hid, hremote⟩ := (c.peers k).act_frame a
    rw [Extension.NoEcho, hid, hremote]
    exact ih k
  | @serve c k _ _ _ _ _ _ _ _ ih => exact setPeer_noEcho (p := { c.peers k with outbox := _ }) ih (ih k)
  | elsewhere _ _ _ ih => exact ih
  | @tcp c k _ _ _ _ _ _ hf ih => exact setPeer_noEcho ih ((handleRead_echo_iff (ih k) _).mpr hf)
  | @udp c k _ _ _ _ _ hf ih => exact setPeer_noEcho ih ((handleRead_echo_iff (ih k) _).mpr hf)

end Lobby

/-- In a run in which the clients handle nothing but `Foreign` packets, none ever has an
    entry under its own id; and by any other packet a client gets one. -/
theorem no_echo_iff (lua : Nat → Prop) (w : World) (decode : Bytes → Option Json) :
    (∀ c, Lobby.Run lua w decode Foreign c → c.NoEcho) ∧
      ∀ (x : Extension) (spawned : Option Nat) (r : Except PackError Incoming), x.NoEcho → ¬ Foreign x spawned r →
        ¬ (x.handleRead spawned r).1.NoEcho :=
  ⟨fun _ hr => hr.noEcho, fun _ _ r h hf => mt (handleRead_echo_iff h r).mp hf⟩

/-! ## One client and one vehicle -/

namespace Solo

/-- No float is written here. -/
def text (j : Json) : Bytes := utf8 (j.render fun _ => "0.0")

def pickup : Json := .obj [("model", .str "pickup")]

def world : World :=
  { World.sample [] with
    parse := fun b => [userJson "ann", pickup].find? fun j => text j == b
    dump := Json.render fun _ => "0.0" }

/-- The vehicle, as the server keeps it. -/
def car : PlayerVehicle := ⟨0, "pickup", world.dump pickup, .zero, true⟩

/-- What the client reads of the server's texts. -/
def decode (b : Bytes) : Option Json :=
  ([Message.authOk 1, Message.vehicleSpawn 1 car].filterMap (·.json world)).find? fun j => text j == b

def lua : Nat → Prop := fun k => k = 0

/-- A message for the client, as it comes. -/
def message (m : Message) (h : (m.text world).length ≤ 65535) : Outgoing := ⟨m.type, m.sender, 0, m.text world, 0, h⟩

def login : Outgoing := message (.authOk 1) (by decide)

def info : Outgoing := message (.serverInfo 1) (by decide +kernel)

def echo : Outgoing := message (.vehicleSpawn 1 car) (by decide +kernel)

/-- The client has connected and asked to log in. -/
def asking : Lobby :=
  let accepted := Lobby.init.hears (after world Server.init Env.quiet (.accept "10.0.0.1"))
  accepted.setPeer 0 ((accepted.peers 0).act (.connect (text (userJson "ann"))))

/-- The server has called the frame of the client, which is all that it had written. -/
def served (c : Lobby) : Lobby :=
  (c.setPeer 0 { c.peers 0 with outbox := [] }).hears
    (after world c.server Env.quiet (.frame 0 ((c.peers 0).outbox.head?.getD [])))

/-- The client has read a packet. -/
def read (c : Lobby) (m : Outgoing) (spawned : Option Nat) : Lobby :=
  c.setPeer 0
    { c.peers 0 with
      client := (Extension.handlePacket decode (c.peers 0).client spawned m.type.code m.payload).1
      inbox := (c.peers 0).inbox.tail }

/-- It is logged in. -/
def joined : Lobby := read (read (served asking) login none) info none

/-- The user has spawned a vehicle, and the server has handled that. -/
def announced : Lobby := served (joined.setPeer 0 ((joined.peers 0).act (.game (.spawned 3 (text pickup)))))

abbrev Runs : Lobby → Prop := Lobby.Run lua world decode fun _ _ _ => True

theorem run_served {c : Lobby} (hr : Runs c) (hout : (c.peers 0).outbox.length = 1)
    (hs : (exec world Env.quiet (.frame 0 ((c.peers 0).outbox.head?.getD [])) [] c.server.clear).1 = .ok ()) :
    Runs (served c) := by
  refine .serve (k := 0) hr rfl ?_ (step_after world _ _ hs)
  obtain ⟨data, hdata⟩ := List.length_eq_one_iff.mp hout
  rw [hdata]
  rfl

theorem run_read {c : Lobby} {m : Outgoing} (spawned : Option Nat) (hr : Runs c)
    (hin : (c.peers 0).inbox = m.packet :: (c.peers 0).inbox.tail) : Runs (read c m spawned) := by
  have htcp := Lobby.Run.tcp (k := 0) spawned hr rfl hin trivial
  rw [receive_outgoing] at htcp
  exact htcp

theorem run_asking : Runs asking :=
  .act (.connect (text (userJson "ann")))
    (.elsewhere .init (fun _ _ _ h => by cases h) (step_ends world _ _ rfl)) rfl

theorem run_joined : Runs joined :=
  run_read none (run_read none (run_served run_asking (by decide +kernel) (by decide +kernel)) (by decide +kernel)) (by decide +kernel)

theorem run_announced : Runs announced :=
  run_served (.act (.game (.spawned 3 (text pickup))) run_joined rfl) (by decide +kernel) (by decide +kernel)

end Solo

/-- The announcement comes back, and the game spawns a second vehicle. -/
theorem own_car_echoed : ¬ ∀ (lua : Nat → Prop) (w : World) (decode : Bytes → Option Json) (c : Lobby),
    Lobby.Run lua w decode (fun _ _ _ => True) c → c.NoEcho := by
  intro hall
  have hrun := Solo.run_read (m := Solo.echo) (some 20) Solo.run_announced (by decide +kernel)
  exact hall Solo.lua Solo.world Solo.decode _ hrun 0 (by decide +kernel)

end NovaMP.Client
