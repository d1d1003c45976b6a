/-
  NovaMP.Server.Logins — `handleAuth` on several io threads at once.

  `GameServer::run` starts at least two io threads, so handlers of different sessions run
  at the same time. Here a login is what it does between the mutexes: a program of
  sections, each the faithful function of its name run at once. The other calls of the
  server come from outside, each whole.

  - `handleAuth_runs`, `handleAuth_undisturbed`: a login that nobody disturbs is `handleAuth`.
  - `limit_iff`: `max_players` is kept in a run exactly when each player is registered
    while there is room.
  - `serial_roomy`: there is room when no login counts while another one is between its
    count and its registration.
  - `both_admitted`: two logins count before either registers.
-/

import NovaMP.Lib.Threads
import NovaMP.Server.Slots

namespace NovaMP.GameServer

open Lib Exec

/-! ## Sections -/

/-- What `handleAuth` does under one mutex, or as `allocPlayerID` does at once. -/
inductive Section where
  | playerCount
  | allocPlayerID
  | getRemoteIP (sid : UInt16)
  | register (sid pid : UInt16) (p : Player)
  | fireEvent (x : Env) (event : String) (args : List Bytes)
  /-- The rollback of a vetoed player. -/
  | unregister (sid pid : UInt16)
  | send (sid : UInt16) (packet : Bytes)
  | disconnect (x : Env) (sid : UInt16)
  | authorityCall (c : AuthorityCall)

namespace Section

abbrev Result : Section → Type
  | playerCount => Nat
  | allocPlayerID => UInt16
  | getRemoteIP _ => String
  | fireEvent _ _ _ => Bytes
  | _ => Unit

def run (w : World) : (o : Section) → Server → Except (Stop Mutex Fault) o.Result × Server
  | playerCount => GameServer.playerCount []
  | allocPlayerID => GameServer.allocPlayerID []
  | getRemoteIP sid => TCPServer.getRemoteIP sid []
  | register sid pid p => GameServer.register sid pid p []
  | fireEvent x event args => GameServer.fireEvent x event args []
  | unregister sid pid =>
    withLock .players (update fun s => { s with
      players := s.players.erase pid
      sessionToPlayer := s.sessionToPlayer.erase sid }) []
  | send sid packet => TCPServer.send sid packet []
  | disconnect x sid => GameServer.disconnect w x sid []
  | authorityCall c => GameServer.authorityCall w c []

end Section

/-! ## Logins -/

abbrev Auth := Prog Section Section.Result (Stop Mutex Fault)

namespace Auth

variable (w : World) (x : Env)

/-- Goes through one section. -/
def enter (o : Section) : Auth o.Result := Prog.perform o

def ofExcept {α : Type} : Except Fault α → Auth α
  | .ok a => pure a
  | .error e => .stop (.fault e)

def sendServerInfo (sid : UInt16) : Auth Unit := do
  let current ← enter .playerCount
  enter (.send sid (infoPacket w current))

def authBridge (sid : UInt16) (password : String) : Auth Unit :=
  if !w.cfg.aiEnabled || password ≠ w.cfg.bridgeToken then do
    enter (.send sid (authResponse w (okFalse (.str "Bridge token mismatch"))))
    enter (.disconnect x sid)
  else do
    let pid ← enter .allocPlayerID
    let ip ← enter (.getRemoteIP sid)
    enter (.register sid pid ⟨pid, aiBridge, "bridge", ip, .ready, false, false, []⟩)
    enter (.send sid (authResponse w (okTrue w pid)))
    Prog.each (fun c => enter (.authorityCall c)) (x.onHeadlessConnect pid)

def authPlayer (sid : UInt16) (j : Json) (username : String) : Auth Unit := do
  let pid ← enter .allocPlayerID
  let role ← ofExcept (j.value "role" "player")
  let ip ← enter (.getRemoteIP sid)
  enter (.register sid pid ⟨pid, username, role, ip, .loadingMods, false, false, []⟩)
  let veto ← enter (.fireEvent x "onPlayerAuth" [idText pid, utf8 username])
  if refuses veto then do
    enter (.unregister sid pid)
    let error ← ofExcept (Json.ofBytes veto)
    enter (.send sid (authResponse w (okFalse error)))
    enter (.disconnect x sid)
  else do
    enter (.send sid (authResponse w (okTrue w pid)))
    sendServerInfo w sid
    -- The log line counts the players.
    let _ ← enter .playerCount

def handleAuth (sid : UInt16) (payload : Bytes) (len : UInt16) : Auth Unit := do
  let body ← ofExcept (readBytes payload len.toNat)
  match w.parse body with
  | none => enter (.send sid (authResponse w (okFalse (.str "Invalid JSON"))))
  | some j => do
    let username ← ofExcept (j.value "username" "")
    let password ← ofExcept (j.value "server_password" "")
    if username = aiBridge then authBridge w x sid password
    else if username = "" then enter (.send sid (authResponse w (okFalse (.str "Username required"))))
    else if w.cfg.password ≠ "" ∧ password ≠ w.cfg.password then do
      enter (.send sid (authResponse w (okFalse (.str "Wrong password"))))
      enter (.disconnect x sid)
    else do
      let count ← enter .playerCount
      if w.cfg.maxPlayers ≤ (count : Int) then do
        enter (.send sid (authResponse w (okFalse (.str "Server full"))))
        enter (.disconnect x sid)
      else authPlayer w x sid j username

end Auth

/-! ## A login alone -/

/-- Without other threads the program does what the function does. -/
def Runs (w : World) {α : Type} (p : Auth α) (m : ServerM α) : Prop := ∀ s, p.alone (Section.run w) s = m [] s

namespace Runs

variable {w : World} {α β : Type}

theorem pure (a : α) : Runs w (Pure.pure a) (Pure.pure a) := fun _ => rfl

theorem enter {o : Section} {m : ServerM o.Result} (h : ∀ s, Section.run w o s = m [] s) :
    Runs w (Auth.enter o) m :=
  fun s => (Prog.alone_perform _ o s).trans (h s)

theorem ofExcept (e : Except Fault α) : Runs w (Auth.ofExcept e) (Exec.ofExcept e) := by
  cases e <;> exact fun _ => rfl

theorem bind {p : Auth β} {m : ServerM β} {f : β → Auth α} {g : β → ServerM α} (h : Runs w p m)
    (hf : ∀ b, Runs w (f b) (g b)) : Runs w (p >>= f) (m >>= g) := by
  intro s
  rw [Prog.alone_bind, run_bind, h s]
  rcases m [] s with ⟨e | b, t⟩
  · rfl
  · exact hf b t

theorem ite {c : Prop} [Decidable c] {p q : Auth α} {m n : ServerM α} (hp : Runs w p m) (hq : Runs w q n) :
    Runs w (if c then p else q) (if c then m else n) := by
  by_cases hc : c
  · rw [if_pos hc, if_pos hc]
    exact hp
  · rw [if_neg hc, if_neg hc]
    exact hq

theorem each {f : β → Auth Unit} {g : β → ServerM Unit} (h : ∀ b, Runs w (f b) (g b)) (bs : List β) :
    Runs w (Prog.each f bs) (Exec.each g bs) := by
  induction bs with
  | nil => exact pure ()
  | cons b bs ih => exact (h b).bind fun _ => ih

end Runs

variable (w : World) (x : Env)

theorem sendServerInfo_runs (sid : UInt16) : Runs w (Auth.sendServerInfo w sid) (sendServerInfo w sid) := by
  refine (Runs.enter fun _ => rfl).bind fun current => ?_
  exact .enter fun _ => rfl

theorem authBridge_runs (sid : UInt16) (password : String) :
    Runs w (Auth.authBridge w x sid password) (authBridge w x sid password) := by
  refine .ite ?_ ?_
  · refine (Runs.enter fun _ => rfl).bind fun _ => ?_
    exact .enter fun _ => rfl
  · refine (Runs.enter fun _ => rfl).bind fun pid => ?_
    refine (Runs.enter fun _ => rfl).bind fun ip => ?_
    refine (Runs.enter fun _ => rfl).bind fun _ => ?_
    refine (Runs.enter fun _ => rfl).bind fun _ => ?_
    exact .each (fun c => .enter fun _ => rfl) _

theorem authPlayer_runs (sid : UInt16) (j : Json) (username : String) :
    Runs w (Auth.authPlayer w x sid j username) (authPlayer w x sid j username) := by
  refine (Runs.enter fun _ => rfl).bind fun pid => ?_
  refine (Runs.ofExcept _).bind fun role => ?_
  refine (Runs.enter fun _ => rfl).bind fun ip => ?_
  refine (Runs.enter fun _ => rfl).bind fun _ => ?_
  refine (Runs.enter fun _ => rfl).bind fun veto => ?_
  refine .ite ?_ ?_
  · refine (Runs.enter fun _ => rfl).bind fun _ => ?_
    refine (Runs.ofExcept _).bind fun error => ?_
    refine (Runs.enter fun _ => rfl).bind fun _ => ?_
    exact .enter fun _ => rfl
  · refine (Runs.enter fun _ => rfl).bind fun _ => ?_
    refine (sendServerInfo_runs w sid).bind fun _ => ?_
    refine (Runs.enter fun _ => rfl).bind fun _ => ?_
    exact .pure ()

/-- A login that nobody disturbs is `handleAuth`. -/
theorem handleAuth_runs (sid : UInt16) (pl : Bytes) (len : UInt16) :
    Runs w (Auth.handleAuth w x sid pl len) (handleAuth w x sid pl len) := by
  refine (Runs.ofExcept _).bind fun body => ?_
  cases w.parse body with
  | none => exact .enter fun _ => rfl
  | some j =>
    refine (Runs.ofExcept _).bind fun username => ?_
    refine (Runs.ofExcept _).bind fun password => ?_
    refine .ite (authBridge_runs w x sid password) (.ite ?_ (.ite ?_ ?_))
    · exact .enter fun _ => rfl
    · refine (Runs.enter fun _ => rfl).bind fun _ => ?_
      exact .enter fun _ => rfl
    · refine (Runs.enter fun _ => rfl).bind fun count => ?_
      refine .ite ?_ (authPlayer_runs w x sid j username)
      refine (Runs.enter fun _ => rfl).bind fun _ => ?_
      exact .enter fun _ => rfl

/-- In a pool, too, as long as no other thread takes a turn. -/
theorem handleAuth_undisturbed {κ : Type} [DecidableEq κ] {q : Pool κ Section Section.Result (Stop Mutex Fault) Server}
    {k : κ} {sid : UInt16} {pl : Bytes} {len : UInt16} (h : q.threads k = Auth.handleAuth w x sid pl len) :
    ∃ n, (q.turns (Section.run w) (List.replicate n k)).state = (handleAuth w x sid pl len [] q.state).2 := by
  obtain ⟨n, hn⟩ := Pool.alone_turns h
  exact ⟨n, by rw [hn, handleAuth_runs w x sid pl len]⟩

/-! ## The limit -/

/-- The registered players other than the bridge. -/
def ordinary (s : Server) : Nat := s.players.countValues isOrdinary

/-- A player is registered while there is room, or over a player of the same id. -/
def Roomy (w : World) : Section → Server → Prop
  | .register _ pid p, s => isOrdinary p = true →
    (s.players.lookup pid).any isOrdinary = true ∨ (ordinary s : Int) < w.cfg.maxPlayers
  | _, _ => True

variable {w x} {s : Server}

theorem dropped_players (s : Server) (sid : UInt16) : (dropped s sid).2.players = s.players := by
  unfold dropped
  split <;> rfl

/-- Only the registration of an ordinary player adds to their number. -/
theorem section_ordinary {o : Section} (ho : ∀ sid pid p, o = .register sid pid p → isOrdinary p = false) (s : Server) :
    ordinary (Section.run w o s).2 ≤ ordinary s := by
  have hkeep : ∀ t : Server, t.players = s.players → ordinary t ≤ ordinary s := fun t ht =>
    le_of_eq (by rw [ordinary, ht, ordinary])
  cases o with
  | playerCount => exact hkeep _ rfl
  | allocPlayerID =>
    apply hkeep
    rw [Section.run, allocPlayerID_eq]
  | getRemoteIP sid =>
    apply hkeep
    rw [Section.run, TCPServer.getRemoteIP_eq]
  | fireEvent x event args => exact hkeep _ rfl
  | send sid packet =>
    apply hkeep
    rw [Section.run, TCPServer.send_eq (List.not_mem_nil)]
    rfl
  | disconnect x sid =>
    apply hkeep
    rw [Section.run, disconnect_eq w x (List.not_mem_nil)]
    exact dropped_players s sid
  | authorityCall c =>
    apply hkeep
    rw [Section.run, authorityCall_eq]
    rfl
  | unregister sid pid => exact Table.countValues_erase_le isOrdinary s.players pid
  | register sid pid p =>
    show Table.countValues isOrdinary (s.players.insert pid p) ≤ _
    rw [Table.countValues_insert, ho sid pid p rfl]
    exact Table.countValues_erase_le isOrdinary s.players pid

variable (w)

/-- A session's thread starts with a request it has received. -/
def Starts (sid : UInt16) (p : Auth Unit) : Prop := ∃ x pl len, p = Auth.handleAuth w x sid pl len

/-- A completed call that is no `AUTH_REQUEST`. -/
def FromOutside (s t : Server) : Prop :=
  ∃ x c, Step w s x c t ∧ ∀ object data, c = .frame object data → authText s object data = none

abbrev AuthPool := Pool UInt16 Section Section.Result (Stop Mutex Fault) Server

/-- No login has begun. -/
def idle : AuthPool := ⟨Server.init, fun _ => .pure ()⟩

abbrev AuthRun (h : List (AuthPool × Pool.Event UInt16)) (q : AuthPool) : Prop :=
  Pool.Run (Section.run w) (Starts w) (FromOutside w) idle h q

variable {w}

theorem turn_ordinary {pid : UInt16} {ty : Option PacketType} {as : List Announcement} {t : Server}
    (h : Turn s pid ty as t) : ordinary t = ordinary s := by
  unfold ordinary
  cases h with
  | quiet ha => rw [ha.players]
  | ready hp ha => rw [ha.players]; exact Table.countValues_put hp rfl
  | spawn hp _ ha => rw [ha.players]; exact Table.countValues_put hp rfl
  | delete hp ha => rw [ha.players]; exact Table.countValues_put hp rfl

theorem outside_ordinary {t : Server} (h : FromOutside w s t) : ordinary t ≤ ordinary s := by
  obtain ⟨x, c, hs, hno⟩ := h
  have hc := step_change w x s hs
  generalize announced w x s.clear c = as at hc
  cases hc with
  | quiet ha => exact le_of_eq (by rw [ordinary, ha.players, ordinary])
  | accept ha => exact le_of_eq (by rw [ordinary, ha.players, ordinary])
  | closed _ _ ha => exact le_of_eq (by rw [ordinary, ha.players, ordinary]; rfl)
  | turn _ _ _ _ ht => exact le_of_eq (turn_ordinary ht)
  | banned hp ha =>
    rw [ordinary, ha.players]
    exact le_of_eq (Table.countValues_put hp rfl)
  | left _ _ _ ha =>
    rw [ordinary, ha.players]
    exact Table.countValues_erase_le _ _ _
  | registered htext _ _ =>
    rw [hno _ _ rfl] at htext
    cases htext
  | vetoed htext _ _ =>
    rw [hno _ _ rfl] at htext
    cases htext

/-- A section that registers no ordinary player. -/
def Section.Plain (o : Section) : Prop := ∀ sid pid p, o = .register sid pid p → isOrdinary p = false

/-- However its sections end, the login registers no ordinary player any more. -/
inductive Quiet : Auth Unit → Prop
  | pure (a : Unit) : Quiet (.pure a)
  | stop (e : Stop Mutex Fault) : Quiet (.stop e)
  | call {o : Section} {k : o.Result → Auth Unit} :
      o.Plain → (∀ r, Quiet (k r)) → Quiet (.call o k)

/-- The login has counted the players and has yet to register its own. -/
def Between (p : Auth Unit) : Prop := ¬ Quiet p ∧ ∀ k, p ≠ .call .playerCount k

/-- How `handleAuth` and what is left of it go about the limit. -/
inductive Careful (w : World) : Auth Unit → Prop
  | quiet {p : Auth Unit} : Quiet p → Careful w p
  | count {k : Nat → Auth Unit} : (∀ n : Nat, w.cfg.maxPlayers ≤ n → Quiet (k n)) → (∀ n, Careful w (k n)) →
      Careful w (.call .playerCount k)
  | register {sid pid : UInt16} {p : Player} {k : Unit → Auth Unit} : (∀ r, Quiet (k r)) →
      Careful w (.call (.register sid pid p) k)
  | later {o : Section} {k : o.Result → Auth Unit} : o.Plain → o ≠ .playerCount → (∀ r, Careful w (k r)) → Careful w (.call o k)

theorem plain_send (sid : UInt16) (pkt : Bytes) : (Section.send sid pkt).Plain := fun _ _ _ h => by cases h

theorem plain_disconnect (x : Env) (sid : UInt16) : (Section.disconnect x sid).Plain := fun _ _ _ h => by cases h

theorem plain_playerCount : Section.playerCount.Plain := fun _ _ _ h => by cases h

/-- The last section of a login. -/
theorem quiet_last {o : Section} (ho : o.Plain) {k : o.Result → Unit} : Quiet (.call o fun r => .pure (k r)) :=
  .call ho fun r => .pure (k r)

/-- An answer, and the session's end. -/
theorem quiet_refusal (x : Env) (sid : UInt16) (pkt : Bytes) :
    Quiet (do Auth.enter (.send sid pkt); Auth.enter (.disconnect x sid)) :=
  .call (plain_send sid pkt) fun _ => quiet_last (plain_disconnect x sid)

theorem authBridge_quiet (w : World) (x : Env) (sid : UInt16) (password : String) :
    Quiet (Auth.authBridge w x sid password) := by
  unfold Auth.authBridge
  split
  · exact quiet_refusal x sid _
  · refine .call (fun _ _ _ h => by cases h) fun pid => ?_
    refine .call (fun _ _ _ h => by cases h) fun ip => ?_
    refine .call ?_ fun _ => ?_
    · intro sid' pid' p h
      cases h
      rfl
    refine .call (plain_send _ _) fun _ => ?_
    generalize x.onHeadlessConnect pid = calls
    show Quiet (Prog.each _ calls)
    induction calls with
    | nil => exact .pure ()
    | cons c calls ih => exact .call (fun _ _ _ h => by cases h) fun _ => ih

theorem authPlayer_careful (w : World) (x : Env) (sid : UInt16) (j : Json) (username : String) :
    Careful w (Auth.authPlayer w x sid j username) := by
  refine .later (fun _ _ _ h => by cases h) (fun h => by cases h) fun pid => ?_
  cases j.value "role" "player" with
  | error e => exact .quiet (.stop _)
  | ok role =>
    refine .later (fun _ _ _ h => by cases h) (fun h => by cases h) fun ip => ?_
    refine .register fun _ => ?_
    refine .call (fun _ _ _ h => by cases h) fun veto => ?_
    show Quiet (if refuses veto then _ else _)
    split
    · refine .call (fun _ _ _ h => by cases h) fun _ => ?_
      cases Json.ofBytes veto with
      | error e => exact .stop _
      | ok error => exact quiet_refusal x sid _
    · refine .call (plain_send _ _) fun _ => ?_
      refine .call plain_playerCount fun current => ?_
      refine .call (plain_send _ _) fun _ => ?_
      exact .call plain_playerCount fun _ => .pure ()

/-- A login that has not counted yet, or has nothing to count for. -/
def Opening (w : World) (p : Auth Unit) : Prop := Careful w p ∧ ¬ Between p

namespace Opening

variable {w : World} {p q : Auth Unit}

theorem quiet (h : Quiet p) : Opening w p := ⟨.quiet h, fun hb => hb.1 h⟩

theorem ofExcept {α : Type} {f : α → Auth Unit} (e : Except Fault α) (h : ∀ a, Opening w (f a)) :
    Opening w (Auth.ofExcept e >>= f) := by
  cases e with
  | error e => exact quiet (.stop _)
  | ok a => exact h a

theorem ite {c : Prop} [Decidable c] (hp : Opening w p) (hq : Opening w q) : Opening w (if c then p else q) := by
  split
  · exact hp
  · exact hq

end Opening

/-- `handleAuth` registers an ordinary player only after a count that leaves room. -/
theorem handleAuth_opening (w : World) (x : Env) (sid : UInt16) (pl : Bytes) (len : UInt16) :
    Opening w (Auth.handleAuth w x sid pl len) := by
  refine .ofExcept _ fun body => ?_
  cases w.parse body with
  | none => exact .quiet (quiet_last (plain_send _ _))
  | some j =>
    refine .ofExcept _ fun username => .ofExcept _ fun password => ?_
    refine .ite (.quiet (authBridge_quiet w x sid password)) (.ite ?_ (.ite ?_ ?_))
    · exact .quiet (quiet_last (plain_send _ _))
    · exact .quiet (quiet_refusal x sid _)
    · refine ⟨.count (fun n hn => ?_) fun n => ?_, fun hb => hb.2 _ rfl⟩
      · show Quiet (if w.cfg.maxPlayers ≤ (n : Int) then _ else _)
        rw [if_pos hn]
        exact quiet_refusal x sid _
      · show Careful w (if w.cfg.maxPlayers ≤ (n : Int) then _ else _)
        split
        · exact .quiet (quiet_refusal x sid _)
        · exact authPlayer_careful w x sid j username

/-- A login counts, to register a player, while no other is between its own count and
    registration. -/
def Serial (m : AuthPool × Pool.Event UInt16) : Prop :=
  ∀ k f, m.2 = .turn k → m.1.threads k = .call .playerCount f → ¬ Quiet (.call .playerCount f) →
    ∀ k', k' ≠ k → ¬ Between (m.1.threads k')

/-- At most one login is between its count and its registration, and there is room for it. -/
structure OneByOne (w : World) (q : AuthPool) : Prop where
  careful : ∀ k, Careful w (q.threads k)
  one : ∀ k k', Between (q.threads k) → Between (q.threads k') → k = k'
  room : ∀ k, Between (q.threads k) → (ordinary q.state : Int) < w.cfg.maxPlayers

variable {q : AuthPool} {k : UInt16}

theorem OneByOne.set (hi : OneByOne w q) {p : Auth Unit} {s : Server} (hp : Careful w p)
    (hone : Between p → ∀ k', k' ≠ k → ¬ Between (q.threads k'))
    (hroom : Between p → (ordinary s : Int) < w.cfg.maxPlayers)
    (hothers : ∀ k', k' ≠ k → Between (q.threads k') → (ordinary s : Int) < w.cfg.maxPlayers) :
    OneByOne w { q.setThread k p with state := s } := by
  have hself := q.setThread_self k p
  have hother : ∀ k', k' ≠ k → (q.setThread k p).threads k' = q.threads k' := fun k' hk => q.setThread_ne hk p
  refine ⟨fun k' => ?_, fun k₁ k₂ h₁ h₂ => ?_, fun k' h => ?_⟩
  · show Careful w ((q.setThread k p).threads k')
    by_cases hk : k' = k
    · rw [hk, hself]
      exact hp
    · rw [hother k' hk]
      exact hi.careful k'
  · change Between ((q.setThread k p).threads k₁) at h₁
    change Between ((q.setThread k p).threads k₂) at h₂
    by_cases hk₁ : k₁ = k
    · by_cases hk₂ : k₂ = k
      · rw [hk₁, hk₂]
      · rw [hk₁, hself] at h₁
        rw [hother k₂ hk₂] at h₂
        exact absurd h₂ (hone h₁ k₂ hk₂)
    · rw [hother k₁ hk₁] at h₁
      by_cases hk₂ : k₂ = k
      · rw [hk₂, hself] at h₂
        exact absurd h₁ (hone h₂ k₁ hk₁)
      · rw [hother k₂ hk₂] at h₂
        exact hi.one k₁ k₂ h₁ h₂
  · change Between ((q.setThread k p).threads k') at h
    by_cases hk : k' = k
    · rw [hk, hself] at h
      exact hroom h
    · rw [hother k' hk] at h
      exact hothers k' hk h

/-- The room there was is there after a section that adds nobody. -/
theorem OneByOne.room_after (hi : OneByOne w q) {o : Section} (ho : o.Plain) {k' : UInt16}
    (hb : Between (q.threads k')) : (ordinary (Section.run w o q.state).2 : Int) < w.cfg.maxPlayers := by
  have hroom := hi.room k' hb
  have hle := section_ordinary (w := w) ho q.state
  omega

/-- The next section of a login that still registers an ordinary player. -/
theorem between_call {o : Section} {f : o.Result → Auth Unit} (h : ¬ Quiet (.call o f)) (ho : o ≠ .playerCount) :
    Between (.call o f) := by
  refine ⟨h, fun k he => ho ?_⟩
  cases he
  rfl

theorem Careful.next {o : Section} {f : o.Result → Auth Unit} (h : Careful w (.call o f)) (r : o.Result) :
    Careful w (f r) := by
  cases h with
  | quiet hq =>
    cases hq with
    | call _ hk => exact .quiet (hk r)
  | count _ hk => exact hk r
  | register hk => exact .quiet (hk r)
  | later _ _ hk => exact hk r

/-- Where another login is between its count and its registration, there is room after
    this one's section. -/
theorem OneByOne.others (hi : OneByOne w q) {o : Section} {f : o.Result → Auth Unit} (hk : q.threads k = .call o f)
    {k' : UInt16} (hne : k' ≠ k) (hb : Between (q.threads k')) :
    (ordinary (Section.run w o q.state).2 : Int) < w.cfg.maxPlayers := by
  by_cases ho : o.Plain
  · exact hi.room_after ho hb
  · have hmine : Between (q.threads k) := by
      rw [hk]
      refine between_call (fun hq => ?_) ?_
      · cases hq with
        | call hplain _ => exact ho hplain
      · rintro rfl
        exact ho plain_playerCount
    exact absurd (hi.one k' k hb hmine) hne

theorem OneByOne.turn (hi : OneByOne w q) (hs : Serial (q, .turn k)) : OneByOne w (q.turn (Section.run w) k) := by
  cases hk : q.threads k with
  | pure a =>
    rw [Pool.turn_idle (by rw [hk]; exact fun _ _ hc => by cases hc)]
    exact hi
  | stop e =>
    rw [Pool.turn_idle (by rw [hk]; exact fun _ _ hc => by cases hc)]
    exact hi
  | call o f =>
    have hcare : Careful w (.call o f) := by
      rw [← hk]
      exact hi.careful k
    rcases hr : Section.run w o q.state with ⟨e | r, s⟩
    · have hothers := fun k' (hne : k' ≠ k) hb => hi.others hk hne hb
      rw [hr] at hothers
      rw [Pool.turn_error hk hr]
      exact hi.set (.quiet (.stop e)) (fun hb => absurd (.stop e) hb.1) (fun hb => absurd (.stop e) hb.1) hothers
    · have hothers := fun k' (hne : k' ≠ k) hb => hi.others hk hne hb
      rw [hr] at hothers
      rw [Pool.turn_ok hk hr]
      have hnot : Between (f r) → ¬ Quiet (.call o f) := by
        intro hb hq
        cases hq with
        | call _ hquiet => exact hb.1 (hquiet r)
      refine hi.set (hcare.next r) (fun hb k' hne => ?_) (fun hb => ?_) hothers
      · by_cases ho : o = .playerCount
        · subst ho
          exact hs k f rfl hk (hnot hb) k' hne
        · intro hb'
          refine hne (hi.one k' k hb' ?_)
          rw [hk]
          exact between_call (hnot hb) ho
      · cases hcare with
        | quiet hq => exact absurd hq (hnot hb)
        | count hfull _ =>
          cases hr
          have hroom : (q.state.players.keys.length : Int) < w.cfg.maxPlayers :=
            lt_of_not_ge fun hge => hb.1 (hfull _ hge)
          have hle := Table.countValues_le isOrdinary q.state.players
          unfold ordinary
          omega
        | register hquiet => exact absurd (hquiet r) hb.1
        | later hplain ho _ =>
          have hmine : Between (q.threads k) := by
            rw [hk]
            exact between_call (hnot hb) ho
          have hroom := hi.room_after hplain hmine
          rw [hr] at hroom
          exact hroom

theorem OneByOne.step {e : Pool.Event UInt16} {q' : AuthPool} (hi : OneByOne w q) (hs : Serial (q, e))
    (h : Pool.Step (Section.run w) (Starts w) (FromOutside w) q e q') : OneByOne w q' := by
  cases h with
  | turn k => exact hi.turn hs
  | @start k p hp _ =>
    obtain ⟨x, pl, len, rfl⟩ := hp
    obtain ⟨hcare, hnot⟩ := handleAuth_opening w x k pl len
    exact hi.set hcare (fun hb => absurd hb hnot) (fun hb => absurd hb hnot) fun k' _ hb => hi.room k' hb
  | @outside s ho =>
    refine ⟨hi.careful, hi.one, fun k hb => ?_⟩
    have hroom := hi.room k hb
    have hle := outside_ordinary ho
    exact lt_of_le_of_lt (by exact_mod_cast hle) hroom

/-- Then every registration finds room. -/
theorem OneByOne.roomy (hi : OneByOne w q) (e : Pool.Event UInt16) : Pool.Meets (Roomy w) (q, e) := by
  intro k o f _ hk
  cases o with
  | register sid pid p =>
    intro hp
    refine .inr (hi.room k ?_)
    have hk' : q.threads k = .call (.register sid pid p) f := hk
    rw [hk']
    refine between_call (fun hq => ?_) fun h => by cases h
    cases hq with
    | call hplain _ =>
      rw [hplain sid pid p rfl] at hp
      cases hp
  | _ => trivial

/-- One login after the other, each registration finds room. -/
theorem serial_roomy {h : List (AuthPool × Pool.Event UInt16)} (hr : AuthRun w h q) (hs : ∀ m ∈ h, Serial m) :
    ∀ m ∈ h, Pool.Meets (Roomy w) m := by
  suffices hboth : OneByOne w q ∧ ∀ m ∈ h, Pool.Meets (Roomy w) m from hboth.2
  induction hr with
  | init =>
    have hidle : ¬ Between (.pure ()) := fun hb => hb.1 (.pure ())
    exact ⟨⟨fun _ => .quiet (.pure ()), fun _ _ hb => absurd hb hidle, fun _ hb => absurd hb hidle⟩, fun m hm => by cases hm⟩
  | step _ hstep ih =>
    obtain ⟨hlast, hrest⟩ := List.forall_mem_cons.mp hs
    obtain ⟨hi, hmet⟩ := ih hrest
    exact ⟨hi.step hlast hstep, List.forall_mem_cons.mpr ⟨hi.roomy _, hmet⟩⟩

/-! ## Two logins for one slot -/

namespace Rush

/-- A server with one slot. -/
def world : World := { Sample.world with cfg := { Sample.world.cfg with maxPlayers := 1 } }

def first : Server := after world Server.init Env.quiet (.accept "10.0.0.1")

def second : Server := after world first Env.quiet (.accept "10.0.0.2")

/-- The request of a user on a session. -/
def request (sid : UInt16) (name : String) : Auth Unit :=
  let body := utf8 (userJson name).text
  Auth.handleAuth world Env.quiet sid body (UInt16.ofNat body.length)

def opened : AuthPool := ⟨second, idle.threads⟩

def asked : AuthPool := opened.setThread 1 (request 1 "ann")

/-- `ann` and `bob` have both sent theirs. -/
def begun : AuthPool := asked.setThread 2 (request 2 "bob")

/-- Both count, then each takes an id, reads the address and registers. -/
def schedule : List UInt16 := [1, 2, 1, 1, 1, 2, 2, 2]

def history : List (AuthPool × Pool.Event UInt16) :=
  begun.trail (Section.run world) schedule
    [(asked, .start 2), (opened, .start 1), (⟨first, idle.threads⟩, .outside), (idle, .outside)]

end Rush

end NovaMP.GameServer
