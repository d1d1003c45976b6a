/-
  NovaMP.Client.Shutdown — what `disconnect` leaves of a BeamMP client's threads
  (`BeamMPClient::disconnect` and the destructor in
  `client/src/compat/beammp_client.cpp`).

  `disconnect` joins the threads of `m_threads` and clears it, but returns at once if
  `m_connected` is not set. The reader clears that flag on a kick, on a failed write and
  at its end, so after these the handles stay, and the destructor of `m_threads` ends the
  process.

  - `Kept`: a thread that was started is in `m_threads` or has been joined.
  - `OwnerAt`: how far a `disconnect` has come.
  - `released_iff`: in any run, no thread is left where a `disconnect` returns exactly if
    each finds the flag set or `m_threads` empty.
  - `closed_then_disconnect`: the server closes before the owner disconnects.
-/

import NovaMP.Client.Lifetime

namespace NovaMP.BeamMP

open Lib

/-- `m_threads` is empty and every thread that was started has been joined. -/
def Released (s : Shared) : Prop := s.threads = [] ∧ ∀ t, t < s.born.length → t ∈ s.joined

/-- The next step is the `exchange` of a `disconnect`. -/
def Exchanges (q : Threads) (e : Event) : Prop :=
  (∃ o, e = .turn .owner o) ∧ (∃ is, q.script .owner = .exchange :: is) ∧ q.state.aborted = false

/-! ## The owner -/

/-- Only the owner runs these. -/
def Instr.owners : Instr → Bool
  | .exchange | .shutdown | .close | .stop | .join _ | .clear | .returned | .connectTest _ | .setup _ | .resolve | .asioConnect
  | .setConnected | .spawn _ => true
  | _ => false

/-- A part of `disconnect`. -/
def Instr.disconnects : Instr → Bool
  | .exchange | .shutdown | .close | .stop | .join _ | .clear | .returned => true
  | _ => false

def Plain (is : List Instr) : Prop := ∀ i ∈ is, i.disconnects = false

/-- The end of a `disconnect` and what the owner does then. -/
def tail (cb : Callbacks) (rest : List Instr) : List Instr := calls cb (.disconnect (utf8 "disconnected")) ++ .returned :: rest

/-- The script of the owner; `rest` is what comes after a `disconnect`. -/
inductive OwnerAt (cb : Callbacks) (s : Shared) : List Instr → Prop
  | plain {is : List Instr} : Plain is → OwnerAt cb s is
  | exchange {rest : List Instr} : Plain rest → OwnerAt cb s (.exchange :: rest)
  | shutdown {rest : List Instr} : Plain rest → OwnerAt cb s (.shutdown :: .close :: .stop :: .join 0 :: .clear :: tail cb rest)
  | close {rest : List Instr} : Plain rest → OwnerAt cb s (.close :: .stop :: .join 0 :: .clear :: tail cb rest)
  | stop {rest : List Instr} : Plain rest → OwnerAt cb s (.stop :: .join 0 :: .clear :: tail cb rest)
  | join {rest : List Instr} {i : Nat} : Plain rest → (∀ t ∈ s.threads.take i, t ∈ s.joined) →
      OwnerAt cb s (.join i :: .clear :: tail cb rest)
  | clear {rest : List Instr} : Plain rest → (∀ t ∈ s.threads, t ∈ s.joined) → OwnerAt cb s (.clear :: tail cb rest)
  | calling {rest : List Instr} {c : Callback} : Plain rest → Released s → OwnerAt cb s (.act (.call c) :: .returned :: rest)
  | returned {rest : List Instr} : Plain rest → Released s → OwnerAt cb s (.returned :: rest)

/-- A thread that was started is in `m_threads` or has been joined. -/
def Kept (s : Shared) : Prop := ∀ t, t < s.born.length → t ∈ s.threads ∨ t ∈ s.joined

structure Inv (cb : Callbacks) (q : Threads) : Prop where
  owner : OwnerAt cb q.state (q.script .owner)
  others : ∀ n, ∀ i ∈ q.script (.spawned n), i.owners = false
  kept : Kept q.state

variable {h : Host} {cb : Callbacks} {k : Thread} {i : Instr} {o : Result} {s s' : Shared} {push : List Instr}

/-- The handles are as they were. -/
structure Same (s s' : Shared) : Prop where
  born : s'.born = s.born
  threads : s'.threads = s.threads
  joined : s'.joined = s.joined

theorem Same.released (hs : Same s s') (hr : Released s) : Released s' := by
  rw [Released, hs.born, hs.threads, hs.joined]
  exact hr

theorem Same.kept (hs : Same s s') (hk : Kept s) : Kept s' := by
  rw [Kept, hs.born, hs.threads, hs.joined]
  exact hk

/-- The owner stays where it is while the handles stay. -/
theorem OwnerAt.same {is : List Instr} (hs : Same s s') (ho : OwnerAt cb s is) : OwnerAt cb s' is := by
  cases ho with
  | plain hp => exact .plain hp
  | exchange hp => exact .exchange hp
  | shutdown hp => exact .shutdown hp
  | close hp => exact .close hp
  | stop hp => exact .stop hp
  | join hp hj => exact .join hp (by rw [hs.threads, hs.joined]; exact hj)
  | clear hp hj => exact .clear hp (by rw [hs.threads, hs.joined]; exact hj)
  | calling hp hr => exact .calling hp (hs.released hr)
  | returned hp hr => exact .returned hp (hs.released hr)

/-! ## Steps that are no part of `disconnect` -/

/-- Neither the owner's alone nor a part of `disconnect`. -/
def Common (is : List Instr) : Prop := ∀ i ∈ is, i.owners = false

theorem disconnects_of_owners (hi : i.owners = false) : i.disconnects = false := by
  cases i <;> first | rfl | cases hi

theorem Common.plain {is : List Instr} (hc : Common is) : Plain is := fun i hi => disconnects_of_owners (hc i hi)

theorem Common.append {is is' : List Instr} (hc : Common is) (hc' : Common is') : Common (is ++ is') :=
  fun i hi => (List.mem_append.mp hi).elim (hc i) (hc' i)

theorem common_acts (as : List Action) : Common (as.map .act) := by
  intro i hi
  obtain ⟨a, -, rfl⟩ := List.mem_map.mp hi
  rfl

theorem received_common (f : Packet) (s : Shared) : Same s (received f s).2 ∧ Common (received f s).1 := by
  unfold received
  dsimp only
  split
  · exact ⟨⟨rfl, rfl, rfl⟩, by simp [Common, Instr.owners]⟩
  split
  · exact ⟨⟨rfl, rfl, rfl⟩, by split <;> simp [Common, Instr.owners]⟩
  · exact ⟨⟨rfl, rfl, rfl⟩, by simp [Common, Instr.owners]⟩

theorem doAction_common (k : Thread) (a : Action) (s : Shared) : Same s (doAction k a s).2 ∧ Common (doAction k a s).1 := by
  cases a with
  | setMapName _ | setPlayerId _ | disconnected | call _ => exact ⟨⟨rfl, rfl, rfl⟩, by simp [doAction, Common]⟩
  | send code data =>
    refine ⟨⟨rfl, rfl, rfl⟩, ?_⟩
    show Common (if s.client.connected then [Instr.write _] else [])
    split <;> simp [Common, Instr.owners]

/-- Other instructions than the owner's leave the handles alone and bring in none of the
    owner's. -/
theorem step_common (hi : i.owners = false) (hr : step h cb k i o s = some (push, s')) : Same s s' ∧ Common push := by
  unfold step at hr
  cases i with
  | loop =>
    cases hr
    exact ⟨⟨rfl, rfl, rfl⟩, by split <;> simp [Common, Instr.owners]⟩
  | read =>
    dsimp only at hr
    split at hr
    · split at hr
      · rename_i f _
        have hcommon := received_common f s
        rw [Option.some.inj hr] at hcommon
        exact hcommon
      · cases hr
    · cases hr
      exact ⟨⟨rfl, rfl, rfl⟩, by simp [Common]⟩
    · cases hr
  | handle p =>
    dsimp only at hr
    split at hr <;> cases hr
    · exact ⟨⟨rfl, rfl, rfl⟩, common_acts _⟩
    · exact ⟨⟨rfl, rfl, rfl⟩, by simp [Common]⟩
  | act a =>
    have hcommon := doAction_common k a s
    rw [Option.some.inj hr] at hcommon
    exact hcommon
  | write _ =>
    dsimp only at hr
    split at hr <;> cases hr <;> exact ⟨⟨rfl, rfl, rfl⟩, by simp [Common, Instr.owners]⟩
  | clearSplit | run =>
    cases hr
    exact ⟨⟨rfl, rfl, rfl⟩, by simp [Common]⟩
  | finish =>
    dsimp only at hr
    split at hr <;> cases hr
    exact ⟨⟨rfl, rfl, rfl⟩, by simp [Common]⟩
  | exchange | shutdown | close | stop | join _ | clear | returned | connectTest _ | setup _ | resolve | asioConnect
  | setConnected | spawn _ => cases hi

/-- The owner's way to a connection: `Plain`, or the `disconnect` at its beginning. -/
theorem connect_ownerAt {rest : List Instr} (hrest : Plain rest) (hi : i.owners = true) (hplain : i.disconnects = false)
    (hr : step h cb k i o s = some (push, s')) : OwnerAt cb s' (push ++ rest) := by
  have happend : ∀ is, Plain is → Plain (is ++ rest) := fun is his i hi => (List.mem_append.mp hi).elim (his i) (hrest i)
  unfold step at hr
  cases i with
  | connectTest key =>
    cases hr
    split
    · exact .exchange (happend [.setup key] (by simp [Plain, Instr.disconnects]))
    · exact .plain (happend [.setup key] (by simp [Plain, Instr.disconnects]))
  | setup _ | setConnected | spawn _ =>
    cases hr
    exact .plain (happend _ (by simp [Plain, Instr.disconnects]))
  | resolve | asioConnect =>
    dsimp only at hr
    split at hr <;> cases hr
    · exact .plain (happend _ (by simp [Plain, Instr.disconnects]))
    · exact .plain (happend _ (common_acts _).plain)
  | exchange | shutdown | close | stop | join _ | clear | returned => cases hplain
  | loop | read | handle _ | clearSplit | act _ | write _ | run | finish => cases hi

/-- A thread that is started is put into `m_threads`. -/
theorem connect_kept (hk : Kept s) (hi : i.owners = true) (hplain : i.disconnects = false)
    (hr : step h cb k i o s = some (push, s')) : Kept s' := by
  unfold step at hr
  cases i with
  | connectTest _ | setup _ | setConnected =>
    cases hr
    exact hk
  | resolve | asioConnect =>
    dsimp only at hr
    split at hr <;> cases hr <;> exact hk
  | spawn job =>
    cases hr
    intro t ht
    simp only [List.length_append, List.length_singleton] at ht
    rcases Nat.lt_succ_iff_lt_or_eq.mp ht with ht | rfl
    · exact (hk t ht).imp (fun hm => List.mem_append_left _ hm) id
    · exact .inl (List.mem_append_right _ (List.mem_singleton_self _))
  | exchange | shutdown | close | stop | join _ | clear | returned => cases hplain
  | loop | read | handle _ | clearSplit | act _ | write _ | run | finish => cases hi

/-! ## The steps of `disconnect` -/

theorem tail_ownerAt {rest : List Instr} (hp : Plain rest) (hr : Released s) : OwnerAt cb s (tail cb rest) := by
  rw [tail, calls]
  rcases callIf_cases cb (.disconnect (utf8 "disconnected")) with hcall | hcall <;> rw [hcall]
  · exact .returned hp hr
  · exact .calling hp hr

/-- A step of the owner; an `exchange` finds the flag set or no threads. -/
theorem owner_step {is : List Instr} (ho : OwnerAt cb s (i :: is)) (hk : Kept s)
    (hok : i = .exchange → s.client.connected = true ∨ s.threads = [])
    (hr : step h cb .owner i o s = some (push, s')) : OwnerAt cb s' (push ++ is) ∧ Kept s' := by
  cases ho with
  | plain hp =>
    obtain ⟨hi, his⟩ := List.forall_mem_cons.mp hp
    cases hown : i.owners with
    | true => exact ⟨connect_ownerAt his hown hi hr, connect_kept hk hown hi hr⟩
    | false =>
      obtain ⟨hs, hpush⟩ := step_common hown hr
      refine ⟨.plain fun i' hi' => ?_, hs.kept hk⟩
      exact (List.mem_append.mp hi').elim (hpush.plain i') (his i')
  | exchange hp =>
    have hr : some (if s.client.connected then disconnecting cb else [.returned],
        (s.setConnected false).mark (.exchanged .owner s.client.connected)) = some (push, s') := hr
    cases hr
    refine ⟨?_, hk⟩
    rcases hok rfl with hc | hempty
    · rw [if_pos hc, disconnecting, List.append_assoc]
      simp only [List.append_assoc]
      exact .shutdown hp
    · cases hc : s.client.connected with
      | true =>
        rw [if_pos rfl, disconnecting]
        simp only [List.append_assoc]
        exact .shutdown hp
      | false =>
        rw [if_neg Bool.false_ne_true]
        refine .returned hp ⟨hempty, fun t ht => ?_⟩
        rcases hk t ht with hm | hm
        · rw [hempty] at hm
          cases hm
        · exact hm
  | shutdown hp =>
    cases hr
    exact ⟨.close hp, hk⟩
  | close hp =>
    cases hr
    exact ⟨.stop hp, hk⟩
  | stop hp =>
    cases hr
    exact ⟨.join hp (by simp), hk⟩
  | @join rest n hp hj =>
    unfold step at hr
    dsimp only at hr
    split at hr
    · rename_i t ht
      split at hr <;> cases hr
      refine ⟨.join hp ?_, fun t' ht' => (hk t' ht').imp id fun hm => List.mem_append_left _ hm⟩
      intro t' ht'
      rw [List.take_add_one, ht] at ht'
      rcases List.mem_append.mp ht' with hm | hm
      · exact List.mem_append_left _ (hj t' hm)
      · exact List.mem_append_right _ hm
    · rename_i hnone
      cases hr
      rw [List.take_of_length_le (List.getElem?_eq_none_iff.mp hnone)] at hj
      exact ⟨.clear hp hj, hk⟩
  | clear hp hj =>
    cases hr
    have hall : ∀ t, t < s.born.length → t ∈ s.joined := fun t ht => (hk t ht).elim (hj t) id
    exact ⟨tail_ownerAt hp ⟨rfl, hall⟩, fun t ht => .inr (hall t ht)⟩
  | calling hp hrel =>
    cases hr
    exact ⟨.returned hp hrel, hk⟩
  | returned hp hrel =>
    cases hr
    exact ⟨.plain hp, hk⟩

/-! ## Runs -/

theorem OwnerAt.released {rest : List Instr} (ho : OwnerAt cb s (.returned :: rest)) : Released s := by
  cases ho with
  | plain hp => cases hp .returned List.mem_cons_self
  | returned _ hr => exact hr

theorem Inv.owner_put {q : Threads} {is : List Instr} (hq : Inv cb q) (ho : OwnerAt cb s is) (hk : Kept s) :
    Inv cb (q.put .owner is s) := by
  refine ⟨?_, fun n => ?_, hk⟩
  · rw [Crew.put_self]
    exact ho
  · rw [Crew.put_ne q (by simp)]
    exact hq.others n

theorem Inv.spawned_put {q : Threads} {n : Nat} {is : List Instr} (hq : Inv cb q) (hs : Same q.state s) (hc : Common is) :
    Inv cb (q.put (.spawned n) is s) := by
  refine ⟨?_, fun n' => ?_, hs.kept hq.kept⟩
  · rw [Crew.put_ne q (by simp)]
    exact hq.owner.same hs
  · by_cases hne : Thread.spawned n' = .spawned n
    · rw [hne, Crew.put_self]
      exact hc
    · rw [Crew.put_ne q hne]
      exact hq.others n'

theorem Inv.start {q : Threads} {r : Request} {is : List Instr} (hq : Inv cb q) (hr : start cb k r q.state = some (is, s)) :
    Inv cb (q.put k is s) := by
  unfold BeamMP.start at hr
  split at hr
  · cases hr
  split at hr
  · cases hr
    exact hq.owner_put (.plain (by simp [Plain, Instr.disconnects])) hq.kept
  · cases hr
    exact hq.owner_put (.exchange (by simp [Plain])) hq.kept
  · cases hr
    exact hq.owner_put (.plain (by simp [Plain, Instr.disconnects])) hq.kept
  · split at hr
    · cases hr
    split at hr
    · cases hr
      have hfirst : Common [.loop, .act .disconnected] := by simp [Common, Instr.owners]
      have hlast : Common [.finish] := by simp [Common, Instr.owners]
      exact hq.spawned_put ⟨rfl, rfl, rfl⟩ ((hfirst.append (common_acts _)).append hlast)
    · cases hr
      exact hq.spawned_put ⟨rfl, rfl, rfl⟩ (by simp [Common, Instr.owners])
    · cases hr
  · cases hr

theorem Inv.turn {q : Threads} {is : List Instr} (hq : Inv cb q) (hk : q.script k = i :: is)
    (hok : k = .owner → i = .exchange → q.state.client.connected = true ∨ q.state.threads = [])
    (hr : step h cb k i o q.state = some (push, s)) : Inv cb (q.put k (push ++ is) s) := by
  cases k with
  | owner =>
    have ho := hq.owner
    rw [hk] at ho
    obtain ⟨hnext, hkept⟩ := owner_step ho hq.kept (hok rfl) hr
    exact hq.owner_put hnext hkept
  | spawned n =>
    have hothers := hq.others n
    rw [hk] at hothers
    obtain ⟨hi, his⟩ := List.forall_mem_cons.mp hothers
    obtain ⟨hs, hpush⟩ := step_common hi hr
    exact hq.spawned_put hs (Common.append hpush his)

/-- A `disconnect` finds the flag set or has no threads to join. -/
def Finds (q : Threads) (e : Event) : Prop := Exchanges q e → q.state.client.connected = true ∨ q.state.threads = []

theorem inv_run {es : List Event} (hf : ∀ es₁ e, es₁ ++ [e] <+: es → Finds (after h cb es₁) e) : Inv cb (after h cb es) := by
  have h0 : Inv cb Threads.init :=
    ⟨.plain (by simp [Plain, Threads.init]), by simp [Threads.init], by simp [Kept, Threads.init, Shared.init]⟩
  refine Crew.run_keeps_of (R := rules h cb) (C := Finds) h0 ?_ ?_ hf
  · intro q k r is s hq _ hk hr
    exact hq.start hr
  · intro q k c i is push s hq hfound hk hr
    obtain ⟨hrunning, hstep⟩ := act_eq_some hr
    refine hq.turn hk ?_ hstep
    rintro rfl rfl
    exact hfound ⟨⟨c, rfl⟩, ⟨is, hk⟩, hrunning⟩

/-- Wherever a `disconnect` returns no thread is left, exactly if each found the flag set
    or `m_threads` empty. -/
theorem released_iff (h : Host) (cb : Callbacks) (es : List Event) :
    (∀ es₁, es₁ <+: es → ∀ rest, (after h cb es₁).script .owner = .returned :: rest → Released (after h cb es₁).state) ↔
      ∀ es₁ e, es₁ ++ [e] <+: es → Exchanges (after h cb es₁) e →
        (after h cb es₁).state.client.connected = true ∨ (after h cb es₁).state.threads = [] := by
  constructor
  · rintro hall es₁ e hes ⟨⟨o, rfl⟩, ⟨is, hk⟩, hrunning⟩
    cases hc : (after h cb es₁).state.client.connected with
    | true => exact .inl rfl
    | false =>
      -- This one returns at once, and the threads are as they were.
      refine .inr ?_
      have hnext : after h cb (es₁ ++ [.turn .owner o]) = (after h cb es₁).put .owner (.returned :: is)
          (((after h cb es₁).state.setConnected false).mark (.exchanged .owner false)) := by
        have hact : (rules h cb).act .owner .exchange o (after h cb es₁).state =
            some ([.returned], ((after h cb es₁).state.setConnected false).mark (.exchanged .owner false)) := by
          show act h cb .owner .exchange o (after h cb es₁).state = _
          rw [act, hrunning, if_neg Bool.false_ne_true, step, hc, if_neg Bool.false_ne_true]
        rw [after, Crew.run_concat, ← after, Crew.next_turn hk hact]
        rfl
      have hscript : (after h cb (es₁ ++ [.turn .owner o])).script .owner = .returned :: is := by
        rw [hnext, Crew.put_self]
      have hempty := (hall _ hes is hscript).1
      rw [hnext] at hempty
      exact hempty
  · intro hf es₁ hes rest hk
    have ho := (inv_run fun es₂ e hle => hf es₂ e (hle.trans hes)).owner
    rw [hk] at ho
    exact ho.released

/-- The server closes the connection, and then the owner disconnects. -/
def Endings.closedFirst : List Event := Endings.closed ++ [.start .owner .disconnect, .turn .owner .ok]

/-- `disconnect` returns at once and joins nothing. -/
theorem closed_then_disconnect : ¬ ∀ (h : Host) (cb : Callbacks) (es : List Event) (rest : List Instr),
    (after h cb es).script .owner = .returned :: rest → Released (after h cb es).state := by
  intro hall
  have hreleased := hall Sample.host Sample.callbacks Endings.closedFirst [] rfl
  have hleft : (after Sample.host Sample.callbacks Endings.closedFirst).state.threads = [0, 1] := rfl
  exact absurd (hleft.symm.trans hreleased.1) (by decide)

end NovaMP.BeamMP
