/-
  NovaMP.Sync.Freshness — how long an update waits for its broadcast
  (`GameServer::vehicleSyncLoop` and `VehicleSync::broadcastAll`).

  The loop makes a pass over the vector, sleeps until the next is due, and so on
  (`Lib.Pacing`), while the io threads make calls at any time (`Sync.Passes`). A
  timeline says what happens in each microsecond.

  - `Turn`: what a step of the sync thread does.
  - `Due`: a pair's entry holds a state that was sent last, or is still to be sent. Only
    a call about the pair ends this (`due_step`).
  - `sent_of_pass`: a whole pass sends what is due.
  - `fresh_within`: where passes and delays fit the interval, and have made up for those
    that did not, an update is what others were told of the pair two intervals later,
    unless it came while a packet of the pair was under way. No entry may be added or
    erased during a pass, of whatever pair (`Still`): either may move the others under the
    loop.
-/

import NovaMP.Sync.Passes
import NovaMP.Lib.Pacing
import NovaMP.Server.Rates

namespace NovaMP

open Lib

namespace VehicleSync.Passes

/-! ## The steps of the sync thread -/

inductive Turn (c : Passes) : Passes → Prop
  | begins : c.pass = none → Turn c { c with pass := some ⟨0, c.entries.length, .test⟩ }
  | ends {i n : Nat} {phase : Phase} : c.pass = some ⟨i, n, phase⟩ → n ≤ i ∨ c.entries[i]? = none →
      Turn c { c with pass := none }
  | dirty {i n : Nat} {e : SyncEntry} : c.pass = some ⟨i, n, .test⟩ → i < n → c.entries[i]? = some e → e.dirty = true →
      Turn c { c with pass := some ⟨i, n, .build⟩ }
  | clean {i n : Nat} {e : SyncEntry} : c.pass = some ⟨i, n, .test⟩ → i < n → c.entries[i]? = some e → e.dirty = false →
      Turn c { c with pass := some ⟨i + 1, n, .test⟩ }
  | build {i n : Nat} {e : SyncEntry} : c.pass = some ⟨i, n, .build⟩ → i < n → c.entries[i]? = some e →
      Turn c { c with
        entries := c.entries.set i { e with seq := e.seq + 1 }
        pass := some ⟨i, n, .send ⟨Packet.buildVehicleUpdate e.ownerId (e.seq + 1) e.state, e.ownerId⟩⟩ }
  | send {i n : Nat} {b : Broadcast} {e : SyncEntry} : c.pass = some ⟨i, n, .send b⟩ → i < n → c.entries[i]? = some e →
      Turn c { c with pass := some ⟨i, n, .clear b⟩, log := b :: c.log }
  | clear {i n : Nat} {b : Broadcast} {e : SyncEntry} : c.pass = some ⟨i, n, .clear b⟩ → i < n → c.entries[i]? = some e →
      Turn c { c with entries := c.entries.set i { e with dirty := false }, pass := some ⟨i + 1, n, .test⟩ }

theorem sync_turn (c : Passes) : Turn c c.sync := by
  obtain ⟨es, pass, log⟩ := c
  cases pass with
  | none => exact .begins rfl
  | some pass =>
    obtain ⟨i, n, phase⟩ := pass
    rcases range_cases es i n with hend | ⟨e, hi, he⟩
    · rw [sync_end hend]
      exact .ends rfl hend
    · cases phase with
      | test =>
        cases hd : e.dirty with
        | true =>
          rw [sync_dirty hi he hd]
          exact .dirty rfl hi he hd
        | false =>
          rw [sync_clean hi he hd]
          exact .clean rfl hi he hd
      | build =>
        rw [sync_build hi he]
        exact .build rfl hi he
      | send b =>
        rw [sync_send hi he]
        exact .send rfl hi he
      | clear b =>
        rw [sync_clear hi he]
        exact .clear rfl hi he

/-! ## Calls in a row -/

def after (c : Passes) (es : List Event) : Passes := es.foldl step c

/-- During a pass no entry is added to the vector, and none is erased. -/
def Still (c : Passes) : Event → Prop
  | .sync => True
  | e => c.pass = none ∨ (c.step e).entries.map key = c.entries.map key

/-- An erasure that leaves the pairs leaves everything. -/
theorem filter_still {c : Passes} {f : SyncEntry → Bool} (h : (c.entries.filter f).map key = c.entries.map key) :
    { c with entries := c.entries.filter f } = c := by
  have hlen : (c.entries.filter f).length = c.entries.length := by
    rw [← List.length_map key, h, List.length_map]
  rw [List.filter_eq_self.mpr (List.length_filter_eq_length_iff.mp hlen)]

theorem step_erases_nothing {c : Passes} {e : Event} (h : Still c e) (hp : c.pass ≠ none) (hsync : e ≠ .sync)
    (hupdate : ∀ p st, e ≠ .onVehicleUpdate p st) : c.step e = c := by
  cases e with
  | sync => exact absurd rfl hsync
  | onVehicleUpdate p st => exact absurd rfl (hupdate p st)
  | onVehicleDelete _ _ | onPlayerDisconnect _ => exact filter_still (h.resolve_left hp)

def Allowed : Passes → List Event → Prop
  | _, [] => True
  | c, e :: es => Still c e ∧ Allowed (c.step e) es

@[simp] theorem after_nil (c : Passes) : c.after [] = c := rfl

@[simp] theorem after_cons (c : Passes) (e : Event) (es : List Event) : c.after (e :: es) = (c.step e).after es := rfl

theorem after_append (c : Passes) (es es' : List Event) : c.after (es ++ es') = (c.after es).after es' :=
  List.foldl_append

theorem allowed_append {c : Passes} {es es' : List Event} :
    Allowed c (es ++ es') ↔ Allowed c es ∧ Allowed (c.after es) es' := by
  induction es generalizing c with
  | nil => simp [Allowed]
  | cons e es ih => simp [Allowed, ih, and_assoc]

/-- The call is about the pair: it updates it, or drops it. -/
def Concerns (k : Key) : Event → Prop
  | .onVehicleUpdate p st => k = (p, st.vehicleId)
  | .onVehicleDelete p v => k = (p, v)
  | .onPlayerDisconnect p => k.1 = p
  | .sync => False

/-! ## What holds of the vector and the packet under way -/

structure Sound (c : Passes) : Prop where
  keyed : Keyed c.entries
  built : ∀ i n b, c.pass = some ⟨i, n, .send b⟩ ∨ c.pass = some ⟨i, n, .clear b⟩ →
    ∃ e st, c.entries[i]? = some e ∧ carries b = some (key e, st)

theorem sound_init : Sound system.init := ⟨List.nodup_nil (α := Key), fun _ _ _ h => by rcases h with h | h <;> cases h⟩

theorem Sound.sync {c c' : Passes} (h : Sound c) (ht : Turn c c') : Sound c' := by
  cases ht with
  | begins _ | ends _ _ | dirty _ _ _ _ | clean _ _ _ _ =>
    exact ⟨h.keyed, fun _ _ _ hp => by rcases hp with hp | hp <;> cases hp⟩
  | clear _ _ he => exact ⟨keyed_set h.keyed he rfl, fun _ _ _ hp => by rcases hp with hp | hp <;> cases hp⟩
  | build _ _ he =>
    refine ⟨keyed_set h.keyed he rfl, ?_⟩
    rintro j m b (hp | hp) <;> cases hp
    exact ⟨_, _, get_set he _, carries_built _ _ _⟩
  | @send i n b _ hp _ _ =>
    refine ⟨h.keyed, ?_⟩
    rintro j m b' (hp' | hp') <;> cases hp'
    exact h.built i n b (.inl hp)

theorem Sound.filter {c : Passes} (h : Sound c) (hp : c.pass = none) (f : SyncEntry → Bool) :
    Sound { c with entries := c.entries.filter f } :=
  ⟨keyed_filter h.keyed f, fun _ _ _ hb => by simp [hp] at hb⟩

theorem Sound.erased {c : Passes} (h : Sound c) {f : SyncEntry → Bool}
    (hl : c.pass = none ∨ (c.entries.filter f).map key = c.entries.map key) : Sound { c with entries := c.entries.filter f } := by
  rcases hl with hp | hsame
  · exact h.filter hp f
  · rw [filter_still hsame]
    exact h

theorem sound_step {c : Passes} (h : Sound c) {e : Event} (hl : Still c e) : Sound (c.step e) := by
  cases e with
  | onVehicleDelete p v => exact h.erased hl
  | onPlayerDisconnect p => exact h.erased hl
  | sync => exact h.sync (sync_turn c)
  | onVehicleUpdate p st =>
    refine ⟨keyed_onVehicleUpdate h.keyed p st, fun i n b hp => ?_⟩
    obtain ⟨e, st', he, hc⟩ := h.built i n b hp
    obtain ⟨e', he', hk⟩ := onVehicleUpdate_get he p st
    exact ⟨e', st', he', by rw [hk]; exact hc⟩

theorem sound_after {c : Passes} (h : Sound c) {es : List Event} (hl : Allowed c es) : Sound (c.after es) := by
  induction es generalizing c with
  | nil => exact h
  | cons e es ih => exact ih (sound_step h hl.1) hl.2

/-! ## What is due -/

/-- The entry of `k` holds `st`; a packet of it that is under way carries `st`; and `st` was
    sent last, unless it is still to be sent. -/
structure Due (c : Passes) (k : Key) (st : VehicleState) (i : Nat) (e : SyncEntry) : Prop where
  get : c.entries[i]? = some e
  pair : key e = k
  state : e.state = st
  built : ∀ n b, c.pass = some ⟨i, n, .send b⟩ → carries b = some (k, st)
  sent : lastSent c.log k ≠ some st → e.dirty = true ∧ ∀ n b, c.pass ≠ some ⟨i, n, .clear b⟩

variable {c c' : Passes} {k : Key} {st : VehicleState} {i : Nat} {e : SyncEntry}

theorem Due.moved (h : Due c k st i e) {pass : Option Pass}
    (hp : ∀ j n b, pass ≠ some ⟨j, n, .send b⟩ ∧ pass ≠ some ⟨j, n, .clear b⟩) : Due { c with pass := pass } k st i e :=
  ⟨h.get, h.pair, h.state, fun n b hb => absurd hb (hp i n b).1, fun hs => ⟨(h.sent hs).1, fun n b => (hp i n b).2⟩⟩

/-- A step of the sync thread sends `st` for `k`, or nothing for `k`. -/
theorem Due.sync (hs : Sound c) (h : Due c k st i e) (ht : Turn c c') : ∃ e', Due c' k st i e' := by
  cases ht with
  | begins _ => exact ⟨e, h.moved fun _ _ _ => by simp⟩
  | ends _ _ => exact ⟨e, h.moved fun _ _ _ => by simp⟩
  | dirty _ _ _ _ => exact ⟨e, h.moved fun _ _ _ => by simp⟩
  | clean _ _ _ _ => exact ⟨e, h.moved fun _ _ _ => by simp⟩
  | @build j n e' hp _ he =>
    by_cases hj : j = i
    · subst hj
      obtain rfl : e' = e := Option.some.inj (he.symm.trans h.get)
      refine ⟨_, get_set he _, h.pair, h.state, fun m b hb => ?_, fun hlast => ⟨(h.sent hlast).1, fun m b hb => by cases hb⟩⟩
      cases hb
      rw [carries_built, h.pair, h.state]
    · refine ⟨e, (List.getElem?_set_ne hj).trans h.get, h.pair, h.state, fun m b hb => ?_, fun hlast => ?_⟩
      · cases hb
        exact absurd rfl hj
      · exact ⟨(h.sent hlast).1, fun m b hb => by cases hb⟩
  | @send j n b e' hp _ he =>
    obtain ⟨e'', st', he'', hc⟩ := hs.built j n b (.inl hp)
    obtain rfl : e'' = e' := Option.some.inj (he''.symm.trans he)
    by_cases hj : j = i
    · subst hj
      refine ⟨e, h.get, h.pair, h.state, fun m b' hb => (by cases hb), fun hlast => absurd ?_ hlast⟩
      exact (lastSent_cons (h.built n b hp) c.log k).trans (if_pos rfl)
    · have hk : key e'' ≠ k := fun hk => hj (keyed_get hs.keyed he h.get (hk.trans h.pair.symm))
      refine ⟨e, h.get, h.pair, h.state, fun m b' hb => (by cases hb), fun hlast => ⟨(h.sent ?_).1, fun m b' hb => ?_⟩⟩
      · rwa [lastSent_cons hc, if_neg hk] at hlast
      · cases hb
        exact hj rfl
  | @clear j n b e' hp _ he =>
    by_cases hj : j = i
    · subst hj
      obtain rfl : e' = e := Option.some.inj (he.symm.trans h.get)
      refine ⟨_, get_set he _, h.pair, h.state, fun m b' hb => (by cases hb), fun hlast => ?_⟩
      exact absurd hp ((h.sent hlast).2 n b)
    · refine ⟨e, (List.getElem?_set_ne hj).trans h.get, h.pair, h.state, fun m b' hb => (by cases hb), fun hlast => ?_⟩
      exact ⟨(h.sent hlast).1, fun m b' hb => by cases hb⟩

/-- An update of another pair leaves an entry as it is. -/
theorem onVehicleUpdate_other {es : VehicleSync} (he : es[i]? = some e) {p : UInt16} {st : VehicleState}
    (hk : key e ≠ (p, st.vehicleId)) : (onVehicleUpdate es p st)[i]? = some e := by
  induction es generalizing i with
  | nil => simp at he
  | cons x es ih =>
    rw [onVehicleUpdate_cons]
    cases i with
    | zero =>
      obtain rfl : x = e := by simpa using he
      rw [if_neg hk]
      rfl
    | succ i =>
      split
      · exact he
      · exact ih he

theorem Due.filter (h : Due c k st i e) (hp : c.pass = none) {f : SyncEntry → Bool} (hf : f e = true) :
    ∃ i', Due { c with entries := c.entries.filter f } k st i' e := by
  obtain ⟨i', hi'⟩ := List.mem_iff_getElem?.mp (List.mem_filter.mpr ⟨List.mem_of_getElem? h.get, hf⟩)
  refine ⟨i', hi', h.pair, h.state, fun n b hb => ?_, fun hlast => ⟨(h.sent hlast).1, fun n b => ?_⟩⟩
  · simp [hp] at hb
  · simp [hp]

theorem Due.erased (h : Due c k st i e) {f : SyncEntry → Bool} (hf : f e = true)
    (hl : c.pass = none ∨ (c.entries.filter f).map key = c.entries.map key) :
    ∃ i', Due { c with entries := c.entries.filter f } k st i' e := by
  rcases hl with hp | hsame
  · exact h.filter hp hf
  · rw [filter_still hsame]
    exact ⟨i, h⟩

/-- Only a call about the pair makes it stale. -/
theorem due_step (hs : Sound c) (h : Due c k st i e) {ev : Event} (hl : Still c ev) (hc : ¬ Concerns k ev) :
    ∃ i' e', Due (c.step ev) k st i' e' := by
  cases ev with
  | sync =>
    obtain ⟨e', he'⟩ := h.sync hs (sync_turn c)
    exact ⟨i, e', he'⟩
  | onVehicleUpdate p st' =>
    have hk : key e ≠ (p, st'.vehicleId) := fun hk => hc (h.pair.symm.trans hk)
    exact ⟨i, e, onVehicleUpdate_other h.get hk, h.pair, h.state, h.built, h.sent⟩
  | onVehicleDelete p v =>
    have hk : (!(e.ownerId == p && e.state.vehicleId == v)) = true := by
      rw [Bool.not_eq_true', ← Bool.not_eq_true, test_iff, h.pair]
      exact hc
    obtain ⟨i', hi'⟩ := h.erased (f := fun e => !(e.ownerId == p && e.state.vehicleId == v)) hk hl
    exact ⟨i', e, hi'⟩
  | onPlayerDisconnect p =>
    have hown : e.ownerId ≠ p := fun hown => hc ((congrArg Prod.fst h.pair).symm.trans hown)
    obtain ⟨i', hi'⟩ := h.erased (f := fun e => !(e.ownerId == p)) (by simpa using hown) hl
    exact ⟨i', e, hi'⟩

/-! ## A whole pass -/

/-- What was sent stays sent. -/
theorem Due.log (hs : Sound c) (h : Due c k st i e) (ht : Turn c c') (hsent : lastSent c.log k = some st) :
    lastSent c'.log k = some st := by
  cases ht with
  | @send j n b e' hp _ he =>
    obtain ⟨e'', st', he'', hc⟩ := hs.built j n b (.inl hp)
    by_cases hj : j = i
    · subst hj
      exact (lastSent_cons (h.built n b hp) c.log k).trans (if_pos rfl)
    · have hk : key e'' ≠ k := fun hk => hj (keyed_get hs.keyed he'' h.get (hk.trans h.pair.symm))
      rwa [lastSent_cons hc, if_neg hk]
  | _ => exact hsent

/-- A pass that has not come past the entry. -/
def Ahead (c : Passes) (i : Nat) : Prop := ∃ j n phase, c.pass = some ⟨j, n, phase⟩ ∧ j ≤ i ∧ i < n

/-- The pass does not come past the entry without sending what is due. -/
theorem Due.ahead (hs : Sound c) (h : Due c k st i e) (ha : Ahead c i) (ht : Turn c c') :
    lastSent c'.log k = some st ∨ Ahead c' i := by
  by_cases hsent : lastSent c.log k = some st
  · exact .inl (h.log hs ht hsent)
  obtain ⟨hdirty, hclear⟩ := h.sent hsent
  obtain ⟨j, n, phase, hp, hji, hin⟩ := ha
  cases ht with
  | begins hp' => simp [hp] at hp'
  | ends hp' hend =>
    cases hp.symm.trans hp'
    obtain ⟨hlen, -⟩ := List.getElem?_eq_some_iff.mp h.get
    rcases hend with hend | hend
    · omega
    · have hlen' := List.getElem?_eq_none_iff.mp hend
      omega
  | dirty hp' _ _ _ =>
    cases hp.symm.trans hp'
    exact .inr ⟨j, n, _, rfl, hji, hin⟩
  | build hp' _ _ =>
    cases hp.symm.trans hp'
    exact .inr ⟨j, n, _, rfl, hji, hin⟩
  | @clean _ _ e' hp' _ he hd =>
    cases hp.symm.trans hp'
    refine .inr ⟨j + 1, n, _, rfl, Nat.lt_of_le_of_ne hji ?_, hin⟩
    rintro rfl
    cases he.symm.trans h.get
    exact absurd (hd.symm.trans hdirty) (by decide)
  | @send _ _ b _ hp' _ _ =>
    cases hp.symm.trans hp'
    by_cases hj : j = i
    · subst hj
      exact .inl ((lastSent_cons (h.built n b hp') c.log k).trans (if_pos rfl))
    · exact .inr ⟨j, n, _, rfl, hji, hin⟩
  | @clear _ _ b _ hp' _ _ =>
    cases hp.symm.trans hp'
    refine .inr ⟨j + 1, n, _, rfl, Nat.lt_of_le_of_ne hji ?_, hin⟩
    rintro rfl
    exact hclear n b hp'

/-- The calls are allowed where they come, and none is about the pair. -/
def Apart (c : Passes) (k : Key) (evs : List Event) : Prop := Allowed c evs ∧ ∀ ev ∈ evs, ¬ Concerns k ev

/-- What is due is sent last. -/
def Told (c : Passes) (k : Key) (st : VehicleState) : Prop := ∃ i e, Due c k st i e ∧ lastSent c.log k = some st

theorem Apart.tail {ev : Event} {evs : List Event} (h : Apart c k (ev :: evs)) : Apart (c.step ev) k evs :=
  ⟨h.1.2, fun ev' hm => h.2 ev' (List.mem_cons_of_mem _ hm)⟩

theorem told_step (hs : Sound c) (h : Told c k st) {ev : Event} (hl : Still c ev) (hc : ¬ Concerns k ev) :
    Told (c.step ev) k st := by
  obtain ⟨i, e, hdue, hsent⟩ := h
  obtain ⟨i', e', hdue'⟩ := due_step hs hdue hl hc
  refine ⟨i', e', hdue', ?_⟩
  cases ev with
  | sync => exact hdue.log hs (sync_turn c) hsent
  | onVehicleUpdate _ _ | onVehicleDelete _ _ | onPlayerDisconnect _ => exact hsent

theorem told_after {evs : List Event} (hs : Sound c) (h : Told c k st) (ha : Apart c k evs) : Told (c.after evs) k st := by
  induction evs generalizing c with
  | nil => exact h
  | cons ev evs ih => exact ih (sound_step hs ha.1.1) (told_step hs h ha.1.1 (ha.2 ev List.mem_cons_self)) ha.tail

theorem due_after {evs : List Event} (hs : Sound c) (h : Due c k st i e) (ha : Apart c k evs) :
    ∃ i' e', Due (c.after evs) k st i' e' := by
  induction evs generalizing c i e with
  | nil => exact ⟨i, e, h⟩
  | cons ev evs ih =>
    obtain ⟨i', e', h'⟩ := due_step hs h ha.1.1 (ha.2 ev List.mem_cons_self)
    exact ih (sound_step hs ha.1.1) h' ha.tail

/-- When a pass that has not come past the entry is over, what was due is sent. -/
theorem told_of_ahead {evs : List Event} (hs : Sound c) (hdue : Due c k st i e) (hahead : Ahead c i) (ha : Apart c k evs)
    (hend : (c.after evs).pass = none) : Told (c.after evs) k st := by
  induction evs generalizing c e with
  | nil =>
    obtain ⟨j, n, phase, hp, -, -⟩ := hahead
    exact absurd (hp.symm.trans hend) (by simp)
  | cons ev evs ih =>
    have hs' := sound_step hs ha.1.1
    cases ev with
    | sync =>
      obtain ⟨e', hdue'⟩ := hdue.sync hs (sync_turn c)
      rcases hdue.ahead hs hahead (sync_turn c) with hsent | hahead'
      · exact told_after (c := c.sync) hs' ⟨i, e', hdue', hsent⟩ ha.tail
      · exact ih (c := c.sync) hs' hdue' hahead' ha.tail hend
    | onVehicleUpdate p st' =>
      have hk : key e ≠ (p, st'.vehicleId) := fun hk => ha.2 _ List.mem_cons_self (hdue.pair.symm.trans hk)
      have hdue' : Due (c.step (.onVehicleUpdate p st')) k st i e :=
        ⟨onVehicleUpdate_other hdue.get hk, hdue.pair, hdue.state, hdue.built, hdue.sent⟩
      exact ih hs' hdue' hahead ha.tail hend
    | onVehicleDelete _ _ | onPlayerDisconnect _ =>
      -- in a pass it erases nothing
      obtain ⟨j, n, phase, hp, hahead⟩ := hahead
      have hsame := step_erases_nothing ha.1.1 (by simp [hp]) nofun nofun
      have htail := ha.tail
      rw [hsame] at htail
      rw [after_cons, hsame] at hend ⊢
      exact ih hs hdue ⟨j, n, phase, hp, hahead⟩ htail hend

/-- From one time between passes to another, with a pass in between, what was due is sent. -/
theorem sent_of_pass {evs : List Event} (hs : Sound c) (hdue : Due c k st i e) (ha : Apart c k evs)
    (hstart : c.pass = none) (hpass : .sync ∈ evs) (hend : (c.after evs).pass = none) : Told (c.after evs) k st := by
  induction evs generalizing c i e with
  | nil => exact absurd hpass List.not_mem_nil
  | cons ev evs ih =>
    have hs' := sound_step hs ha.1.1
    by_cases hev : ev = .sync
    · subst hev
      obtain ⟨e', hdue'⟩ := hdue.sync hs (sync_turn c)
      obtain ⟨hlen, -⟩ := List.getElem?_eq_some_iff.mp hdue.get
      have hahead : Ahead c.sync i := ⟨0, c.entries.length, .test, by simp [sync, hstart], Nat.zero_le i, hlen⟩
      exact told_of_ahead (c := c.sync) hs' hdue' hahead ha.tail hend
    · obtain ⟨i', e', hdue'⟩ := due_step hs hdue ha.1.1 (ha.2 ev List.mem_cons_self)
      have hpass' : (c.step ev).pass = none := by
        cases ev with
        | sync => exact absurd rfl hev
        | onVehicleUpdate _ _ | onVehicleDelete _ _ | onPlayerDisconnect _ => exact hstart
      exact ih hs' hdue' ha.tail hpass' ((List.mem_cons.mp hpass).resolve_left fun h => hev h.symm) hend

/-! ## An update -/

/-- A packet of the pair is built, and the flag not yet cleared for it. -/
def UnderWay (c : Passes) (k : Key) : Prop :=
  ∃ i n b st, (c.pass = some ⟨i, n, .send b⟩ ∨ c.pass = some ⟨i, n, .clear b⟩) ∧ carries b = some (k, st)

theorem onVehicleUpdate_own (es : VehicleSync) (p : UInt16) (st : VehicleState) :
    ∃ (i : Nat) (e : SyncEntry), (onVehicleUpdate es p st)[i]? = some e ∧ key e = (p, st.vehicleId) ∧ e.state = st ∧
      e.dirty = true := by
  induction es with
  | nil => exact ⟨0, _, rfl, rfl, rfl, rfl⟩
  | cons x es ih =>
    rw [onVehicleUpdate_cons]
    split
    · rename_i hk
      exact ⟨0, _, rfl, key_overwrite hk, rfl, rfl⟩
    · obtain ⟨i, e, he⟩ := ih
      exact ⟨i + 1, e, he⟩

/-- An update is due, unless it comes while a packet of the pair is under way. -/
theorem due_onVehicleUpdate (hs : Sound c) (p : UInt16) (hfree : ¬ UnderWay c (p, st.vehicleId)) :
    ∃ i e, Due (c.step (.onVehicleUpdate p st)) (p, st.vehicleId) st i e := by
  obtain ⟨i, e, he, hk, hst, hd⟩ := onVehicleUpdate_own c.entries p st
  have hidle : ∀ n b, ¬ (c.pass = some ⟨i, n, .send b⟩ ∨ c.pass = some ⟨i, n, .clear b⟩) := by
    intro n b hp
    obtain ⟨e', st', he', hc⟩ := hs.built i n b hp
    obtain ⟨e'', he'', hk'⟩ := onVehicleUpdate_get he' p st
    obtain rfl : e'' = e := Option.some.inj (he''.symm.trans he)
    exact hfree ⟨i, n, b, st', hp, by rw [hc, ← hk', hk]⟩
  exact ⟨i, e, he, hk, hst, fun n b hp => absurd (.inl hp) (hidle n b), fun _ => ⟨hd, fun n b hp => hidle n b (.inr hp)⟩⟩

/-! ## Timelines -/

/-- What happens in each microsecond. -/
abbrev Timeline := Nat → List Event

namespace Timeline

variable (tl : Timeline)

def between (a d : Nat) : List Event := (List.range d).flatMap fun x => tl (a + x)

/-- The vector, and the thread, before a microsecond. -/
def before (t : Nat) : Passes := system.init.after (tl.between 0 t)

theorem between_add (a d d' : Nat) : tl.between a (d + d') = tl.between a d ++ tl.between (a + d) d' := by
  rw [between, List.range_add, List.flatMap_append, List.flatMap_map]
  simp only [between, Nat.add_assoc]

theorem before_add (t d : Nat) : tl.before (t + d) = (tl.before t).after (tl.between t d) := by
  rw [before, between_add, Nat.zero_add, after_append]
  rfl

theorem between_one (a : Nat) : tl.between a 1 = tl a := by simp [between]

theorem mem_between {a d : Nat} {ev : Event} : ev ∈ tl.between a d ↔ ∃ t, a ≤ t ∧ t < a + d ∧ ev ∈ tl t := by
  simp only [between, List.mem_flatMap, List.mem_range]
  constructor
  · rintro ⟨x, hx, hm⟩
    exact ⟨a + x, Nat.le_add_right _ _, by omega, hm⟩
  · rintro ⟨t, hat, htd, hm⟩
    exact ⟨t - a, by omega, by rwa [Nat.add_sub_cancel' hat]⟩

end Timeline

/-- The loop at a rate. Each round makes its passes whole, and at least one. -/
structure Paced (hz : Int) (p : Pace) (tl : Timeline) : Prop where
  interval : Config.interval hz = some (p.period : Int)
  legal : ∀ t, Allowed system.init (tl.between 0 t)
  begins : ∀ r, (tl.before (p.start r)).pass = none
  made : ∀ r, .sync ∈ tl.between (p.start r) (p.work r)
  ends : ∀ r, (tl.before (p.start r + p.work r)).pass = none

variable {hz : Int} {p : Pace} {tl : Timeline}

theorem Paced.sound (h : Paced hz p tl) (t : Nat) : Sound (tl.before t) := sound_after sound_init (h.legal t)

theorem Paced.allowed (h : Paced hz p tl) (t d : Nat) : Allowed (tl.before t) (tl.between t d) := by
  have hl := h.legal (t + d)
  rw [tl.between_add, Nat.zero_add, allowed_append] at hl
  exact hl.2

theorem Paced.apart (h : Paced hz p tl) {a d : Nat} (hquiet : ∀ t, a ≤ t → t < a + d → ∀ ev ∈ tl t, ¬ Concerns k ev) :
    Apart (tl.before a) k (tl.between a d) := by
  refine ⟨h.allowed a d, fun ev hev => ?_⟩
  obtain ⟨t, hat, htd, hm⟩ := tl.mem_between.mp hev
  exact hquiet t hat htd ev hm

/-- From round `m` on, passes and delays fit the interval with `spare` time. Once that has made
    up for the lag there was, an update that comes while no packet of its pair is under way,
    and that no other call about the pair follows for two intervals, is what others were told
    last by then. -/
theorem fresh_within {b spare m n : Nat} (hp : Paced hz p tl) (hlate : ∀ r, p.late r ≤ b)
    (hfits : ∀ r ≥ m, p.work r + b + spare ≤ p.period) (hcaught : p.lag m ≤ b + n * spare)
    {t : Nat} (ht : p.start (m + n) ≤ t) {pre post : List Event} {q : UInt16}
    (hev : tl t = pre ++ .onVehicleUpdate q st :: post) (hfree : ¬ UnderWay ((tl.before t).after pre) (q, st.vehicleId))
    (hpost : ∀ ev ∈ post, ¬ Concerns (q, st.vehicleId) ev)
    (hquiet : ∀ t', t < t' → t' < t + 2 * p.period → ∀ ev ∈ tl t', ¬ Concerns (q, st.vehicleId) ev) :
    lastSent (tl.before (t + 2 * p.period)).log (q, st.vehicleId) = some st := by
  have hperiod : 0 < p.period := by
    obtain ⟨t₀, hle, hlt, -⟩ := tl.mem_between.mp (hp.made m)
    have hm := hfits m (le_refl m)
    omega
  have hlater : ∀ r, t < p.start r → m + n ≤ r := fun r hr => Nat.le_of_not_lt fun hlt =>
    absurd (p.start_mono hlt.le) (Nat.not_le.mpr (Nat.lt_of_le_of_lt ht hr))
  have hfirst : p.first ≤ t := (p.due_zero ▸ p.due_le_start 0).trans ((p.start_mono (Nat.zero_le _)).trans ht)
  obtain ⟨r, hr, hrle, -⟩ := Pace.next_round
    (fun r hr => Pace.lag_le_of_caught hlate hfits hcaught (hlater r hr)) hperiod hfirst
  have hround := hfits r ((Nat.le_add_right m n).trans (hlater r hr))
  -- until the end of the microsecond
  obtain ⟨hpre, hstill, hallowed⟩ : Allowed (tl.before t) pre ∧ _ ∧ Allowed _ post := by
    have hl := hp.allowed t 1
    rw [tl.between_one, hev] at hl
    exact allowed_append.mp hl
  obtain ⟨i, e, hdue⟩ := due_onVehicleUpdate (sound_after (hp.sound t) hpre) q hfree
  have hsound := sound_step (e := .onVehicleUpdate q st) (sound_after (hp.sound t) hpre) hstill
  obtain ⟨i, e, hdue⟩ := due_after hsound hdue ⟨hallowed, hpost⟩
  have hnext : tl.before (t + 1) = (((tl.before t).after pre).step (.onVehicleUpdate q st)).after post := by
    rw [tl.before_add, tl.between_one, hev, after_append, after_cons]
  rw [← hnext] at hdue
  -- until the round begins
  obtain ⟨d, hd⟩ := Nat.exists_eq_add_of_le (Nat.succ_le_of_lt hr)
  obtain ⟨i, e, hdue⟩ := due_after (hp.sound _) hdue
    (hp.apart (d := d) fun t' hlo hhi => hquiet t' hlo (by omega))
  rw [← tl.before_add, ← hd] at hdue
  -- in the round
  have htold := sent_of_pass (hp.sound _) hdue (hp.apart fun t' hlo hhi => hquiet t' (by omega) (by omega)) (hp.begins r)
    (hp.made r) (by rw [← tl.before_add]; exact hp.ends r)
  rw [← tl.before_add] at htold
  -- after the round
  obtain ⟨d', hd'⟩ := Nat.exists_eq_add_of_le (show p.start r + p.work r ≤ t + 2 * p.period by omega)
  have hlast := told_after (hp.sound _) htold (hp.apart (d := d') fun t' hlo hhi => hquiet t' (by omega) (by omega))
  rw [← tl.before_add, ← hd'] at hlast
  obtain ⟨-, -, -, hsent⟩ := hlast
  exact hsent

namespace Sample

/-- Half a million rounds in a second, each of one microsecond. -/
def pace : Pace := ⟨0, 2, fun _ => 1, fun _ => 0⟩

/-- Player 7 moves once, between the first two rounds. -/
def timeline : Timeline
  | 0 => [.sync, .sync]
  | 1 => [.onVehicleUpdate 7 .zero]
  | 2 => List.replicate 6 .sync
  | t + 3 => if t % 2 = 1 then List.replicate 3 .sync else []

theorem pace_start (r : Nat) : pace.start r = 2 * r := by
  induction r with
  | zero => rfl
  | succ r ih =>
    rw [Pace.start, ih]
    simp only [pace, Pace.due]
    omega

def sent : Passes :=
  ⟨[⟨7, .zero, 1, false⟩], none, [⟨Packet.buildVehicleUpdate 7 1 .zero, 7⟩]⟩

theorem before_three : timeline.before 3 = sent := rfl

theorem before_eq (t : Nat) : timeline.before (t + 3) = sent := by
  induction t with
  | zero => exact before_three
  | succ t ih =>
    rw [Nat.add_right_comm, timeline.before_add, timeline.between_one, ih, timeline]
    split <;> rfl

theorem later_calls (t : Nat) : ∀ ev ∈ timeline (t + 3), ev = .sync := by
  intro ev hev
  rw [timeline] at hev
  split at hev
  · exact List.eq_of_mem_replicate hev
  · exact absurd hev List.not_mem_nil

theorem allowed_sync {c : Passes} {evs : List Event} (h : ∀ ev ∈ evs, ev = .sync) : Allowed c evs := by
  induction evs generalizing c with
  | nil => trivial
  | cons ev evs ih =>
    refine ⟨?_, ih fun ev' hm => h ev' (List.mem_cons_of_mem _ hm)⟩
    rw [h ev List.mem_cons_self]
    trivial

theorem allowed_later (t : Nat) : Allowed system.init (timeline.between 0 (3 + t)) := by
  rw [timeline.between_add, allowed_append]
  refine ⟨⟨trivial, trivial, .inl rfl, allowed_sync fun ev hev => List.eq_of_mem_replicate (n := 6) hev⟩, ?_⟩
  refine allowed_sync fun ev hev => ?_
  obtain ⟨t', hlo, -, hm⟩ := timeline.mem_between.mp hev
  obtain ⟨t', rfl⟩ := Nat.exists_eq_add_of_le hlo
  rw [show 0 + 3 + t' = t' + 3 by omega] at hm
  exact later_calls t' ev hm

theorem paced : Paced 500000 pace timeline where
  interval := rfl
  legal t := by
    have hlater := allowed_later t
    rw [Nat.add_comm, timeline.between_add, allowed_append] at hlater
    exact hlater.1
  begins r := by
    rw [pace_start]
    rcases r with _ | _ | r
    · rfl
    · rfl
    · rw [show 2 * (r + 1 + 1) = 2 * r + 1 + 3 by omega, before_eq]
      rfl
  made r := by
    rw [pace_start, show pace.work r = 1 from rfl, timeline.between_one]
    rcases r with _ | _ | r
    · exact List.mem_cons_self
    · exact List.mem_cons_self
    · rw [show 2 * (r + 1 + 1) = 2 * r + 1 + 3 by omega, timeline, if_pos (by omega)]
      exact List.mem_cons_self
  ends r := by
    rw [pace_start, show pace.work r = 1 from rfl]
    rcases r with _ | r
    · rfl
    · rw [show 2 * (r + 1) + 1 = 2 * r + 3 by omega, before_eq]
      rfl

end Sample

theorem fresh_within_sample :
    lastSent (Sample.timeline.before (1 + 2 * Sample.pace.period)).log (7, VehicleState.zero.vehicleId) = some .zero := by
  have hev : Sample.timeline 1 = [] ++ .onVehicleUpdate 7 .zero :: [] := rfl
  refine fresh_within (b := 0) (m := 0) (n := 0) Sample.paced (fun _ => Nat.le_refl _) (fun _ _ => (by decide : 1 + 0 + 1 ≤ 2))
    (by decide) (Nat.zero_le _) hev ?_
    (fun _ h => absurd h List.not_mem_nil) ?_
  · rintro ⟨i, n, b, st, hp | hp, -⟩ <;> cases hp
  · intro t' hlo hhi ev hev
    have ht' : t' < 5 := hhi
    have hsync : ev = .sync := by
      obtain ⟨t, rfl⟩ := Nat.exists_eq_add_of_le hlo
      rcases t with _ | t
      · exact List.eq_of_mem_replicate (n := 6) hev
      · rw [show 1 + 1 + (t + 1) = t + 3 by omega] at hev
        exact Sample.later_calls t ev hev
    subst hsync
    exact id

end VehicleSync.Passes

end NovaMP
