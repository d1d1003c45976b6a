/-
  NovaMP.Lib.Processes — process ids, as POSIX hands them out.

  An id names a process until the process has been waited for; then the next process
  may get it. A process that has exited keeps its id until its parent waits for it.
  `own` processes are those a component of the program has started; the program has
  other children, and the machine other processes.

  - `Processes.poll`, `Processes.wait`: `waitpid` with `WNOHANG` and without.
  - `Change`: what happens besides the component's calls. None of it starts an own
    process or waits for one (`own_change_iff`).
  - `own_poll_iff`, `own_wait_iff`: they take an own process only once it has exited, and wait
    leaves none under the id.
-/

import NovaMP.Lib.Table

namespace NovaMP.Lib

inductive Origin where
  | own | child | foreign
  deriving DecidableEq

structure Process where
  origin : Origin
  exited : Bool
  deriving DecidableEq

abbrev Pid := { id : Int // 0 < id }

/-- The processes by their ids, which are positive. -/
structure Processes where
  table : Table Int Process
  positive : ∀ id ∈ table, 0 < id

namespace Processes

variable {ps qs : Processes} {id id' : Int} {p : Process}

def find (ps : Processes) (id : Int) : Option Process := ps.table.lookup id

def own (ps : Processes) (id : Int) : Bool := (ps.find id).any fun p => p.origin = .own

def exited (ps : Processes) (id : Int) : Bool := (ps.find id).any (·.exited)

/-- A process begins: `fork`, if it is an own one. -/
def start (ps : Processes) (id : Pid) (origin : Origin) : Processes where
  table := ps.table.insert id ⟨origin, false⟩
  positive := by
    intro id' h
    rcases (AList.mem_insert ps.table).mp h with rfl | h
    · exact id.2
    · exact ps.positive id' h

/-- A process ends and keeps its id. -/
def exit (ps : Processes) (id : Int) : Processes where
  table := ps.table.mapValues fun id' p => if id' = id then { p with exited := true } else p
  positive := by
    intro id' h
    obtain ⟨p, hp⟩ := Table.mem_iff.mp h
    rw [Table.lookup_mapValues, Option.map_eq_some_iff] at hp
    obtain ⟨q, hq, -⟩ := hp
    exact ps.positive id' (Table.mem_of_lookup hq)

/-- A process that has been waited for is gone. -/
def reap (ps : Processes) (id : Int) : Processes where
  table := ps.table.erase id
  positive := fun id' h => ps.positive id' (AList.mem_erase.mp h).2

/-- `waitpid(id, nullptr, WNOHANG)` for a positive id: 0 for a child that runs, -1 if the
    id is no child's. -/
def poll (ps : Processes) (id : Int) : Int × Processes :=
  match ps.find id with
  | none => (-1, ps)
  | some p => if p.origin = .foreign then (-1, ps) else if p.exited then (id, ps.reap id) else (0, ps)

/-- `waitpid(id, nullptr, 0)`: it blocks (`none`) as long as a poll finds the child running. -/
def wait (ps : Processes) (id : Int) : Option Processes :=
  if (ps.poll id).1 = 0 then none else some (ps.poll id).2

/-- What happens besides: a process exits, one that is not an own one begins, or its
    parent waits for it. -/
inductive Change : Processes → Processes → Prop
  | exits (ps : Processes) (id : Int) : Change ps (ps.exit id)
  | begins (ps : Processes) (id : Pid) (origin : Origin) : ps.find id = none → origin ≠ .own →
      Change ps (ps.start id origin)
  | vanishes (ps : Processes) (id : Int) : ps.own id = false → Change ps (ps.reap id)

/-! ## What the operations find -/

theorem find_pos (h : ps.find id = some p) : 0 < id := ps.positive id (Table.mem_of_lookup h)

theorem find_nonpos (h : id ≤ 0) : ps.find id = none := by
  refine Option.eq_none_iff_forall_ne_some.mpr fun p hp => ?_
  exact absurd (find_pos hp) (by omega)

theorem find_start {pid : Pid} {origin : Origin} :
    (ps.start pid origin).find id = if id = pid then some ⟨origin, false⟩ else ps.find id :=
  Table.lookup_insert' ps.table pid id _

theorem find_exit : (ps.exit id').find id = (ps.find id).map fun p => if id = id' then { p with exited := true } else p :=
  Table.lookup_mapValues _ ps.table id

theorem find_reap : (ps.reap id').find id = if id = id' then none else ps.find id :=
  Table.lookup_erase' ps.table id' id

theorem own_eq_true_iff : ps.own id = true ↔ ∃ p, ps.find id = some p ∧ p.origin = .own := by
  simp [own, Option.any_eq_true]

theorem own_of_find_none (h : ps.find id = none) : ps.own id = false := by
  rw [own, h]
  rfl

theorem own_nonpos (h : id ≤ 0) : ps.own id = false := own_of_find_none (find_nonpos h)

theorem exited_nonpos (h : id ≤ 0) : ps.exited id = false := by
  rw [exited, find_nonpos h]
  rfl

/-! ## Own processes -/

theorem own_start_iff {pid : Pid} : (ps.start pid .own).own id = true ↔ id = pid ∨ ps.own id = true := by
  rw [own_eq_true_iff, own_eq_true_iff, find_start]
  by_cases heq : id = pid
  · simp [heq]
  · simp [heq]

theorem own_reap_iff : (ps.reap id').own id = true ↔ ps.own id = true ∧ id ≠ id' := by
  rw [own_eq_true_iff, own_eq_true_iff, find_reap]
  by_cases heq : id = id'
  · simp [heq]
  · simp [heq]

/-- Nothing besides the component's calls starts an own process or waits for one. -/
theorem own_change_iff (h : Change ps qs) : qs.own id = true ↔ ps.own id = true := by
  cases h with
  | exits id' =>
    rw [own_eq_true_iff, own_eq_true_iff, find_exit]
    cases ps.find id with
    | none => simp
    | some p => by_cases heq : id = id' <;> simp [heq]
  | begins pid origin hfree hnot =>
    rw [own_eq_true_iff, own_eq_true_iff, find_start]
    by_cases heq : id = pid
    · simp [heq, hfree, hnot]
    · simp [heq]
  | vanishes id' hnot =>
    rw [own_reap_iff, and_iff_left_iff_imp]
    rintro ho rfl
    rw [hnot] at ho
    cases ho

/-- A poll takes the process if it is a child that has exited. -/
theorem own_poll_iff : (ps.poll id').2.own id = true ↔ ps.own id = true ∧ (id = id' → ps.exited id' = false) := by
  unfold poll
  cases hf : ps.find id' with
  | none => simp [exited, hf]
  | some p =>
    have he : ps.exited id' = p.exited := by rw [exited, hf, Option.any_some]
    rw [he]
    dsimp only
    by_cases hforeign : p.origin = .foreign
    · rw [if_pos hforeign]
      refine (and_iff_left_of_imp ?_).symm
      rintro ho rfl
      obtain ⟨q, hq, hown⟩ := own_eq_true_iff.mp ho
      obtain rfl : p = q := Option.some.inj (hf.symm.trans hq)
      cases hforeign.symm.trans hown
    · rw [if_neg hforeign]
      cases p.exited with
      | true => simp [own_reap_iff]
      | false => simp

theorem exited_of_poll (h : (ps.poll id).1 ≠ 0) (ho : ps.own id = true) : ps.exited id = true := by
  obtain ⟨p, hf, hown⟩ := own_eq_true_iff.mp ho
  rw [exited, hf, Option.any_some]
  by_contra hnot
  refine h ?_
  simp [poll, hf, hown, hnot]

/-- Once a wait returns, no own process has the id. -/
theorem own_wait_iff (h : ps.wait id' = some qs) : qs.own id = true ↔ ps.own id = true ∧ id ≠ id' := by
  unfold wait at h
  by_cases hzero : (ps.poll id').1 = 0
  · rw [if_pos hzero] at h
    cases h
  · rw [if_neg hzero] at h
    cases h
    rw [own_poll_iff]
    refine and_congr_right fun ho => ?_
    constructor
    · rintro hrun rfl
      exact absurd (exited_of_poll hzero ho) (by simp [hrun rfl])
    · exact fun hne heq => absurd heq hne

end Processes

end NovaMP.Lib
