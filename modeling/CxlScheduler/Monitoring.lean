import CxlScheduler.BpfMap

set_option autoImplicit false

/-!
# The tracepoint monitor of `cxl_monitoring.bpf.c`

`trace_sched_switch` and `trace_sched_wakeup` keep per-task counters in the hash map
`task_monitor` and per-CPU switch counts in the array `cpu_usage`. Both handlers run in the
context of the task that is current when the event fires: at `sched_switch` that is the
task switched out, at `sched_wakeup` the waker. Ids are `u32` values that fit a `Nat`.
-/
namespace CxlScheduler.Monitoring

def maxTasks : Nat := 1024

/-- `struct task_stats`. -/
structure TaskStats where
  totalRuntime : BitVec 64
  totalSwitches : BitVec 64
  pid : Nat
  lastCpu : Nat
  comm : List Char
  deriving DecidableEq, Repr

structure State where
  taskMonitor : List (Nat × TaskStats)
  cpuUsage : Nat → BitVec 64

/-- `stats->total_switches++` (task switched out) or `stats->total_runtime++` (task
switched in), then `stats->last_cpu = cpu`. -/
def TaskStats.bump (stats : TaskStats) (switchedOut : Bool) (cpu : Nat) : TaskStats :=
  if switchedOut then { stats with totalSwitches := stats.totalSwitches + 1, lastCpu := cpu }
  else { stats with totalRuntime := stats.totalRuntime + 1, lastCpu := cpu }

/-- One half of `trace_sched_switch`: the stored entry of `pid` bumped in place, or, on a
miss, a zeroed entry for `pid`, bumped, named by `bpf_get_current_comm`. -/
def recordTask (m : List (Nat × TaskStats)) (pid cpu : Nat) (currentComm : List Char)
    (switchedOut : Bool) : List (Nat × TaskStats) :=
  if 0 < pid then
    match BpfHash.lookupElem m pid with
    | some stats => BpfHash.replaceElem m pid (stats.bump switchedOut cpu)
    | none => BpfHash.updateElem maxTasks m pid (TaskStats.bump ⟨0, 0, pid, 0, currentComm⟩ switchedOut cpu)
  else m

/-- An array slot exists for CPUs below 64; for others the lookup and the update fail. -/
def bumpCpuUsage (usage : Nat → BitVec 64) (cpu : Nat) : Nat → BitVec 64 :=
  if cpu < 64 then Function.update usage cpu (usage cpu + 1) else usage

def traceSchedSwitch (s : State) (prevPid nextPid cpu : Nat) (currentComm : List Char) : State :=
  let m := recordTask s.taskMonitor prevPid cpu currentComm true
  ⟨recordTask m nextPid cpu currentComm false, bumpCpuUsage s.cpuUsage cpu⟩

/-- `pid` is `bpf_get_current_pid_tgid() >> 32`, the current task's tgid. -/
def traceSchedWakeup (s : State) (pid : Nat) : State :=
  if 0 < pid then
    match BpfHash.lookupElem s.taskMonitor pid with
    | some stats =>
      { s with taskMonitor :=
          BpfHash.replaceElem s.taskMonitor pid { stats with totalRuntime := stats.totalRuntime + 1 } }
    | none => s
  else s

structure Thread where
  tid : Nat
  tgid : Nat
  comm : List Char
  deriving DecidableEq, Repr

inductive Event
  | schedSwitch (cpu : Nat) (prev next : Thread)
  | schedWakeup (current woken : Thread)

def step (s : State) : Event → State
  | .schedSwitch cpu prev next => traceSchedSwitch s prev.tid next.tid cpu prev.comm
  | .schedWakeup current _ => traceSchedWakeup s current.tgid

def run (s : State) (es : List Event) : State := es.foldl step s

/-- What an event adds to `total_switches` of the entry with key `k`. -/
def switchCredit (k : Nat) : Event → Nat
  | .schedSwitch _ prev _ => if prev.tid = k then 1 else 0
  | .schedWakeup .. => 0

/-- What an event adds to `total_runtime` of the entry with key `k`. -/
def runtimeCredit (k : Nat) : Event → Nat
  | .schedSwitch _ _ next => if next.tid = k then 1 else 0
  | .schedWakeup current _ => if current.tgid = k then 1 else 0

/-! ## A stored entry over a run -/

theorem recordTask_present (m : List (Nat × TaskStats)) (pid cpu : Nat) (comm : List Char)
    (switchedOut : Bool) (k : Nat) (hk0 : 0 < k) (stats : TaskStats)
    (hk : BpfHash.lookupElem m k = some stats) :
    BpfHash.lookupElem (recordTask m pid cpu comm switchedOut) k =
      some (if pid = k then stats.bump switchedOut cpu else stats) := by
  unfold recordTask
  by_cases hp : pid = k
  · subst hp
    simp [hk0, hk, BpfHash.lookupElem_replaceElem]
  · have hp' : k ≠ pid := Ne.symm hp
    split
    · split <;> simp [BpfHash.lookupElem_replaceElem, BpfHash.lookupElem_updateElem, hp', hp, hk]
    · simp [hp, hk]

theorem traceSchedWakeup_present (s : State) (pid k : Nat) (hk0 : 0 < k) (stats : TaskStats)
    (hk : BpfHash.lookupElem s.taskMonitor k = some stats) :
    BpfHash.lookupElem (traceSchedWakeup s pid).taskMonitor k =
      some (if pid = k then { stats with totalRuntime := stats.totalRuntime + 1 } else stats) := by
  unfold traceSchedWakeup
  by_cases hp : pid = k
  · subst hp
    simp [hk0, hk, BpfHash.lookupElem_replaceElem]
  · have hp' : k ≠ pid := Ne.symm hp
    split
    · split <;> simp [BpfHash.lookupElem_replaceElem, hp', hp, hk]
    · simp [hp, hk]

/-- The counters, pid and name of a stored entry after one event. -/
def Credited (k : Nat) (e : Event) (stats stats' : TaskStats) : Prop :=
  stats'.totalSwitches = stats.totalSwitches + BitVec.ofNat 64 (switchCredit k e) ∧
    stats'.totalRuntime = stats.totalRuntime + BitVec.ofNat 64 (runtimeCredit k e) ∧
    stats'.pid = stats.pid ∧ stats'.comm = stats.comm

theorem step_present (s : State) (e : Event) (k : Nat) (hk0 : 0 < k) (stats : TaskStats)
    (hk : BpfHash.lookupElem s.taskMonitor k = some stats) :
    ∃ stats', BpfHash.lookupElem (step s e).taskMonitor k = some stats' ∧ Credited k e stats stats' := by
  cases e with
  | schedSwitch cpu prev next =>
    simp only [step, traceSchedSwitch]
    rw [recordTask_present _ _ _ _ _ k hk0 _ (recordTask_present _ _ _ _ _ k hk0 _ hk)]
    refine ⟨_, rfl, ?_⟩
    by_cases hp : prev.tid = k <;> by_cases hn : next.tid = k <;>
      simp [Credited, switchCredit, runtimeCredit, TaskStats.bump, hp, hn, BitVec.add_assoc]
  | schedWakeup current woken =>
    refine ⟨_, traceSchedWakeup_present s _ k hk0 stats hk, ?_⟩
    by_cases hc : current.tgid = k <;> simp [Credited, switchCredit, runtimeCredit, hc]

/-- A stored entry with key `k` stays; `total_switches` grows by the switches out of thread
`k`, `total_runtime` by the switches into thread `k` and the wakeups fired while a task of
process `k` is current; its pid and name never change. -/
theorem run_present (s : State) (es : List Event) (k : Nat) (hk0 : 0 < k) (stats : TaskStats)
    (hk : BpfHash.lookupElem s.taskMonitor k = some stats) :
    ∃ stats', BpfHash.lookupElem (run s es).taskMonitor k = some stats' ∧
      stats'.totalSwitches = stats.totalSwitches + BitVec.ofNat 64 (es.map (switchCredit k)).sum ∧
      stats'.totalRuntime = stats.totalRuntime + BitVec.ofNat 64 (es.map (runtimeCredit k)).sum ∧
      stats'.pid = stats.pid ∧ stats'.comm = stats.comm := by
  induction es generalizing s stats with
  | nil => exact ⟨stats, hk, by simp, by simp, rfl, rfl⟩
  | cons e es ih =>
    obtain ⟨st1, h1, hs1, hr1, hp1, hc1⟩ := step_present s e k hk0 stats hk
    obtain ⟨st2, h2, hs2, hr2, hp2, hc2⟩ := ih (step s e) st1 h1
    refine ⟨st2, h2, ?_, ?_, hp2.trans hp1, hc2.trans hc1⟩ <;>
      simp only [List.map_cons, List.sum_cons, BitVec.ofNat_add, ← BitVec.add_assoc, hs2, hr2, hs1, hr1]

theorem run_present_ten :
    ∃ stats', BpfHash.lookupElem (run ⟨[(10, ⟨0, 0, 10, 0, ['a']⟩)], fun _ => 0⟩
        [.schedSwitch 0 ⟨10, 10, ['a']⟩ ⟨20, 20, ['b']⟩,
          .schedWakeup ⟨11, 10, ['c']⟩ ⟨20, 20, ['b']⟩]).taskMonitor 10 = some stats' ∧
      stats'.totalSwitches = 1 ∧ stats'.totalRuntime = 1 ∧ stats'.pid = 10 ∧ stats'.comm = ['a'] := by
  obtain ⟨stats', h, hs, hr, hp, hc⟩ := run_present ⟨[(10, ⟨0, 0, 10, 0, ['a']⟩)], fun _ => 0⟩
    [.schedSwitch 0 ⟨10, 10, ['a']⟩ ⟨20, 20, ['b']⟩, .schedWakeup ⟨11, 10, ['c']⟩ ⟨20, 20, ['b']⟩]
    10 (by decide) _ rfl
  exact ⟨stats', h, hs.trans rfl, hr.trans rfl, hp, hc⟩

/-- What an event adds to the `cpu_usage` slot of `cpu`. -/
def cpuCredit (cpu : Nat) : Event → Nat
  | .schedSwitch c _ _ => if c = cpu then 1 else 0
  | .schedWakeup .. => 0

theorem step_cpuUsage (s : State) (e : Event) (cpu : Nat) (hcpu : cpu < 64) :
    (step s e).cpuUsage cpu = s.cpuUsage cpu + BitVec.ofNat 64 (cpuCredit cpu e) := by
  cases e with
  | schedSwitch c prev next =>
    simp only [step, traceSchedSwitch, bumpCpuUsage, cpuCredit]
    by_cases hc : c = cpu
    · subst hc; simp [hcpu]
    · split <;> simp [Function.update_noteq (Ne.symm hc), hc]
  | schedWakeup current woken =>
    simp only [step, traceSchedWakeup, cpuCredit]
    split
    · split <;> simp
    · simp

/-- Each `cpu_usage` slot counts, modulo 2^64, the switches on its CPU. -/
theorem run_cpuUsage (s : State) (es : List Event) (cpu : Nat) (hcpu : cpu < 64) :
    (run s es).cpuUsage cpu = s.cpuUsage cpu + BitVec.ofNat 64 (es.map (cpuCredit cpu)).sum := by
  induction es generalizing s with
  | nil => simp [run]
  | cons e es ih =>
    simp only [run, List.foldl_cons] at ih ⊢
    rw [ih, step_cpuUsage s e cpu hcpu, List.map_cons, List.sum_cons, BitVec.ofNat_add,
      BitVec.add_assoc]

theorem run_cpuUsage_two :
    (run ⟨[], fun _ => 0⟩ [.schedSwitch 0 ⟨10, 10, ['a']⟩ ⟨20, 20, ['b']⟩,
      .schedSwitch 1 ⟨30, 30, ['c']⟩ ⟨10, 10, ['a']⟩,
      .schedSwitch 0 ⟨20, 20, ['b']⟩ ⟨10, 10, ['a']⟩]).cpuUsage 0 = 2 := by
  rw [run_cpuUsage _ _ 0 (by decide)]
  rfl

/-! ## The keys of `task_monitor` -/

/-- The nonzero thread ids an event hands to `task_monitor`, in order. -/
def recorded : Event → List Nat
  | .schedSwitch _ prev next => [prev.tid, next.tid].filter (0 < ·)
  | .schedWakeup .. => []

/-- Every entry carries its own key as `pid`. -/
def PidsMatch (m : List (Nat × TaskStats)) : Prop :=
  ∀ k stats, BpfHash.lookupElem m k = some stats → stats.pid = k

theorem keys_recordTask (m : List (Nat × TaskStats)) (pid cpu : Nat) (comm : List Char) (b : Bool) :
    BpfHash.keys (recordTask m pid cpu comm b) = ([pid].filter (0 < ·)).foldl (BpfHash.admitKey maxTasks) (BpfHash.keys m) := by
  unfold recordTask
  by_cases hp : 0 < pid
  · simp only [hp, if_true, List.filter_cons_of_pos (p := fun x => decide (0 < x)) (by simpa using hp),
      List.filter_nil, List.foldl_cons, List.foldl_nil]
    split
    · rename_i stats hk
      have hin := (BpfHash.lookupElem_isSome_iff m pid).1 (by simp [hk])
      rw [BpfHash.keys_replaceElem, BpfHash.admitKey, if_pos hin]
    · exact BpfHash.keys_updateElem _ _ _ _
  · simp [hp]

theorem recordTask_pidsMatch (m : List (Nat × TaskStats)) (pid cpu : Nat) (comm : List Char) (b : Bool)
    (h : PidsMatch m) : PidsMatch (recordTask m pid cpu comm b) := by
  have hbump : ∀ st : TaskStats, (st.bump b cpu).pid = st.pid := by
    intro st; unfold TaskStats.bump; split <;> rfl
  intro k st hk
  unfold recordTask at hk
  split at hk
  · split at hk
    · rename_i stats hs
      rw [BpfHash.lookupElem_replaceElem] at hk
      split at hk
      · rename_i hkp
        cases hk
        rw [hbump, h pid stats hs, hkp.1]
      · exact h k st hk
    · rw [BpfHash.lookupElem_updateElem] at hk
      split at hk
      · rename_i hkp
        cases hk
        rw [hbump, hkp.1]
      · exact h k st hk
  · exact h k st hk

theorem step_keys (s : State) (e : Event) :
    BpfHash.keys (step s e).taskMonitor = (recorded e).foldl (BpfHash.admitKey maxTasks) (BpfHash.keys s.taskMonitor) := by
  cases e with
  | schedSwitch cpu prev next =>
    simp only [step, traceSchedSwitch, recorded, keys_recordTask]
    rw [← List.foldl_append, ← List.filter_append]
    rfl
  | schedWakeup current woken =>
    simp only [step, traceSchedWakeup, recorded, List.foldl_nil]
    split
    · split <;> simp [BpfHash.keys_replaceElem]
    · rfl

theorem step_pidsMatch (s : State) (e : Event) (h : PidsMatch s.taskMonitor) :
    PidsMatch (step s e).taskMonitor := by
  cases e with
  | schedSwitch cpu prev next =>
    exact recordTask_pidsMatch _ _ _ _ _ (recordTask_pidsMatch _ _ _ _ _ h)
  | schedWakeup current woken =>
    simp only [step, traceSchedWakeup]
    split
    · split
      · rename_i stats hs
        intro k st hk
        rw [BpfHash.lookupElem_replaceElem] at hk
        split at hk
        · rename_i hkp
          cases hk
          exact (h _ stats hs).trans hkp.1.symm
        · exact h k st hk
      · exact h
    · exact h

theorem run_keys (s : State) (es : List Event) :
    BpfHash.keys (run s es).taskMonitor =
      (es.flatMap recorded).foldl (BpfHash.admitKey maxTasks) (BpfHash.keys s.taskMonitor) := by
  induction es generalizing s with
  | nil => rfl
  | cons e es ih =>
    show BpfHash.keys (run (step s e) es).taskMonitor = _
    rw [ih, step_keys, List.flatMap_cons, List.foldl_append]

theorem run_pidsMatch (s : State) (es : List Event) (h : PidsMatch s.taskMonitor) :
    PidsMatch (run s es).taskMonitor := by
  induction es generalizing s with
  | nil => exact h
  | cons e es ih => exact ih (step s e) (step_pidsMatch s e h)

/-- From an empty `task_monitor`, over any run: each nonzero thread id a switch names is
stored once, in the order first seen, up to 1024 entries; an id is missing only if the map
is full; and every entry's `pid` is its key. -/
theorem run_taskMonitor (usage : Nat → BitVec 64) (es : List Event) :
    let m := (run ⟨[], usage⟩ es).taskMonitor
    BpfHash.keys m = (es.flatMap recorded).foldl (BpfHash.admitKey maxTasks) [] ∧
      (BpfHash.keys m).Nodup ∧ m.length ≤ maxTasks ∧
      (∀ pid ∈ es.flatMap recorded, (BpfHash.lookupElem m pid).isSome ∨ m.length = maxTasks) ∧
      PidsMatch m := by
  intro m
  have hk : BpfHash.keys m = (es.flatMap recorded).foldl (BpfHash.admitKey maxTasks) [] :=
    run_keys ⟨[], usage⟩ es
  have hl : (BpfHash.keys m).length = m.length := List.length_map _ _
  obtain ⟨hnd, hlen, hmem⟩ :=
    BpfHash.foldl_admitKey maxTasks [] (es.flatMap recorded) List.nodup_nil (Nat.zero_le _)
  rw [← hk] at hnd hlen hmem
  refine ⟨hk, hnd, hl ▸ hlen, fun pid hp => ?_, run_pidsMatch _ es fun _ _ h => by cases h⟩
  rcases hmem pid hp with h | h
  · exact .inl ((BpfHash.lookupElem_isSome_iff _ _).2 h)
  · exact .inr (hl ▸ h)

/-! ## Names and wakeups credited to the wrong task -/

/-- On CPU 0 thread 10 (`a`, process 10) is switched out for thread 20 (`b`); then thread 11
(`c`, also of process 10) wakes thread 20. Entry 20 is named `a`, and the wakeup of thread
20 is counted in entry 10. -/
theorem monitor_misattributes :
    let a : Thread := ⟨10, 10, ['a']⟩
    let b : Thread := ⟨20, 20, ['b']⟩
    let c : Thread := ⟨11, 10, ['c']⟩
    let s := run ⟨[], fun _ => 0⟩ [.schedSwitch 0 a b, .schedWakeup c b]
    BpfHash.lookupElem s.taskMonitor 20 = some ⟨1, 0, 20, 0, ['a']⟩ ∧
      BpfHash.lookupElem s.taskMonitor 10 = some ⟨1, 1, 10, 0, ['a']⟩ := by
  decide

end CxlScheduler.Monitoring
