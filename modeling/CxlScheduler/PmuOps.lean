import CxlScheduler.PmuDamonInvariant

set_option autoImplicit false

/-!
# The callbacks of `cxl_pmu.bpf.c`

`cxl_ops` of `cxl_pmu.bpf.c` as a state machine over the host and the `damon_data` map.
`cxl_enqueue` inserts nothing, its one insertion being commented out; `cxl_dispatch`
moves the head of `FALLBACK_DSQ_ID` to the local DSQ, `cxl_init` creates that queue, and
the other callbacks do nothing. No callback calls `update_damon_data`: an `observe`
event is one call of it, with the task and the clock reading it is given.
-/
namespace CxlScheduler.Pmu

def fallbackDsqId : Nat := 0

structure State where
  host : Host
  damonData : List (Nat × MemoryAccessPattern)

def State.boot (tasks : Nat → TaskStruct) : State := ⟨Host.boot tasks, []⟩

/-- The insertion is commented out, so no kfunc is called. -/
def cxlEnqueue (s : State) (_pid : Nat) : State × List Kfunc := (s, [])

def cxlDispatch (s : State) (cpu : Nat) : State :=
  { s with host := (s.host.moveToLocal cpu fallbackDsqId).1 }

def cxlInit (s : State) : State × Int :=
  let (h, r) := s.host.createDsq fallbackDsqId
  ({ s with host := h }, r)

inductive Event
  | selectCpu (pid prevCpu : Nat)
  | enqueue (pid : Nat)
  | dispatch (cpu : Nat)
  | running (pid : Nat)
  | stopping (pid : Nat)
  | initTask (pid : Nat)
  | exitTask (pid : Nat)
  | observe (pid : Nat) (p : TaskStruct) (currentTime : BitVec 64)

/-- `cxl_select_cpu` (which returns -1), `cxl_running`, `cxl_stopping`, `cxl_init_task`
(which returns 0) and `cxl_exit_task` change nothing. -/
def step (s : State) : Event → State
  | .enqueue pid =>
    let r := cxlEnqueue s pid
    { r.1 with host := r.1.host.calls r.2 }
  | .dispatch cpu => cxlDispatch s cpu
  | .observe pid p t => { s with damonData := updateDamonData s.damonData pid p t }
  | .selectCpu .. | .running _ | .stopping _ | .initTask _ | .exitTask _ => s

def run (s : State) (es : List Event) : State := es.foldl step s

@[simp] theorem run_nil (s : State) : run s [] = s := rfl

@[simp] theorem run_cons (s : State) (e : Event) (es : List Event) :
    run s (e :: es) = run (step s e) es := rfl

/-! ## Enqueued tasks are lost -/

/-- No dispatch queue holds a task and no task was moved to a local DSQ. -/
structure NothingQueued (h : Host) : Prop where
  dsqs_empty : ∀ id q, h.dsqs id = some q → q = []
  localDsq_empty : h.localDsq = []

theorem cxlInit_nothingQueued (s : State) (h : NothingQueued s.host) :
    NothingQueued (cxlInit s).1.host := by
  simp only [cxlInit, Host.createDsq]
  split
  · exact h
  · refine ⟨fun id q hq => ?_, h.localDsq_empty⟩
    by_cases hid : id = fallbackDsqId
    · subst hid; simpa using hq.symm
    · exact h.dsqs_empty id q (by simpa [Function.update_noteq hid] using hq)

theorem step_nothingQueued (s : State) (e : Event) (h : NothingQueued s.host) :
    NothingQueued (step s e).host := by
  cases e with
  | dispatch cpu =>
    rcases Host.moveToLocal_cases s.host cpu fallbackDsqId with ⟨hm, -⟩ | ⟨pre, x, post, hq, -, -, -⟩
    · simpa [step, cxlDispatch, hm] using h
    · simpa using h.dsqs_empty _ _ hq
  | _ => exact h

/-- From boot and `cxl_init`, over any run, no task is ever held in a dispatch queue or
moved to a local DSQ: every task `cxl_enqueue` receives is dropped. -/
theorem run_nothingQueued (tasks : Nat → TaskStruct) (es : List Event) :
    NothingQueued (run (cxlInit (State.boot tasks)).1 es).host := by
  suffices ∀ s, NothingQueued s.host → NothingQueued (run s es).host from
    this _ (cxlInit_nothingQueued _ ⟨fun _ _ h => (nomatch h), rfl⟩)
  induction es with
  | nil => exact fun _ h => h
  | cons e es ih => exact fun s h => ih _ (step_nothingQueued s e h)

/-- `cxl_init` succeeds; task 1 is enqueued and CPU 0 dispatches: the queue `cxl_dispatch`
drains is empty and nothing reaches a CPU. -/
theorem cxlEnqueue_drops_task :
    let s : State × Int := cxlInit (State.boot fun _ => ⟨['t'], 0, 0, 100, fun _ => true, true, 0, 0⟩)
    s.2 = 0 ∧ (run s.1 [.enqueue 1, .dispatch 0]).host.dsqs fallbackDsqId = some [] ∧
      (run s.1 [.enqueue 1, .dispatch 0]).host.localDsq = [] := by
  intro s
  have h := run_nothingQueued (fun _ => ⟨['t'], 0, 0, 100, fun _ => true, true, 0, 0⟩) [.enqueue 1, .dispatch 0]
  obtain ⟨q, hq⟩ : ∃ q, (run s.1 [.enqueue 1, .dispatch 0]).host.dsqs fallbackDsqId = some q := ⟨_, rfl⟩
  exact ⟨rfl, hq.trans (congrArg some (h.dsqs_empty _ _ hq)), h.localDsq_empty⟩

/-! ## `damon_data` entries outlive their tasks -/

/-- The observations an event list makes of pid `k`, in order. -/
def observationsOf (k : Nat) : List Event → List (TaskStruct × BitVec 64)
  | [] => []
  | .observe pid p t :: es => if pid = k then (p, t) :: observationsOf k es else observationsOf k es
  | _ :: es => observationsOf k es

theorem observationsOf_cons (k : Nat) (e : Event) (es : List Event) :
    observationsOf k (e :: es) = observationsOf k [e] ++ observationsOf k es := by
  cases e with
  | observe pid p t => by_cases hp : pid = k <;> simp [observationsOf, hp]
  | _ => rfl

theorem step_entry (s : State) (e : Event) (k : Nat) (pattern : MemoryAccessPattern)
    (hk : BpfHash.lookupElem s.damonData k = some pattern) :
    BpfHash.lookupElem (step s e).damonData k =
      some ((observationsOf k [e]).foldl (fun q o => updatePattern q o.1 o.2) pattern) := by
  cases e with
  | observe pid p t =>
    simp only [step, observationsOf]
    by_cases hp : pid = k
    · subst hp; simp [updateDamonData_present _ _ _ _ _ hk]
    · simp [updateDamonData_other _ _ _ _ _ (Ne.symm hp), hp, hk]
  | _ => exact hk

/-- Once pid `k` has an entry, nothing removes or resets it: over any run it is the stored
pattern updated by each later observation of pid `k`, in order, whichever task made it. -/
theorem run_damonData_entry (s : State) (es : List Event) (k : Nat) (pattern : MemoryAccessPattern)
    (hk : BpfHash.lookupElem s.damonData k = some pattern) :
    BpfHash.lookupElem (run s es).damonData k =
      some ((observationsOf k es).foldl (fun q o => updatePattern q o.1 o.2) pattern) := by
  induction es generalizing s pattern with
  | nil => simpa using hk
  | cons e es ih =>
    rw [run_cons, ih _ _ (step_entry s e k pattern hk), observationsOf_cons k e es, List.foldl_append]

theorem run_damonData_entry_reused :
    let s : State := ⟨Host.boot fun _ => ⟨[], 0, 0, 100, fun _ => true, true, 0, 0⟩, [(7, initialPattern 1)]⟩
    let es : List Event :=
      [.exitTask 7, .initTask 7, .observe 7 ⟨['b'], 0, 0, 100, fun _ => true, true, 0, 1000⟩ 3]
    BpfHash.lookupElem s.damonData 7 = some (initialPattern 1) ∧
      BpfHash.lookupElem (run s es).damonData 7 =
        some ((observationsOf 7 es).foldl (fun q o => updatePattern q o.1 o.2) (initialPattern 1)) :=
  ⟨by decide, run_damonData_entry _ _ 7 _ (by decide)⟩

/-- The state a pattern is in right after its task's first observation. -/
def IsNeutral (pattern : MemoryAccessPattern) : Prop :=
  pattern.localityScore = 50 ∧ pattern.ioPattern = .unknown ∧ pattern.readBytes = 0 ∧
    pattern.writeBytes = 0 ∧ pattern.nrAccesses = 0 ∧ pattern.totalAccessTime = 0

instance : DecidablePred IsNeutral := fun _ => inferInstanceAs (Decidable (_ ∧ _))

/-- Task `a` with pid 7 is observed twice and exits after 5 ms of runtime; task `b` reuses
pid 7 and is observed once. Its entry is `a`'s, updated: 5000 read bytes, read-heavy,
`total_access_time` 5 ms, score 55. -/
theorem damonData_pid_reuse :
    let a : TaskStruct := ⟨['a'], 0, 0, 100, fun _ => true, true, 0, 5000000⟩
    let b : TaskStruct := ⟨['b'], 0, 0, 100, fun _ => true, true, 0, 1000⟩
    let s := run (cxlInit (State.boot fun _ => b)).1
      [.initTask 7, .observe 7 a 1, .observe 7 a 2, .exitTask 7, .initTask 7, .observe 7 b 3]
    ¬ ∀ pattern, BpfHash.lookupElem s.damonData 7 = some pattern → IsNeutral pattern := by
  intro a b s h
  exact absurd (h ⟨2, 5000000, 3, 55, 0, 5000, 0, .readHeavy⟩ (by decide)) (by decide)

/-! ## `damon_data` fills up -/

/-- The pid an event passes to `update_damon_data`, if any. -/
def observed : Event → List Nat
  | .observe pid .. => [pid]
  | _ => []

theorem run_damonData_keys (s : State) (es : List Event) :
    BpfHash.keys (run s es).damonData =
      (es.flatMap observed).foldl (BpfHash.admitKey maxTasks) (BpfHash.keys s.damonData) := by
  induction es generalizing s with
  | nil => rfl
  | cons e es ih =>
    rw [run_cons, ih, List.flatMap_cons, List.foldl_append]
    cases e <;> first
      | rfl
      | simp [step, observed, keys_updateDamonData]

/-- From `cxl_init`, over any run: no pid has two entries and there are at most 8192; a
pid observed has no entry only if the map is full; and as nothing deletes an entry, either
the map still has room or no later run adds a key. -/
theorem run_damonData_capacity (tasks : Nat → TaskStruct) (es : List Event) :
    let m := (run (cxlInit (State.boot tasks)).1 es).damonData
    (BpfHash.keys m).Nodup ∧ m.length ≤ maxTasks ∧
      (∀ pid ∈ es.flatMap observed, (BpfHash.lookupElem m pid).isSome ∨ m.length = maxTasks) ∧
      (m.length < maxTasks ∨ ∀ es' : List Event,
        BpfHash.keys (run (run (cxlInit (State.boot tasks)).1 es) es').damonData = BpfHash.keys m) := by
  intro m
  have hk : BpfHash.keys m = (es.flatMap observed).foldl (BpfHash.admitKey maxTasks) [] :=
    run_damonData_keys _ es
  have hl : (BpfHash.keys m).length = m.length := List.length_map _ _
  obtain ⟨hnd, hlen, hmem⟩ :=
    BpfHash.foldl_admitKey maxTasks [] (es.flatMap observed) List.nodup_nil (Nat.zero_le _)
  rw [← hk] at hnd hlen hmem
  refine ⟨hnd, hl ▸ hlen, fun pid hp => ?_, ?_⟩
  · rcases hmem pid hp with h | h
    · exact .inl ((BpfHash.lookupElem_isSome_iff _ _).2 h)
    · exact .inr (hl ▸ h)
  · refine (Nat.lt_or_ge m.length maxTasks).imp_right fun hfull es' => ?_
    rw [run_damonData_keys]
    exact BpfHash.foldl_admitKey_full maxTasks _ _ (hl ▸ hfull)

end CxlScheduler.Pmu
