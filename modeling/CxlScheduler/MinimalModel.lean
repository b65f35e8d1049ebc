import CxlScheduler.SchedExt

set_option autoImplicit false

/-!
# `cxl_pmu_minimal.bpf.c`

The callbacks of the minimal scheduler over an explicit state: the BPF globals
(`global_vtime`, the task storage `task_ctx_stor`) and the host. `enqueue` returns the
insertion it makes; the system `step` applies it to the host. Whether a task-storage
lookup with `BPF_LOCAL_STORAGE_GET_F_CREATE` returns NULL is the environment's choice
`ok`, so the results below cover both paths.
-/
namespace CxlScheduler.Minimal

def fallbackDsqId : Nat := 0

structure TaskCtx where
  isVectordb : Bool
  isKworker : Bool
  deriving DecidableEq, Repr

structure State where
  globalVtime : BitVec 64
  taskCtxStor : Nat → Option TaskCtx
  host : Host

/-- `global_vtime` starts at zero and no task has a context yet. -/
def State.init (h : Host) : State := ⟨0, fun _ => none, h⟩

/-- `bpf_task_storage_get(&task_ctx_stor, p, 0, BPF_LOCAL_STORAGE_GET_F_CREATE)`. -/
def taskStorageGet (stor : Nat → Option TaskCtx) (pid : Nat) (ok : Bool) : Option TaskCtx :=
  if ok then some ((stor pid).getD ⟨false, false⟩) else none

def isVectordbTask (p : TaskStruct) : Bool :=
  p.commAt 0 == 'v' || p.commAt 0 == 'f' || p.commAt 0 == 'p'

def isKworkerTask (p : TaskStruct) : Bool :=
  p.commAt 0 == 'k' && p.commAt 1 == 'w'

/-- The type detection of `cxl_enqueue`, done while neither flag is set. -/
def classify (tctx : TaskCtx) (p : TaskStruct) : TaskCtx :=
  if !tctx.isVectordb && !tctx.isKworker then ⟨isVectordbTask p, isKworkerTask p⟩ else tctx

/-- The vtime `cxl_enqueue` passes to `scx_bpf_dsq_insert_vtime`. -/
def enqueueVtime (slice globalVtime vtime : BitVec 64) (tctx : TaskCtx) : BitVec 64 :=
  let vtime := cmax vtime (globalVtime - slice)
  let vtime := if tctx.isVectordb then vtime - slice else vtime
  if tctx.isKworker then vtime + slice else vtime

/-- The context `cxl_enqueue` works with when the lookup succeeds. -/
def enqueueCtx (s : State) (pid : Nat) : TaskCtx :=
  classify ((s.taskCtxStor pid).getD ⟨false, false⟩) (s.host.tasks pid)

/-- `bpf_cpumask_test_cpu(cpu, p->cpus_ptr) && scx_bpf_test_and_clear_cpu_idle(cpu)`. -/
def claimIdle (h : Host) (p : TaskStruct) (cpu : Nat) : Host × Bool :=
  if p.cpusPtr cpu then h.testAndClearCpuIdle cpu else (h, false)

def cxlSelectCpu (s : State) (pid prevCpu : Nat) : Host × Nat :=
  match s.taskCtxStor pid with
  | none => (s.host, prevCpu)
  | some tctx =>
    if tctx.isVectordb then
      let r0 := claimIdle s.host (s.host.tasks pid) 0
      if r0.2 then (r0.1, 0) else
        let r1 := claimIdle r0.1 (s.host.tasks pid) 1
        if r1.2 then (r1.1, 1) else (r1.1, prevCpu)
    else (s.host, prevCpu)

def cxlEnqueue (K : ScxConsts) (s : State) (pid : Nat) (ok : Bool) : State × List Kfunc :=
  let p := s.host.tasks pid
  match taskStorageGet s.taskCtxStor pid ok with
  | none => (s, [.dsqInsert pid fallbackDsqId K.sliceDfl])
  | some tctx =>
    let tctx := classify tctx p
    ({ s with taskCtxStor := Function.update s.taskCtxStor pid (some tctx) },
      [.dsqInsertVtime pid fallbackDsqId K.sliceDfl
        (enqueueVtime K.sliceDfl s.globalVtime p.dsqVtime tctx)])

def cxlDispatch (s : State) (cpu : Nat) : State :=
  { s with host := (s.host.moveToLocal cpu fallbackDsqId).1 }

def cxlRunning (s : State) (pid : Nat) : State :=
  let p := s.host.tasks pid
  if vtimeBefore s.globalVtime p.dsqVtime then { s with globalVtime := p.dsqVtime } else s

/-- The charge `cxl_stopping` adds to `dsq_vtime`. -/
def stoppingCharge (K : ScxConsts) (p : TaskStruct) : BitVec 64 :=
  (K.sliceDfl - p.slice) * 100 / p.weight.setWidth 64

def cxlStopping (K : ScxConsts) (s : State) (pid : Nat) : State :=
  let p := s.host.tasks pid
  { s with host := s.host.setTask pid { p with dsqVtime := p.dsqVtime + stoppingCharge K p } }

/-- `cxl_init_task`: `0`, or `-ENOMEM` when the context cannot be created. -/
def cxlInitTask (s : State) (pid : Nat) (ok : Bool) : State × Int :=
  match taskStorageGet s.taskCtxStor pid ok with
  | none => (s, -12)
  | some _ => ({ s with taskCtxStor := Function.update s.taskCtxStor pid (some ⟨false, false⟩) }, 0)

def cxlInit (s : State) : State × Int :=
  let (h, r) := s.host.createDsq fallbackDsqId
  ({ s with host := h }, r)

/-- One callback invocation by the host; `ok` is the task-storage outcome. Under sched_ext
`cxl_init_task` creates the storage before a task's first enqueue, so `enqueue _ false`
stands for a task whose storage that creation did not give it. -/
inductive Event
  | selectCpu (pid prevCpu : Nat)
  | enqueue (pid : Nat) (ok : Bool)
  | dispatch (cpu : Nat)
  | running (pid : Nat)
  | stopping (pid : Nat)
  | initTask (pid : Nat) (ok : Bool)
  | exitTask (pid : Nat)

def step (K : ScxConsts) (s : State) : Event → State
  | .selectCpu pid prevCpu => { s with host := (cxlSelectCpu s pid prevCpu).1 }
  | .enqueue pid ok =>
    let r := cxlEnqueue K s pid ok
    { r.1 with host := r.1.host.calls r.2 }
  | .dispatch cpu => cxlDispatch s cpu
  | .running pid => cxlRunning s pid
  | .stopping pid => cxlStopping K s pid
  | .initTask pid ok => (cxlInitTask s pid ok).1
  | .exitTask _ => s

def run (K : ScxConsts) (s : State) (es : List Event) : State := es.foldl (step K) s

@[simp] theorem run_nil (K : ScxConsts) (s : State) : run K s [] = s := rfl

@[simp] theorem run_cons (K : ScxConsts) (s : State) (e : Event) (es : List Event) :
    run K s (e :: es) = run K (step K s e) es := rfl

theorem cxlEnqueue_none (K : ScxConsts) (s : State) (pid : Nat) :
    cxlEnqueue K s pid false = (s, [.dsqInsert pid fallbackDsqId K.sliceDfl]) := rfl

theorem cxlEnqueue_some (K : ScxConsts) (s : State) (pid : Nat) :
    cxlEnqueue K s pid true =
      ({ s with taskCtxStor := Function.update s.taskCtxStor pid (some (enqueueCtx s pid)) },
        [.dsqInsertVtime pid fallbackDsqId K.sliceDfl
          (enqueueVtime K.sliceDfl s.globalVtime (s.host.tasks pid).dsqVtime (enqueueCtx s pid))]) :=
  rfl

/-- Every enqueue, on either path, makes exactly one insertion, of the task, into the
queue `cxl_dispatch` drains; it changes neither the clock nor the host. -/
theorem cxlEnqueue_spec (K : ScxConsts) (s : State) (pid : Nat) (ok : Bool) :
    ∃ k, (cxlEnqueue K s pid ok).2 = [k] ∧ k.pid = pid ∧ k.dsqId = fallbackDsqId ∧
      (cxlEnqueue K s pid ok).1.globalVtime = s.globalVtime ∧
      (cxlEnqueue K s pid ok).1.host = s.host := by
  cases ok
  · exact ⟨_, rfl, rfl, rfl, rfl, rfl⟩
  · exact ⟨_, rfl, rfl, rfl, rfl, rfl⟩

theorem claimIdle_frame (h h0 : Host) (p : TaskStruct) (cpu : Nat)
    (hh : h = { h0 with idle := h.idle }) :
    (claimIdle h p cpu).1 = { h0 with idle := (claimIdle h p cpu).1.idle } := by
  unfold claimIdle
  split
  · rw [hh]; rfl
  · exact hh

theorem cxlSelectCpu_frame (s : State) (pid prevCpu : Nat) :
    (cxlSelectCpu s pid prevCpu).1 = { s.host with idle := (cxlSelectCpu s pid prevCpu).1.idle } := by
  unfold cxlSelectCpu
  split
  · rfl
  · have h0 := claimIdle_frame s.host s.host (s.host.tasks pid) 0 rfl
    dsimp only
    split_ifs
    · exact h0
    · exact claimIdle_frame _ _ _ 1 h0
    · exact claimIdle_frame _ _ _ 1 h0
    · rfl

@[simp] theorem cxlSelectCpu_tasks (s : State) (pid prevCpu : Nat) :
    (cxlSelectCpu s pid prevCpu).1.tasks = s.host.tasks := by
  rw [cxlSelectCpu_frame]

@[simp] theorem cxlSelectCpu_dsqs (s : State) (pid prevCpu : Nat) :
    (cxlSelectCpu s pid prevCpu).1.dsqs = s.host.dsqs := by
  rw [cxlSelectCpu_frame]

@[simp] theorem cxlSelectCpu_localDsq (s : State) (pid prevCpu : Nat) :
    (cxlSelectCpu s pid prevCpu).1.localDsq = s.host.localDsq := by
  rw [cxlSelectCpu_frame]

theorem claimIdle_idle_of_false (h : Host) (p : TaskStruct) (cpu : Nat)
    (hf : (claimIdle h p cpu).2 = false) : (claimIdle h p cpu).1.idle = h.idle := by
  unfold claimIdle Host.testAndClearCpuIdle at *
  by_cases ha : p.cpusPtr cpu = true
  · rw [if_pos ha] at hf ⊢
    exact Function.update_eq_self_iff.2 hf.symm
  · simp [ha]

theorem claimIdle_idle_of_true (h : Host) (p : TaskStruct) (cpu : Nat)
    (ht : (claimIdle h p cpu).2 = true) :
    p.cpusPtr cpu = true ∧ h.idle cpu = true ∧
      (claimIdle h p cpu).1.idle = Function.update h.idle cpu false := by
  unfold claimIdle Host.testAndClearCpuIdle at *
  by_cases ha : p.cpusPtr cpu = true
  · rw [if_pos ha] at ht ⊢
    exact ⟨ha, ht, rfl⟩
  · simp [ha] at ht

/-- `cxl_select_cpu` consumes no idle CPU it does not return: the only CPU it can take out
of the idle set is the one it returns, CPU 0 or 1, idle before and allowed for the task. -/
theorem cxlSelectCpu_idle (s : State) (pid prevCpu : Nat) (c : Nat) :
    let r := cxlSelectCpu s pid prevCpu
    r.1.idle c = s.host.idle c ∨
      (c = r.2 ∧ c ≤ 1 ∧ (s.host.tasks pid).cpusPtr c = true ∧ s.host.idle c = true ∧
        r.1.idle c = false) := by
  show (cxlSelectCpu s pid prevCpu).1.idle c = _ ∨ _
  unfold cxlSelectCpu
  split
  · exact .inl rfl
  · dsimp only
    split_ifs with hv h0 h1
    · obtain ⟨ha, hi, he⟩ := claimIdle_idle_of_true _ _ _ h0
      by_cases hc : c = 0
      · subst hc; exact .inr ⟨rfl, by omega, ha, hi, by simp [he]⟩
      · exact .inl (by simp [he, hc])
    · have he0 := claimIdle_idle_of_false _ _ _ (by simpa using h0)
      obtain ⟨ha, hi, he⟩ := claimIdle_idle_of_true _ _ _ h1
      rw [he0] at hi he
      by_cases hc : c = 1
      · subst hc; exact .inr ⟨rfl, le_rfl, ha, hi, by simp [he]⟩
      · exact .inl (by simp [he, hc])
    · have he0 := claimIdle_idle_of_false _ _ _ (by simpa using h0)
      have he1 := claimIdle_idle_of_false _ _ _ (by simpa using h1)
      exact .inl (by rw [he1, he0])
    · exact .inl rfl

theorem step_dsqVtime (K : ScxConsts) (s : State) (e : Event) (q : Nat) :
    ((step K s e).host.tasks q).dsqVtime = (s.host.tasks q).dsqVtime ∨
    (e = .enqueue q true ∧ ((step K s e).host.tasks q).dsqVtime =
      enqueueVtime K.sliceDfl s.globalVtime (s.host.tasks q).dsqVtime (enqueueCtx s q)) ∨
    (e = .stopping q ∧ ((step K s e).host.tasks q).dsqVtime =
      (s.host.tasks q).dsqVtime + stoppingCharge K (s.host.tasks q)) := by
  cases e with
  | selectCpu pid prevCpu => exact .inl (by simp [step])
  | enqueue pid ok =>
    cases ok
    · exact .inl (by simp [step, cxlEnqueue_none, Host.calls, Host.call_dsqInsert_dsqVtime])
    · simp only [step, cxlEnqueue_some, Host.calls, List.foldl, Host.call_dsqInsertVtime_dsqVtime]
      split_ifs with h
      · obtain ⟨rfl, -⟩ := h
        exact .inr (.inl ⟨rfl, rfl⟩)
      · exact .inl rfl
  | dispatch cpu => exact .inl (by simp [step, cxlDispatch])
  | running pid => exact .inl (by simp only [step, cxlRunning]; split <;> rfl)
  | stopping pid =>
    by_cases hq : q = pid
    · subst hq
      exact .inr (.inr ⟨rfl, by simp [step, cxlStopping]⟩)
    · exact .inl (by simp [step, cxlStopping, Function.update_noteq hq])
  | initTask pid ok => exact .inl (by simp only [step, cxlInitTask]; split <;> rfl)
  | exitTask pid => exact .inl rfl

end CxlScheduler.Minimal
