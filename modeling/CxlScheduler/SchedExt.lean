import CxlScheduler.Vtime

set_option autoImplicit false

/-!
# The sched_ext host

What the BPF schedulers call but do not implement: the task fields they read, the
dispatch queues (DSQs) and the kfuncs that fill and drain them. A vtime insertion goes in
front of the first entry whose vtime is later, so a queue filled only that way yields the
minimum vtime first and is FIFO among equal vtimes; a plain insertion appends at the tail.
A move to a local DSQ takes the first task allowed on the CPU.
-/
namespace CxlScheduler

/-- The host constant `SCX_SLICE_DFL` (20 ms in the kernel headers, which are not part
of this repository). The schedulers only need it to be small. -/
structure ScxConsts where
  sliceDfl : BitVec 64
  sliceDfl_le : sliceDfl.toNat ≤ 2 ^ 56

def ScxConsts.kernel : ScxConsts := ⟨20000000#64, by decide⟩

/-- The fields of `struct task_struct` that the callbacks read. `comm` holds the bytes
before the terminating NUL. -/
structure TaskStruct where
  comm : List Char
  dsqVtime : BitVec 64
  slice : BitVec 64
  weight : BitVec 32
  cpusPtr : Nat → Bool
  mm : Bool
  vruntime : BitVec 64
  sumExecRuntime : BitVec 64

/-- `comm[i]` of the 16-byte buffer that `bpf_probe_read_kernel_str` fills. -/
def TaskStruct.commAt (p : TaskStruct) (i : Nat) : Char := p.comm.getD i (Char.ofNat 0)

structure DsqEntry where
  pid : Nat
  vtime : Option (BitVec 64)
  deriving DecidableEq, Repr

/-- Whether an entry inserted with vtime `vt` goes in front of `x`. -/
def DsqEntry.after (vt : BitVec 64) (x : DsqEntry) : Bool :=
  match x.vtime with
  | some w => vtimeBefore vt w
  | none => false

/-- `scx_bpf_dsq_insert_vtime` on the queue. -/
def insertVtime (pid : Nat) (vt : BitVec 64) : List DsqEntry → List DsqEntry
  | [] => [⟨pid, some vt⟩]
  | x :: xs => if x.after vt then ⟨pid, some vt⟩ :: x :: xs else x :: insertVtime pid vt xs

/-- The insertions an `enqueue` callback asks of the host. -/
inductive Kfunc
  | dsqInsert (pid dsqId : Nat) (slice : BitVec 64)
  | dsqInsertVtime (pid dsqId : Nat) (slice vtime : BitVec 64)
  deriving DecidableEq, Repr

def Kfunc.pid : Kfunc → Nat
  | .dsqInsert pid .. | .dsqInsertVtime pid .. => pid

def Kfunc.dsqId : Kfunc → Nat
  | .dsqInsert _ id _ | .dsqInsertVtime _ id .. => id

/-- The host: tasks, user DSQs (`none` until created), what was moved to the CPUs'
local DSQs as `(cpu, pid)` in order, and the idle CPUs. -/
structure Host where
  tasks : Nat → TaskStruct
  dsqs : Nat → Option (List DsqEntry)
  localDsq : List (Nat × Nat)
  idle : Nat → Bool

namespace Host

/-- The host before a scheduler is attached: no user DSQ, nothing dispatched, every CPU
idle. -/
def boot (tasks : Nat → TaskStruct) : Host := ⟨tasks, fun _ => none, [], fun _ => true⟩

def setTask (h : Host) (pid : Nat) (p : TaskStruct) : Host :=
  { h with tasks := Function.update h.tasks pid p }

def setDsq (h : Host) (id : Nat) (q : List DsqEntry) : Host :=
  { h with dsqs := Function.update h.dsqs id (some q) }

/-- `scx_bpf_create_dsq`: `0`, or `-EEXIST` for an id already in use. -/
def createDsq (h : Host) (id : Nat) : Host × Int :=
  match h.dsqs id with
  | some _ => (h, -17)
  | none => (h.setDsq id [], 0)

/-- `scx_bpf_test_and_clear_cpu_idle`. -/
def testAndClearCpuIdle (h : Host) (cpu : Nat) : Host × Bool :=
  ({ h with idle := Function.update h.idle cpu false }, h.idle cpu)

/-- The effect of one insertion. It sets the task's slice; the vtime insertion also makes
`vtime` the task's `dsq_vtime`. -/
def call (h : Host) : Kfunc → Host
  | .dsqInsert pid id slice =>
    match h.dsqs id with
    | some q => (h.setTask pid { h.tasks pid with slice }).setDsq id (q ++ [⟨pid, none⟩])
    | none => h
  | .dsqInsertVtime pid id slice vtime =>
    match h.dsqs id with
    | some q =>
      (h.setTask pid { h.tasks pid with slice, dsqVtime := vtime }).setDsq id
        (insertVtime pid vtime q)
    | none => h

def calls (h : Host) (ks : List Kfunc) : Host := ks.foldl call h

/-- `scx_bpf_dsq_insert` whose flags ask for the head of the queue (`SCX_ENQ_HEAD`): the
task goes in front of the FIFO queue instead of behind it. -/
def dsqInsertHead (h : Host) (pid id : Nat) (slice : BitVec 64) : Host :=
  match h.dsqs id with
  | some q => (h.setTask pid { h.tasks pid with slice }).setDsq id (⟨pid, none⟩ :: q)
  | none => h

/-- The first entry `ok` accepts, with the queue it leaves. -/
def pickFirst (ok : DsqEntry → Bool) : List DsqEntry → Option (DsqEntry × List DsqEntry)
  | [] => none
  | e :: q => if ok e then some (e, q) else (pickFirst ok q).map fun r => (r.1, e :: r.2)

/-- `scx_bpf_dsq_move_to_local` on `cpu`: the kernel walks the queue from its head and
moves the first task whose `cpus_ptr` allows `cpu`, skipping the others. -/
def moveToLocal (h : Host) (cpu id : Nat) : Host × Bool :=
  match h.dsqs id with
  | some q =>
    match pickFirst (fun e => (h.tasks e.pid).cpusPtr cpu) q with
    | some (e, q') => ({ h.setDsq id q' with localDsq := h.localDsq ++ [(cpu, e.pid)] }, true)
    | none => (h, false)
  | none => (h, false)

@[simp] theorem setTask_tasks (h : Host) (pid : Nat) (p : TaskStruct) :
    (h.setTask pid p).tasks = Function.update h.tasks pid p := rfl

@[simp] theorem setTask_dsqs (h : Host) (pid : Nat) (p : TaskStruct) :
    (h.setTask pid p).dsqs = h.dsqs := rfl

@[simp] theorem setTask_localDsq (h : Host) (pid : Nat) (p : TaskStruct) :
    (h.setTask pid p).localDsq = h.localDsq := rfl

@[simp] theorem setDsq_dsqs (h : Host) (id : Nat) (q : List DsqEntry) :
    (h.setDsq id q).dsqs = Function.update h.dsqs id (some q) := rfl

@[simp] theorem setDsq_tasks (h : Host) (id : Nat) (q : List DsqEntry) :
    (h.setDsq id q).tasks = h.tasks := rfl

@[simp] theorem setDsq_localDsq (h : Host) (id : Nat) (q : List DsqEntry) :
    (h.setDsq id q).localDsq = h.localDsq := rfl

theorem pickFirst_some {ok : DsqEntry → Bool} {q q' : List DsqEntry} {e : DsqEntry}
    (h : pickFirst ok q = some (e, q')) :
    ∃ pre post, q = pre ++ e :: post ∧ q' = pre ++ post ∧ ok e = true ∧ ∀ x ∈ pre, ok x = false := by
  induction q generalizing q' with
  | nil => cases h
  | cons x q ih =>
    simp only [pickFirst] at h
    split_ifs at h with hx
    · cases h
      exact ⟨[], q, rfl, rfl, hx, by simp⟩
    · obtain ⟨⟨e', q''⟩, hp, he⟩ := Option.map_eq_some'.1 h
      cases he
      obtain ⟨pre, post, rfl, rfl, he, hpre⟩ := ih hp
      exact ⟨x :: pre, post, rfl, rfl, he, by simpa [hx] using hpre⟩

theorem pickFirst_none {ok : DsqEntry → Bool} {q : List DsqEntry} (h : pickFirst ok q = none) :
    ∀ x ∈ q, ok x = false := by
  induction q with
  | nil => simp
  | cons x q ih =>
    simp only [pickFirst] at h
    split_ifs at h with hx
    simpa [hx] using ih (Option.map_eq_none'.1 h)

/-- What a move does: nothing, when no queued task may run on `cpu`; otherwise it takes
the first one that may out of the queue and appends it to the local DSQs. -/
theorem moveToLocal_cases (h : Host) (cpu id : Nat) :
    (h.moveToLocal cpu id = (h, false) ∧
        ∀ q, h.dsqs id = some q → ∀ x ∈ q, (h.tasks x.pid).cpusPtr cpu = false) ∨
      ∃ pre e post, h.dsqs id = some (pre ++ e :: post) ∧
        (∀ x ∈ pre, (h.tasks x.pid).cpusPtr cpu = false) ∧ (h.tasks e.pid).cpusPtr cpu = true ∧
        h.moveToLocal cpu id =
          ({ h.setDsq id (pre ++ post) with localDsq := h.localDsq ++ [(cpu, e.pid)] }, true) := by
  unfold moveToLocal
  split
  · rename_i q hq
    split
    · rename_i e q' hp
      obtain ⟨pre, post, rfl, rfl, he, hpre⟩ := pickFirst_some hp
      exact .inr ⟨pre, e, post, hq, hpre, he, rfl⟩
    · rename_i hp
      exact .inl ⟨rfl, fun q' hq' => by cases hq.symm.trans hq'; exact pickFirst_none hp⟩
  · rename_i hq
    exact .inl ⟨rfl, fun q' hq' => by rw [hq] at hq'; cases hq'⟩

@[simp] theorem moveToLocal_tasks (h : Host) (cpu id : Nat) :
    (h.moveToLocal cpu id).1.tasks = h.tasks := by
  rcases moveToLocal_cases h cpu id with ⟨hm, -⟩ | ⟨_, _, _, -, -, -, hm⟩ <;> rw [hm]
  rfl

@[simp] theorem testAndClearCpuIdle_tasks (h : Host) (cpu : Nat) :
    (h.testAndClearCpuIdle cpu).1.tasks = h.tasks := rfl

@[simp] theorem testAndClearCpuIdle_dsqs (h : Host) (cpu : Nat) :
    (h.testAndClearCpuIdle cpu).1.dsqs = h.dsqs := rfl

@[simp] theorem testAndClearCpuIdle_localDsq (h : Host) (cpu : Nat) :
    (h.testAndClearCpuIdle cpu).1.localDsq = h.localDsq := rfl

@[simp] theorem createDsq_tasks (h : Host) (id : Nat) : (h.createDsq id).1.tasks = h.tasks := by
  unfold createDsq; split <;> rfl

theorem call_dsqInsert_dsqVtime (h : Host) (pid id : Nat) (slice : BitVec 64) (q : Nat) :
    ((h.call (.dsqInsert pid id slice)).tasks q).dsqVtime = (h.tasks q).dsqVtime := by
  simp only [call]
  split
  · by_cases hq : q = pid
    · subst hq; simp
    · simp [Function.update_noteq hq]
  · rfl

theorem call_dsqInsertVtime_dsqVtime (h : Host) (pid id : Nat) (slice vt : BitVec 64) (q : Nat) :
    ((h.call (.dsqInsertVtime pid id slice vt)).tasks q).dsqVtime =
      if q = pid ∧ (h.dsqs id).isSome then vt else (h.tasks q).dsqVtime := by
  simp only [call]
  split <;> rename_i hd
  · by_cases hq : q = pid
    · subst hq; simp [hd]
    · simp [Function.update_noteq hq, hq]
  · simp [hd]

end Host

theorem insertVtime_perm (pid : Nat) (vt : BitVec 64) (q : List DsqEntry) :
    List.Perm ((insertVtime pid vt q).map DsqEntry.pid) (pid :: q.map DsqEntry.pid) := by
  induction q with
  | nil => rfl
  | cons x xs ih =>
    unfold insertVtime
    split
    · rfl
    · exact (ih.cons x.pid).trans (List.Perm.swap pid x.pid _)

theorem insertVtime_keyed (pid : Nat) (vt : BitVec 64) (q : List DsqEntry)
    (hq : ∀ e ∈ q, e.vtime.isSome) : ∀ e ∈ insertVtime pid vt q, e.vtime.isSome := by
  induction q with
  | nil => simp [insertVtime]
  | cons x xs ih =>
    unfold insertVtime
    split
    · simpa using hq
    · rw [List.forall_mem_cons] at hq ⊢
      exact ⟨hq.1, ih hq.2⟩

end CxlScheduler
