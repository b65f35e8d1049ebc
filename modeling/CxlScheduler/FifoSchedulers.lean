import CxlScheduler.SchedExt

set_option autoImplicit false

/-!
# The FIFO schedulers

`noop.bpf.c`, `cxl_minimal_test.bpf.c`, `test_simple.bpf.c` and
`emergency_scheduler.bpf.c` are one scheduler. `init` creates DSQ 0, `enqueue` inserts the
task into DSQ 0 with `SCX_SLICE_DFL`, and `dispatch` moves the head of DSQ 0 to the CPU.
They differ in `select_cpu` and in the flags of the insertion. `select_cpu` returns CPU 0,
-1 or `prev_cpu`; sched_ext takes a valid CPU as a wake-up hint, which changes nothing the
model keeps, and answers an invalid one, such as `cxl_minimal_test`'s -1, by disabling the
scheduler, after which none of its callbacks runs (`deliver`). `noop` and `cxl_minimal`
insert with flags 0, while `test` and `emergency` pass the kernel's `enq_flags` on, so an
enqueue whose flags ask for the head of the queue goes in front of every waiting task. A
dispatch moves the first waiting task allowed on the dispatching CPU.

Without head insertions, and with tasks allowed on every CPU, DSQ 0 is an exact FIFO over
every run: the tasks moved to a CPU, then those still waiting, are those held before
followed by those enqueued, in order (`run_fifo`), and `k` dispatches move the first `k`
waiting tasks (`run_dispatched`). Conservation holds whatever the flags and the affinities
(`run_perm`), and with head insertions a waiting task can be passed over by every dispatch
(`headFlags_starve`).
-/
namespace CxlScheduler.Fifo

def dsqId : Nat := 0

/-- What tells the four schedulers apart. -/
structure FifoOps where
  /-- The CPU `select_cpu` returns, from `prev_cpu`. -/
  selectCpu : Int → Int
  /-- Whether the insertion's flags ask for the head of the queue, from whether the
  kernel's `enq_flags` do. -/
  enqueueHead : Bool → Bool

/-! `noop_select_cpu` returns CPU 0 and `noop_enqueue` inserts with flags 0;
`cxl_minimal_test.bpf.c`'s `select_cpu` returns -1 and its `enqueue` inserts with flags 0;
`test_select_cpu` and `emergency_select_cpu` return `prev_cpu`, and their `enqueue` passes
`enq_flags` on. -/

def noopOps : FifoOps := ⟨fun _ => 0, fun _ => false⟩

def cxlMinimalOps : FifoOps := ⟨fun _ => -1, fun _ => false⟩

def testOps : FifoOps := ⟨fun prevCpu => prevCpu, fun enqHead => enqHead⟩

def emergencyOps : FifoOps := ⟨fun prevCpu => prevCpu, fun enqHead => enqHead⟩

/-- `scx_bpf_dsq_insert(p, 0, SCX_SLICE_DFL, flags)`; `head` is whether `flags` ask for
the head of the queue. -/
def fifoEnqueue (K : ScxConsts) (h : Host) (pid : Nat) (head : Bool) : Host :=
  if head then h.dsqInsertHead pid dsqId K.sliceDfl else h.call (.dsqInsert pid dsqId K.sliceDfl)

/-- `scx_bpf_dsq_move_to_local(0)`. -/
def fifoDispatch (h : Host) (cpu : Nat) : Host := (h.moveToLocal cpu dsqId).1

/-- `scx_bpf_create_dsq(0, -1)`. -/
def fifoInit (h : Host) : Host × Int := h.createDsq dsqId

/-- A callback invocation; `enqHead` is whether the kernel's `enq_flags` ask for the head
of the queue. `exit` does nothing and is left out. -/
inductive Event
  | selectCpu (pid : Nat) (prevCpu : Int)
  | enqueue (pid : Nat) (enqHead : Bool)
  | dispatch (cpu : Nat)

def step (ops : FifoOps) (K : ScxConsts) (h : Host) : Event → Host
  | .selectCpu .. => h
  | .enqueue pid enqHead => fifoEnqueue K h pid (ops.enqueueHead enqHead)
  | .dispatch cpu => fifoDispatch h cpu

def run (ops : FifoOps) (K : ScxConsts) (h : Host) (es : List Event) : Host := es.foldl (step ops K) h

@[simp] theorem run_nil (ops : FifoOps) (K : ScxConsts) (h : Host) : run ops K h [] = h := rfl

@[simp] theorem run_cons (ops : FifoOps) (K : ScxConsts) (h : Host) (e : Event) (es : List Event) :
    run ops K h (e :: es) = run ops K (step ops K h e) es := rfl

/-- The tasks moved to a CPU, in order. -/
def dispatched (h : Host) : List Nat := h.localDsq.map Prod.snd

/-- The tasks waiting in DSQ 0, head first. -/
def waiting (h : Host) : List Nat := ((h.dsqs dsqId).getD []).map DsqEntry.pid

def enqueued : List Event → List Nat
  | [] => []
  | .enqueue pid _ :: es => pid :: enqueued es
  | _ :: es => enqueued es

def dispatches : List Event → Nat
  | [] => 0
  | .dispatch _ :: es => dispatches es + 1
  | _ :: es => dispatches es

/-- No insertion of the run goes to the head of the queue. -/
def TailOnly (ops : FifoOps) (es : List Event) : Prop :=
  ∀ pid enqHead, Event.enqueue pid enqHead ∈ es → ops.enqueueHead enqHead = false

/-- `ops_cpu_valid`: a CPU id below `nr_cpu_ids`. -/
def cpuValid (nrCpuIds : Nat) (cpu : Int) : Bool := 0 ≤ cpu ∧ cpu < nrCpuIds

/-- Whether the scheduler survives the event: a `select_cpu` that returns an invalid CPU
makes sched_ext report an error and disable it. -/
def Event.keepsAttached (ops : FifoOps) (nrCpuIds : Nat) : Event → Bool
  | .selectCpu _ prevCpu => cpuValid nrCpuIds (ops.selectCpu prevCpu)
  | _ => true

/-- The callbacks sched_ext delivers from the events it sees: all of them up to the one
that disables the scheduler, which runs, and none after it. -/
def deliver (ops : FifoOps) (nrCpuIds : Nat) : List Event → List Event
  | [] => []
  | e :: es => if e.keepsAttached ops nrCpuIds then e :: deliver ops nrCpuIds es else [e]

theorem deliver_sublist (ops : FifoOps) (nrCpuIds : Nat) (es : List Event) :
    (deliver ops nrCpuIds es).Sublist es := by
  induction es with
  | nil => exact .slnil
  | cons e es ih =>
    unfold deliver
    split_ifs
    · exact ih.cons₂ e
    · exact (List.nil_sublist es).cons₂ e

theorem deliver_noop (nrCpuIds : Nat) (hn : 0 < nrCpuIds) (es : List Event) :
    deliver noopOps nrCpuIds es = es := by
  induction es with
  | nil => rfl
  | cons e es ih =>
    have : e.keepsAttached noopOps nrCpuIds = true := by
      cases e <;> simp [Event.keepsAttached, noopOps, cpuValid, hn]
    rw [deliver, if_pos this, ih]

theorem deliver_cxlMinimal (nrCpuIds : Nat) (pid : Nat) (prevCpu : Int) (es : List Event) :
    deliver cxlMinimalOps nrCpuIds (.selectCpu pid prevCpu :: es) = [.selectCpu pid prevCpu] := by
  simp [deliver, Event.keepsAttached, cxlMinimalOps, cpuValid]

def Unpinned (h : Host) : Prop := ∀ pid cpu, (h.tasks pid).cpusPtr cpu = true

/-! ## One callback -/

theorem fifoEnqueue_cpusPtr (K : ScxConsts) (h : Host) (pid : Nat) (head : Bool) (q : Nat) :
    ((fifoEnqueue K h pid head).tasks q).cpusPtr = (h.tasks q).cpusPtr := by
  simp only [fifoEnqueue, Host.dsqInsertHead, Host.call]
  by_cases hq : q = pid
  · subst hq
    split_ifs <;> split <;> simp
  · split_ifs <;> split <;> simp [Function.update_noteq hq]

theorem step_cpusPtr (ops : FifoOps) (K : ScxConsts) (h : Host) (e : Event) (q : Nat) :
    ((step ops K h e).tasks q).cpusPtr = (h.tasks q).cpusPtr := by
  cases e with
  | enqueue pid enqHead => exact fifoEnqueue_cpusPtr K h pid _ q
  | dispatch cpu => simp [step, fifoDispatch]
  | selectCpu => rfl

theorem step_unpinned (ops : FifoOps) (K : ScxConsts) (h : Host) (e : Event) (hpin : Unpinned h) :
    Unpinned (step ops K h e) :=
  fun pid cpu => by rw [step_cpusPtr]; exact hpin pid cpu

section Step

variable (K : ScxConsts) (h : Host) (hq : (h.dsqs dsqId).isSome)
include hq

theorem fifoEnqueue_tail (pid : Nat) :
    dispatched (fifoEnqueue K h pid false) = dispatched h ∧
      waiting (fifoEnqueue K h pid false) = waiting h ++ [pid] ∧
      ((fifoEnqueue K h pid false).dsqs dsqId).isSome := by
  obtain ⟨q, hq⟩ := Option.isSome_iff_exists.1 hq
  simp [fifoEnqueue, Host.call, hq, dispatched, waiting]

theorem fifoEnqueue_head (pid : Nat) :
    dispatched (fifoEnqueue K h pid true) = dispatched h ∧
      waiting (fifoEnqueue K h pid true) = pid :: waiting h ∧
      ((fifoEnqueue K h pid true).dsqs dsqId).isSome := by
  obtain ⟨q, hq⟩ := Option.isSome_iff_exists.1 hq
  simp [fifoEnqueue, Host.dsqInsertHead, hq, dispatched, waiting]

theorem fifoDispatch_perm (cpu : Nat) :
    (dispatched (fifoDispatch h cpu) ++ waiting (fifoDispatch h cpu)).Perm (dispatched h ++ waiting h) ∧
      ((fifoDispatch h cpu).dsqs dsqId).isSome := by
  rcases Host.moveToLocal_cases h cpu dsqId with ⟨hm, -⟩ | ⟨pre, e, post, hd, -, -, hm⟩
  · simp only [fifoDispatch, hm]
    exact ⟨.refl _, hq⟩
  · simp only [fifoDispatch, hm, dispatched, waiting, hd, Host.setDsq_dsqs, Function.update_same,
      Option.getD_some, Option.isSome_some, List.map_append, List.map_cons, List.map_nil,
      List.append_assoc, List.singleton_append, and_true]
    exact List.perm_middle.symm.append_left _

theorem fifoDispatch_spec (cpu : Nat) (hhead : ∀ pid ∈ (waiting h).head?, (h.tasks pid).cpusPtr cpu = true) :
    dispatched (fifoDispatch h cpu) = dispatched h ++ (waiting h).take 1 ∧
      waiting (fifoDispatch h cpu) = (waiting h).drop 1 ∧
      ((fifoDispatch h cpu).dsqs dsqId).isSome := by
  obtain ⟨q, hq⟩ := Option.isSome_iff_exists.1 hq
  simp only [waiting, hq, Option.getD_some, List.head?_map, Option.mem_map] at hhead
  rcases Host.moveToLocal_cases h cpu dsqId with ⟨hm, hnone⟩ | ⟨pre, e, post, hd, hpre, -, hm⟩
  · cases q with
    | nil => simp [fifoDispatch, hm, hq, dispatched, waiting]
    | cons x q =>
      have := hnone _ hq x (List.mem_cons_self _ _)
      rw [hhead x.pid ⟨x, rfl, rfl⟩] at this
      cases this
  · cases pre with
    | nil =>
      cases hq.symm.trans hd
      simp [fifoDispatch, hm, hq, dispatched, waiting]
    | cons x pre =>
      cases hq.symm.trans hd
      have := hpre x (List.mem_cons_self _ _)
      rw [hhead x.pid ⟨x, rfl, rfl⟩] at this
      cases this

end Step

/-! ## Whole runs -/

theorem enqueued_cons (e : Event) (es : List Event) :
    enqueued (e :: es) = enqueued [e] ++ enqueued es := by
  cases e <;> rfl

theorem step_dsq_isSome (ops : FifoOps) (K : ScxConsts) (h : Host) (e : Event)
    (hq : (h.dsqs dsqId).isSome) : ((step ops K h e).dsqs dsqId).isSome := by
  cases e with
  | selectCpu => exact hq
  | enqueue pid enqHead =>
    simp only [step]
    cases ops.enqueueHead enqHead
    · exact (fifoEnqueue_tail K h hq pid).2.2
    · exact (fifoEnqueue_head K h hq pid).2.2
  | dispatch cpu => exact (fifoDispatch_perm h hq cpu).2

theorem step_fifo (ops : FifoOps) (K : ScxConsts) (h : Host) (e : Event)
    (hq : (h.dsqs dsqId).isSome) (hpin : Unpinned h)
    (htail : ∀ pid b, e = .enqueue pid b → ops.enqueueHead b = false) :
    dispatched (step ops K h e) ++ waiting (step ops K h e) = dispatched h ++ waiting h ++ enqueued [e] := by
  cases e with
  | selectCpu => simp [step, enqueued]
  | enqueue pid enqHead =>
    obtain ⟨hd, hw, -⟩ := fifoEnqueue_tail K h hq pid
    simp [step, htail pid enqHead rfl, hd, hw, enqueued]
  | dispatch cpu =>
    obtain ⟨hd, hw, -⟩ := fifoDispatch_spec h hq cpu fun pid _ => hpin pid cpu
    simp only [step, hd, hw, enqueued, List.append_assoc, List.append_nil]
    rw [List.take_append_drop]

theorem step_perm (ops : FifoOps) (K : ScxConsts) (h : Host) (e : Event)
    (hq : (h.dsqs dsqId).isSome) :
    (dispatched (step ops K h e) ++ waiting (step ops K h e)).Perm
      (dispatched h ++ waiting h ++ enqueued [e]) := by
  cases e with
  | selectCpu => simp [step, enqueued]
  | enqueue pid enqHead =>
    cases hb : ops.enqueueHead enqHead
    · obtain ⟨hd, hw, -⟩ := fifoEnqueue_tail K h hq pid
      simp [step, hb, hd, hw, enqueued]
    · obtain ⟨hd, hw, -⟩ := fifoEnqueue_head K h hq pid
      simp only [step, hb, hd, hw, enqueued, List.append_assoc, List.perm_append_left_iff]
      exact (List.perm_append_singleton _ _).symm
  | dispatch cpu => simpa [step, enqueued] using (fifoDispatch_perm h hq cpu).1

/-- Exact FIFO: once DSQ 0 exists, over any run whose insertions all go to the tail and
whose tasks may run on every CPU, the dispatched tasks followed by the waiting ones are
those held before followed by those enqueued, in order. -/
theorem run_fifo (ops : FifoOps) (K : ScxConsts) (h : Host) (es : List Event)
    (hq : (h.dsqs dsqId).isSome) (hpin : Unpinned h) (htail : TailOnly ops es) :
    dispatched (run ops K h es) ++ waiting (run ops K h es) =
      dispatched h ++ waiting h ++ enqueued es := by
  induction es generalizing h with
  | nil => simp [enqueued]
  | cons e es ih =>
    have htail' : TailOnly ops es := fun pid b hm => htail pid b (List.mem_cons_of_mem e hm)
    rw [run_cons, ih _ (step_dsq_isSome ops K h e hq) (step_unpinned ops K h e hpin) htail',
      step_fifo ops K h e hq hpin fun pid b he => htail pid b (he ▸ List.mem_cons_self _ _),
      enqueued_cons e es, List.append_assoc _ (enqueued [e])]

theorem fifoInit_boot (tasks : Nat → TaskStruct) :
    (fifoInit (Host.boot tasks)).2 = 0 ∧ dispatched (fifoInit (Host.boot tasks)).1 = [] ∧
      waiting (fifoInit (Host.boot tasks)).1 = [] ∧
      ((fifoInit (Host.boot tasks)).1.dsqs dsqId).isSome := by
  simp [fifoInit, Host.createDsq, Host.boot, dispatched, waiting]

/-- `init` succeeds on a fresh host, and from then on, for a member whose insertions are
flagged 0 and tasks that may run on every CPU, the callbacks sched_ext delivers move tasks
to the CPUs in the order they were enqueued: what was dispatched, then what waits, is
exactly what was enqueued. -/
theorem boot_run_fifo (ops : FifoOps) (hops : ∀ b, ops.enqueueHead b = false) (K : ScxConsts)
    (tasks : Nat → TaskStruct) (hpin : ∀ pid cpu, (tasks pid).cpusPtr cpu = true) (nrCpuIds : Nat)
    (es : List Event) :
    let h := (fifoInit (Host.boot tasks)).1
    let ds := deliver ops nrCpuIds es
    (fifoInit (Host.boot tasks)).2 = 0 ∧
      dispatched (run ops K h ds) ++ waiting (run ops K h ds) = enqueued ds := by
  obtain ⟨h0, hd, hw, hq⟩ := fifoInit_boot tasks
  have hpin' : Unpinned (fifoInit (Host.boot tasks)).1 := by
    simpa [Unpinned, fifoInit, Host.createDsq, Host.boot] using hpin
  refine ⟨h0, ?_⟩
  rw [run_fifo ops K _ _ hq hpin' fun _ b _ => hops b, hd, hw, List.nil_append, List.nil_append]

theorem boot_run_fifo_noop :
    (∀ b, noopOps.enqueueHead b = false) ∧
      (∀ pid cpu, ((fun _ => ⟨[], 0, 0, 100, fun _ => true, true, 0, 0⟩ : Nat → TaskStruct) pid).cpusPtr cpu = true) ∧
      let h := (fifoInit (Host.boot fun _ => ⟨[], 0, 0, 100, fun _ => true, true, 0, 0⟩)).1
      let ds := deliver noopOps 4 [Event.selectCpu 1 3, .enqueue 1 true, .enqueue 2 false, .dispatch 0]
      (fifoInit (Host.boot fun _ => ⟨[], 0, 0, 100, fun _ => true, true, 0, 0⟩)).2 = 0 ∧
        dispatched (run noopOps ScxConsts.kernel h ds) ++ waiting (run noopOps ScxConsts.kernel h ds) =
          enqueued ds :=
  ⟨fun _ => rfl, fun _ _ => rfl, boot_run_fifo noopOps (fun _ => rfl) ScxConsts.kernel _ (fun _ _ => rfl) 4 _⟩

/-- Conservation for every member and every run: the tasks held after the run are a
permutation of those held before and those enqueued. -/
theorem run_perm (ops : FifoOps) (K : ScxConsts) (h : Host) (es : List Event)
    (hq : (h.dsqs dsqId).isSome) :
    (dispatched (run ops K h es) ++ waiting (run ops K h es)).Perm
      (dispatched h ++ waiting h ++ enqueued es) := by
  induction es generalizing h with
  | nil => simp [enqueued]
  | cons e es ih =>
    refine (ih _ (step_dsq_isSome ops K h e hq)).trans ?_
    rw [enqueued_cons e es, ← List.append_assoc]
    exact (step_perm ops K h e hq).append_right _

theorem run_perm_test :
    let h := (fifoInit (Host.boot fun _ => ⟨[], 0, 0, 100, fun _ => true, true, 0, 0⟩)).1
    let es := [Event.enqueue 1 false, .enqueue 2 true, .dispatch 0]
    (h.dsqs dsqId).isSome ∧
      (dispatched (run testOps ScxConsts.kernel h es) ++ waiting (run testOps ScxConsts.kernel h es)).Perm
        (dispatched h ++ waiting h ++ enqueued es) :=
  ⟨rfl, run_perm testOps ScxConsts.kernel _ _ rfl⟩

theorem run_take_dispatched (ops : FifoOps) (K : ScxConsts) (h : Host) (es : List Event)
    (hq : (h.dsqs dsqId).isSome) (hpin : Unpinned h) (htail : TailOnly ops es) :
    dispatched h ++ (waiting h).take (dispatches es) <+: dispatched (run ops K h es) := by
  induction es generalizing h with
  | nil => simp [dispatches]
  | cons e es ih =>
    have htail' : TailOnly ops es := fun pid b hm => htail pid b (List.mem_cons_of_mem e hm)
    have ih' := ih _ (step_dsq_isSome ops K h e hq) (step_unpinned ops K h e hpin) htail'
    rw [run_cons]
    cases e with
    | selectCpu => simpa [step, dispatches] using ih'
    | enqueue pid enqHead =>
      obtain ⟨hd, hw, -⟩ := fifoEnqueue_tail K h hq pid
      simp only [step, htail pid enqHead (List.mem_cons_self _ _), hd, hw, dispatches,
        List.take_append_eq_append_take] at ih' ⊢
      exact ((List.prefix_append_right_inj _).2 (List.prefix_append _ _)).trans ih'
    | dispatch cpu =>
      obtain ⟨hd, hw, -⟩ := fifoDispatch_spec h hq cpu fun pid _ => hpin pid cpu
      simp only [step, hd, hw, dispatches] at ih' ⊢
      rwa [Nat.add_comm, List.take_add, ← List.append_assoc]

/-- No starvation: over the callbacks sched_ext delivers, when insertions all go to the
tail and tasks may run on every CPU, `k` dispatches move the first `k` tasks waiting at
the start (all of them, if fewer), in order, whatever enqueues come between. -/
theorem run_dispatched (ops : FifoOps) (K : ScxConsts) (h : Host) (nrCpuIds : Nat) (es : List Event)
    (hq : (h.dsqs dsqId).isSome) (hpin : Unpinned h) (htail : TailOnly ops es) :
    let ds := deliver ops nrCpuIds es
    dispatched h ++ (waiting h).take (dispatches ds) <+: dispatched (run ops K h ds) :=
  run_take_dispatched ops K h _ hq hpin fun pid b hm =>
    htail pid b ((deliver_sublist ops nrCpuIds es).subset hm)

theorem run_dispatched_noop :
    let h := (fifoInit (Host.boot fun _ => ⟨[], 0, 0, 100, fun _ => true, true, 0, 0⟩)).1
    let h₃ := run noopOps ScxConsts.kernel h [.enqueue 1 false, .enqueue 2 false, .enqueue 3 false]
    let es := [Event.dispatch 0, .selectCpu 4 1, .enqueue 4 true, .dispatch 1]
    (h₃.dsqs dsqId).isSome ∧ Unpinned h₃ ∧ TailOnly noopOps es ∧
      dispatched h₃ ++ (waiting h₃).take (dispatches (deliver noopOps 2 es)) <+:
        dispatched (run noopOps ScxConsts.kernel h₃ (deliver noopOps 2 es)) := by
  intro h h₃ es
  have hpin : Unpinned h₃ := fun pid cpu => by
    simp only [h₃, run_cons, run_nil, step_cpusPtr]
    rfl
  exact ⟨rfl, hpin, fun _ _ _ => rfl, run_dispatched noopOps ScxConsts.kernel h₃ 2 es rfl hpin fun _ _ _ => rfl⟩

/-- Where the insertion follows the kernel's flags (`test`, `emergency`), the bound is
lost: if each dispatch comes right after an enqueue flagged for the head, of a task that
may run on the dispatching CPU, every dispatch takes that task and none of the tasks
waiting before is ever dispatched. -/
theorem headFlags_starve (ops : FifoOps) (hhead : ops.enqueueHead true = true) (K : ScxConsts)
    (h : Host) (hq : (h.dsqs dsqId).isSome) (qs : List Nat) (cpu : Nat)
    (hpin : ∀ q ∈ qs, (h.tasks q).cpusPtr cpu = true) :
    let es : List Event := qs.flatMap fun q => [.enqueue q true, .dispatch cpu]
    dispatches es = qs.length ∧ waiting (run ops K h es) = waiting h ∧
      dispatched (run ops K h es) = dispatched h ++ qs := by
  induction qs generalizing h with
  | nil => simp [dispatches]
  | cons q qs ih =>
    obtain ⟨hd₁, hw₁, hq₁⟩ := fifoEnqueue_head K h hq q
    have hq_cpu : ((fifoEnqueue K h q true).tasks q).cpusPtr cpu = true := by
      rw [fifoEnqueue_cpusPtr]; exact hpin q (List.mem_cons_self _ _)
    obtain ⟨hd₂, hw₂, hq₂⟩ := fifoDispatch_spec _ hq₁ cpu fun pid hp => by
      rw [hw₁, List.head?_cons, Option.mem_some_iff] at hp
      exact hp ▸ hq_cpu
    obtain ⟨hn, hw, hd⟩ := ih _ hq₂ fun q' hq' => by
      rw [fifoDispatch, Host.moveToLocal_tasks, fifoEnqueue_cpusPtr]
      exact hpin q' (List.mem_cons_of_mem q hq')
    simp only [List.flatMap_cons, List.cons_append, List.nil_append, run_cons, step, hhead] at hn hw hd ⊢
    refine ⟨by simp [dispatches, hn], ?_, ?_⟩
    · rw [hw, hw₂, hw₁, List.drop_one, List.tail_cons]
    · rw [hd, hd₂, hd₁, hw₁]
      simp

theorem headFlags_starve_test :
    let h := run testOps ScxConsts.kernel
      (fifoInit (Host.boot fun _ => ⟨[], 0, 0, 100, fun _ => true, true, 0, 0⟩)).1 [.enqueue 1 false]
    testOps.enqueueHead true = true ∧ (h.dsqs dsqId).isSome ∧ (∀ q ∈ [2, 3], (h.tasks q).cpusPtr 0 = true) ∧
      let es : List Event := [2, 3].flatMap fun q => [.enqueue q true, .dispatch 0]
      dispatches es = [2, 3].length ∧ waiting (run testOps ScxConsts.kernel h es) = waiting h ∧
        dispatched (run testOps ScxConsts.kernel h es) = dispatched h ++ [2, 3] := by
  intro h
  exact ⟨rfl, rfl, by decide, headFlags_starve testOps rfl ScxConsts.kernel h rfl [2, 3] 0 (by decide)⟩

end CxlScheduler.Fifo
