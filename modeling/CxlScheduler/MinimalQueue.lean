import CxlScheduler.MinimalModel

set_option autoImplicit false

/-!
# Where the minimal scheduler's tasks wait

Every `cxl_enqueue`, on the normal path and on the allocation-failure path, inserts the
task into `FALLBACK_DSQ_ID`, the queue `cxl_init` creates and `cxl_dispatch` drains. Over
any run, the tasks held in that queue or already moved to a local DSQ are exactly the
tasks held before plus those enqueued: none is lost or duplicated. The two paths do not
agree on the queue's discipline, though: the fallback appends a FIFO entry to a queue
that the normal path keeps ordered by vtime; where no lookup fails, every entry is keyed.
-/
namespace CxlScheduler.Minimal

/-- The task an event hands to the scheduler. -/
def enqueued : Event → List Nat
  | .enqueue pid _ => [pid]
  | _ => []

/-- The tasks waiting in `FALLBACK_DSQ_ID` followed by those moved to a local DSQ. -/
def held (h : Host) : List Nat :=
  ((h.dsqs fallbackDsqId).getD []).map DsqEntry.pid ++ h.localDsq.map Prod.snd

theorem calls_held (h : Host) (k : Kfunc) (hk : k.dsqId = fallbackDsqId)
    (h0 : (h.dsqs fallbackDsqId).isSome) :
    ((h.calls [k]).dsqs fallbackDsqId).isSome ∧ List.Perm (held (h.calls [k])) (held h ++ [k.pid]) := by
  obtain ⟨q, hq⟩ := Option.isSome_iff_exists.mp h0
  cases k with
  | dsqInsert pid id slice =>
    subst hk
    simp only [Host.calls, List.foldl, Host.call, hq, held, Host.setDsq_dsqs, Function.update_same,
      Option.isSome_some, Option.getD_some, Host.setDsq_localDsq, Host.setTask_localDsq,
      List.map_append, List.map_cons, List.map_nil, Kfunc.pid, true_and, List.append_assoc]
    exact List.perm_append_comm.append_left _
  | dsqInsertVtime pid id slice vt =>
    subst hk
    simp only [Host.calls, List.foldl, Host.call, hq, held, Host.setDsq_dsqs, Function.update_same,
      Option.isSome_some, Option.getD_some, Host.setDsq_localDsq, Host.setTask_localDsq, Kfunc.pid,
      true_and, List.append_assoc]
    refine ((insertVtime_perm pid vt q).append_right _).trans ?_
    rw [List.cons_append, ← List.append_assoc]
    exact (List.perm_append_singleton _ _).symm

theorem moveToLocal_held (h : Host) (cpu : Nat) (h0 : (h.dsqs fallbackDsqId).isSome) :
    ((h.moveToLocal cpu fallbackDsqId).1.dsqs fallbackDsqId).isSome ∧
      List.Perm (held (h.moveToLocal cpu fallbackDsqId).1) (held h) := by
  rcases Host.moveToLocal_cases h cpu fallbackDsqId with ⟨hm, -⟩ | ⟨pre, e, post, hq, -, -, hm⟩
  · rw [hm]
    exact ⟨h0, .refl _⟩
  · simp only [hm, held, hq, Host.setDsq_dsqs, Function.update_same, Option.isSome_some,
      Option.getD_some, Host.setDsq_localDsq, List.map_append, List.map_cons, List.map_nil,
      true_and]
    rw [← List.append_assoc]
    refine (List.perm_append_singleton _ _).trans ?_
    simpa only [List.append_assoc, List.cons_append] using List.perm_middle.symm

theorem step_held (K : ScxConsts) (s : State) (e : Event)
    (h0 : (s.host.dsqs fallbackDsqId).isSome) :
    ((step K s e).host.dsqs fallbackDsqId).isSome ∧
      List.Perm (held (step K s e).host) (held s.host ++ enqueued e) := by
  cases e with
  | selectCpu pid prevCpu => simpa [step, held, enqueued] using h0
  | enqueue pid ok =>
    obtain ⟨k, hk, hpid, hid, -, hhost⟩ := cxlEnqueue_spec K s pid ok
    simp only [step, hk, hhost, enqueued]
    exact hpid ▸ calls_held s.host k hid h0
  | dispatch cpu => simpa [step, cxlDispatch, enqueued] using moveToLocal_held s.host cpu h0
  | running pid =>
    simp only [step, cxlRunning]
    split <;> simpa [enqueued] using h0
  | stopping pid => simpa [step, cxlStopping, held, enqueued] using h0
  | initTask pid ok =>
    simp only [step, cxlInitTask]
    split <;> simpa [enqueued] using h0
  | exitTask pid => simpa [step, enqueued] using h0

/-- Conservation over a run: no task handed to the minimal scheduler is discarded or
duplicated once `FALLBACK_DSQ_ID` exists. -/
theorem run_held (K : ScxConsts) (s : State) (es : List Event)
    (h0 : (s.host.dsqs fallbackDsqId).isSome) :
    List.Perm (held (run K s es).host) (held s.host ++ es.flatMap enqueued) := by
  induction es generalizing s with
  | nil => simp
  | cons e es ih =>
    obtain ⟨h0', hp⟩ := step_held K s e h0
    rw [run_cons, List.flatMap_cons, ← List.append_assoc]
    exact (ih _ h0').trans (hp.append_right _)

theorem run_held_init :
    let s : State := (cxlInit (State.init (Host.boot fun _ =>
      ⟨['t'], 0, 0, 100, fun _ => true, true, 0, 0⟩))).1
    let es : List Event := [.enqueue 1 true, .enqueue 2 false, .dispatch 0]
    List.Perm (held (run .kernel s es).host) (held s.host ++ es.flatMap enqueued) := by
  intro s es
  exact run_held .kernel s es rfl

/-- Every entry of `FALLBACK_DSQ_ID` carries a vtime key. -/
def Keyed (h : Host) : Prop := ∀ e ∈ (h.dsqs fallbackDsqId).getD [], e.vtime.isSome = true

theorem step_keyed (K : ScxConsts) (s : State) (e : Event) (he : ∀ pid, e ≠ .enqueue pid false)
    (h : Keyed s.host) : Keyed (step K s e).host := by
  cases e with
  | selectCpu pid prevCpu => simpa [step, Keyed] using h
  | enqueue pid ok =>
    cases ok
    · exact absurd rfl (he pid)
    simp only [step, cxlEnqueue_some, Host.calls, List.foldl, Host.call]
    split
    · rename_i q hq
      simp only [Keyed, hq, Option.getD_some] at h
      simpa [Keyed] using insertVtime_keyed pid _ q h
    · exact h
  | dispatch cpu =>
    rcases Host.moveToLocal_cases s.host cpu fallbackDsqId with ⟨hm, -⟩ | ⟨pre, x, post, hq, -, -, hm⟩
    · simpa [step, cxlDispatch, hm] using h
    · simp only [Keyed, hq, Option.getD_some, List.mem_append, List.mem_cons] at h
      simp only [Keyed, step, cxlDispatch, hm, Host.setDsq_dsqs, Function.update_same,
        Option.getD_some, List.mem_append]
      exact fun e he => h e (he.imp_right .inr)
  | running pid =>
    simp only [step, cxlRunning]
    split <;> exact h
  | stopping pid => simpa [step, cxlStopping, Keyed] using h
  | initTask pid ok =>
    simp only [step, cxlInitTask]
    split <;> exact h
  | exitTask pid => exact h

/-- Where no task-storage lookup fails, `FALLBACK_DSQ_ID` only ever holds vtime-keyed
entries: the FIFO entries come from the allocation-failure path alone. -/
theorem run_keyed (K : ScxConsts) (s : State) (es : List Event)
    (hes : ∀ pid, Event.enqueue pid false ∉ es) (h : Keyed s.host) : Keyed (run K s es).host := by
  induction es generalizing s with
  | nil => exact h
  | cons e es ih =>
    simp only [List.mem_cons, not_or] at hes
    exact ih _ (fun pid => (hes pid).2) (step_keyed K s e (fun pid he => (hes pid).1 he.symm) h)

theorem cxlInit_creates (s : State) (h0 : s.host.dsqs fallbackDsqId = none) :
    (cxlInit s).2 = 0 ∧ (cxlInit s).1.host.dsqs fallbackDsqId = some [] := by
  simp [cxlInit, Host.createDsq, h0]

theorem run_keyed_init :
    let s : State := (cxlInit (State.init (Host.boot fun _ =>
      ⟨['t'], 0, 0, 100, fun _ => true, true, 0, 0⟩))).1
    let es : List Event := [.enqueue 1 true, .enqueue 2 true, .dispatch 0, .enqueue 3 true]
    (∀ pid, Event.enqueue pid false ∉ es) ∧ Keyed s.host ∧ Keyed (run .kernel s es).host := by
  intro s es
  have hk : Keyed s.host := by
    have h0 := (cxlInit_creates (State.init (Host.boot fun _ =>
      ⟨['t'], 0, 0, 100, fun _ => true, true, 0, 0⟩)) rfl).2
    intro e he
    rw [show s.host.dsqs fallbackDsqId = some [] from h0] at he
    cases he
  have hes : ∀ pid, Event.enqueue pid false ∉ es := by simp [es]
  exact ⟨hes, hk, run_keyed .kernel s es hes hk⟩

/-- Task 1 is enqueued on the normal path at vtime 100, then task 2, at `dsq_vtime` 50, on
the allocation-failure path: the fallback appends an entry with no vtime key behind the
keyed one, and `cxl_dispatch` serves the task at 100 first. -/
theorem fallback_insert_unordered :
    let s : State := (cxlInit (State.init (Host.boot fun pid =>
      ⟨['t'], if pid = 1 then 100 else 50, 0, 100, fun _ => true, true, 0, 0⟩))).1
    let s' := run .kernel s [.enqueue 1 true, .enqueue 2 false]
    s'.host.dsqs fallbackDsqId = some [⟨1, some 100⟩, ⟨2, none⟩] ∧
      (s'.host.tasks 2).dsqVtime = 50 ∧
      (run .kernel s' [.dispatch 0, .dispatch 0]).host.localDsq = [(0, 1), (0, 2)] := by
  decide

end CxlScheduler.Minimal
