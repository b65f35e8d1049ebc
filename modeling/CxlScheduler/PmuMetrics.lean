import CxlScheduler.PmuPriority

set_option autoImplicit false

/-!
# `update_cxl_pmu_metrics` of `cxl_pmu.bpf.c`

The function fills the entry of a CPU in the per-CPU array `cpu_contexts` with simulated
PMU readings derived from the clock: with `time_factor = now / 1000000`, bandwidth
`800 + time_factor % 400`, utilization `60 + time_factor % 40`, and so on; read and write
bandwidth are 60 % and 40 % of the total, plus 100 for whichever of `active_read_tasks` and
`active_write_tasks` is larger. Like `calculate_task_priority` it is marked unused and no
callback calls it, so it is modelled as it would run: called with any CPU id at any time.

Nothing in the program writes `active_read_tasks` or `active_write_tasks`, and the array
starts zeroed, so over every run both +100 branches are dead and neither optimisation flag
is ever set (`run_cpuContexts`). Every entry it writes meets all the bandwidth conditions of
`calculate_task_priority`, whose read- and write-intensive rows then always take the
bandwidth adjustment (`basePriority_refreshed`).
-/
namespace CxlScheduler.Pmu

/-- `MAX_CPUS`, the size of `cpu_contexts`. -/
def maxCpus : Nat := 1024

/-- `struct cpu_ctx` without `active_moe_tasks`, `active_kworkers` and `last_balance_time`,
which nothing reads or writes. Its `struct cxl_pmu_metrics` is split into the four fields
`calculate_task_priority` reads and `cache_hit_rate`, `memory_latency` and
`last_update_time`. -/
structure CpuCtx where
  cxlMetrics : CxlPmuMetrics
  cacheHitRate : BitVec 64
  memoryLatency : BitVec 64
  lastUpdateTime : BitVec 64
  activeReadTasks : BitVec 32
  activeWriteTasks : BitVec 32
  isCxlAttached : Bool
  isReadOptimized : Bool
  isWriteOptimized : Bool
  deriving DecidableEq, Repr

/-- An entry of an array map that was never written: all zero. -/
def CpuCtx.zero : CpuCtx := ⟨⟨0, 0, 0, 0⟩, 0, 0, 0, 0, 0, false, false, false⟩

/-- The writes of `update_cxl_pmu_metrics` through `ctx`, in order, at
`bpf_ktime_get_ns()` = `currentTime`. -/
def refreshCtx (ctx : CpuCtx) (currentTime : BitVec 64) : CpuCtx :=
  let timeFactor := currentTime / 1000000
  let memoryBandwidth := 800 + timeFactor % 400
  let ctx := { ctx with
    cxlMetrics := ⟨memoryBandwidth, 60 + timeFactor % 40, memoryBandwidth * 60 / 100,
      memoryBandwidth * 40 / 100⟩
    cacheHitRate := 85 + timeFactor % 15
    memoryLatency := 100 + timeFactor % 100 }
  let ctx :=
    if ctx.activeWriteTasks < ctx.activeReadTasks then
      { ctx with
        cxlMetrics := { ctx.cxlMetrics with readBandwidth := ctx.cxlMetrics.readBandwidth + 100 }
        isReadOptimized := true, isWriteOptimized := false }
    else if ctx.activeReadTasks < ctx.activeWriteTasks then
      { ctx with
        cxlMetrics := { ctx.cxlMetrics with writeBandwidth := ctx.cxlMetrics.writeBandwidth + 100 }
        isReadOptimized := false, isWriteOptimized := true }
    else { ctx with isReadOptimized := false, isWriteOptimized := false }
  { ctx with lastUpdateTime := currentTime, isCxlAttached := 150 < ctx.memoryLatency }

/-- `update_cxl_pmu_metrics(cpu_id)`: the lookup fails for ids past `MAX_CPUS`; the final
`bpf_map_update_elem` writes the entry onto itself. -/
def updateCxlPmuMetrics (cpuContexts : Nat → CpuCtx) (cpuId : Nat) (currentTime : BitVec 64) :
    Nat → CpuCtx :=
  if cpuId < maxCpus then Function.update cpuContexts cpuId (refreshCtx (cpuContexts cpuId) currentTime)
  else cpuContexts

/-- Calls at the given CPU ids and clock readings, in order. -/
def refreshAll (cpuContexts : Nat → CpuCtx) (calls : List (Nat × BitVec 64)) : Nat → CpuCtx :=
  calls.foldl (fun c call => updateCxlPmuMetrics c call.1 call.2) cpuContexts

/-- No task is counted, no optimisation flag is set, and the bandwidth is split 60/40. -/
def Quiet (ctx : CpuCtx) : Prop :=
  ctx.activeReadTasks = 0 ∧ ctx.activeWriteTasks = 0 ∧ ctx.isReadOptimized = false ∧
    ctx.isWriteOptimized = false ∧
    ctx.cxlMetrics.readBandwidth = ctx.cxlMetrics.memoryBandwidth * 60 / 100 ∧
    ctx.cxlMetrics.writeBandwidth = ctx.cxlMetrics.memoryBandwidth * 40 / 100

/-- The readings of an entry written at `currentTime`, in natural numbers. -/
def Simulated (ctx : CpuCtx) (currentTime : BitVec 64) : Prop :=
  let tf := currentTime.toNat / 1000000
  ctx.cxlMetrics.memoryBandwidth.toNat = 800 + tf % 400 ∧
    ctx.cxlMetrics.cxlUtilization.toNat = 60 + tf % 40 ∧
    ctx.cacheHitRate.toNat = 85 + tf % 15 ∧ ctx.memoryLatency.toNat = 100 + tf % 100 ∧
    ctx.lastUpdateTime = currentTime ∧ ctx.isCxlAttached = decide (50 < tf % 100)

theorem zero_quiet : Quiet CpuCtx.zero := by
  simp [Quiet, CpuCtx.zero]

theorem refreshCtx_quiet (ctx : CpuCtx) (t : BitVec 64) (h : Quiet ctx) : Quiet (refreshCtx ctx t) := by
  obtain ⟨hr, hw, -, -, -, -⟩ := h
  simp only [Quiet, refreshCtx, hr, hw, lt_self_iff_false, if_false]
  exact ⟨rfl, rfl, rfl, rfl, rfl, rfl⟩

theorem refreshCtx_common (ctx : CpuCtx) (t : BitVec 64) :
    let tf := t / 1000000
    (refreshCtx ctx t).cxlMetrics.memoryBandwidth = 800 + tf % 400 ∧
      (refreshCtx ctx t).cxlMetrics.cxlUtilization = 60 + tf % 40 ∧
      (refreshCtx ctx t).cacheHitRate = 85 + tf % 15 ∧
      (refreshCtx ctx t).memoryLatency = 100 + tf % 100 ∧
      (refreshCtx ctx t).lastUpdateTime = t ∧
      (refreshCtx ctx t).isCxlAttached = decide (150 < 100 + tf % 100) ∧
      (refreshCtx ctx t).activeReadTasks = ctx.activeReadTasks ∧
      (refreshCtx ctx t).activeWriteTasks = ctx.activeWriteTasks := by
  unfold refreshCtx
  dsimp only
  split_ifs <;> exact ⟨rfl, rfl, rfl, rfl, rfl, rfl, rfl, rfl⟩

theorem refreshCtx_simulated (ctx : CpuCtx) (t : BitVec 64) : Simulated (refreshCtx ctx t) t := by
  obtain ⟨hm, hu, hc, hl, ht, ha, -, -⟩ := refreshCtx_common ctx t
  have := t.isLt
  refine ⟨?_, ?_, ?_, ?_, ht, ?_⟩ <;>
    simp only [hm, hu, hc, hl, ha, decide_eq_decide, BitVec.lt_def, BitVec.toNat_add,
      BitVec.toNat_umod, BitVec.toNat_udiv, BitVec.ofNat_eq_ofNat, BitVec.toNat_ofNat, Nat.reducePow,
      Nat.reduceMod] <;>
    omega

theorem share_toNat (mb : BitVec 64) (k : Nat) (hmb : mb.toNat ≤ 1199) (hk : k ≤ 100) :
    (mb * BitVec.ofNat 64 k / 100).toNat = mb.toNat * k / 100 := by
  have : mb.toNat * k ≤ 1199 * 100 := Nat.mul_le_mul hmb hk
  rw [BitVec.toNat_udiv, BitVec.toNat_mul, BitVec.toNat_ofNat, Nat.mod_eq_of_lt (by omega : k < 2 ^ 64),
    Nat.mod_eq_of_lt (by omega)]
  rfl

theorem refreshCtx_bandwidth (ctx : CpuCtx) (t : BitVec 64) :
    100 < (refreshCtx ctx t).cxlMetrics.readBandwidth ∧
      100 < (refreshCtx ctx t).cxlMetrics.writeBandwidth := by
  have hmb : (800 + t / 1000000 % 400 : BitVec 64).toNat = 800 + t.toNat / 1000000 % 400 :=
    (refreshCtx_common ctx t).1 ▸ (refreshCtx_simulated ctx t).1
  unfold refreshCtx
  dsimp only
  generalize 800 + t / 1000000 % 400 = mb at hmb
  have h60 : (mb * 60 / 100).toNat = mb.toNat * 60 / 100 := share_toNat mb 60 (by omega) (by decide)
  have h40 : (mb * 40 / 100).toNat = mb.toNat * 40 / 100 := share_toNat mb 40 (by omega) (by decide)
  have hr : 480 ≤ (mb * 60 / 100).toNat ∧ (mb * 60 / 100).toNat ≤ 719 := by omega
  have hw : 320 ≤ (mb * 40 / 100).toNat ∧ (mb * 40 / 100).toNat ≤ 479 := by omega
  clear h60 h40 hmb
  generalize mb * 60 / 100 = r at hr
  generalize mb * 40 / 100 = w at hw
  split_ifs <;> constructor <;> bv_omega

/-- An entry that was never written, or the readings simulated for its own
`last_update_time`. -/
def Refreshed (ctx : CpuCtx) : Prop :=
  Quiet ctx ∧ (ctx = CpuCtx.zero ∨ Simulated ctx ctx.lastUpdateTime)

theorem updateCxlPmuMetrics_refreshed (c : Nat → CpuCtx) (id : Nat) (t : BitVec 64)
    (h : ∀ j, Refreshed (c j)) (j : Nat) : Refreshed (updateCxlPmuMetrics c id t j) := by
  unfold updateCxlPmuMetrics
  split
  · by_cases hj : j = id
    · subst hj
      rw [Function.update_same]
      have hs := refreshCtx_simulated (c j) t
      exact ⟨refreshCtx_quiet _ t (h j).1, .inr ((refreshCtx_common (c j) t).2.2.2.2.1 ▸ hs)⟩
    · rw [Function.update_noteq hj]
      exact h j
  · exact h j

/-- From the zeroed array, over any run of calls: every entry stays quiet, so neither +100
branch is ever taken and neither optimisation flag is ever set, and every entry written
holds the readings simulated for its `last_update_time`. -/
theorem run_cpuContexts (calls : List (Nat × BitVec 64)) (j : Nat) :
    Refreshed (refreshAll (fun _ => CpuCtx.zero) calls j) := by
  suffices ∀ c : Nat → CpuCtx, (∀ j, Refreshed (c j)) → ∀ j, Refreshed (refreshAll c calls j) from
    this _ (fun _ => ⟨zero_quiet, .inl rfl⟩) j
  induction calls with
  | nil => exact fun c h => h
  | cons call calls ih =>
    exact fun c h => ih _ (updateCxlPmuMetrics_refreshed c call.1 call.2 h)

/-- On the readings `update_cxl_pmu_metrics` writes, every bandwidth condition of
`calculate_task_priority` holds: read- and write-intensive tasks always get the bandwidth
adjustment, and a bandwidth test task's second adjustment depends on its pattern alone. -/
theorem basePriority_refreshed (tctx : TaskCtx) (pattern : Option MemoryAccessPattern) (ctx : CpuCtx)
    (t : BitVec 64) :
    let m := (refreshCtx ctx t).cxlMetrics
    (TaskType.ofValue tctx.type = .readIntensive →
        basePriority tctx pattern (some m) = if pattern.any (·.ioPattern = .readHeavy) then 95 else 105) ∧
      (TaskType.ofValue tctx.type = .writeIntensive →
        basePriority tctx pattern (some m) = if pattern.any (·.ioPattern = .writeHeavy) then 95 else 105) ∧
      (TaskType.ofValue tctx.type = .bandwidthTest →
        basePriority tctx pattern (some m) =
          (if tctx.isBandwidthCritical then 90 else 120) -
            if pattern.any (fun p => p.ioPattern = .readHeavy ∨ p.ioPattern = .writeHeavy) then 10 else 0) := by
  dsimp only
  obtain ⟨hr, hw⟩ := refreshCtx_bandwidth ctx t
  have hr70 : bandwidthThreshold < (refreshCtx ctx t).cxlMetrics.readBandwidth := by
    unfold bandwidthThreshold; bv_omega
  have hw70 : bandwidthThreshold < (refreshCtx ctx t).cxlMetrics.writeBandwidth := by
    unfold bandwidthThreshold; bv_omega
  refine ⟨fun h => ?_, fun h => ?_, fun h => ?_⟩ <;> simp only [basePriority, h]
  · simp only [Option.any_some, hr70, decide_True, if_true]
    split_ifs <;> rfl
  · simp only [Option.any_some, hw70, decide_True, if_true]
    split_ifs <;> rfl
  · cases pattern with
    | none => cases tctx.isBandwidthCritical <;> rfl
    | some p =>
      simp only [Option.any_some, hr, hw, decide_True, and_true, decide_eq_true_eq]
      cases tctx.isBandwidthCritical <;> split_ifs <;> first | rfl | simp_all

theorem basePriority_refreshed_readIntensive :
    TaskType.ofValue 5 = .readIntensive ∧
      basePriority ⟨5, 0, false, false⟩ none (some (refreshCtx CpuCtx.zero 0).cxlMetrics) = 105 :=
  ⟨rfl, (basePriority_refreshed ⟨5, 0, false, false⟩ none CpuCtx.zero 0).1 rfl⟩

end CxlScheduler.Pmu
