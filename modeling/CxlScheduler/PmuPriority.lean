import CxlScheduler.PmuDamon

set_option autoImplicit false

/-!
# `calculate_task_priority` of `cxl_pmu.bpf.c`

A base priority of 120 moved by the row of the `switch (tctx->type)`, then lowered by the
task's `priority_boost` (to at least 1) while the boost decays by 5. `pattern` and
`cxl_metrics` may be NULL, which makes every condition on them false. No callback calls
the function; it is modelled on its own.
-/
namespace CxlScheduler.Pmu

/-- `MOE_VECTORDB_THRESHOLD`, compared with a `u32`. -/
def moeVectordbThreshold : BitVec 32 := 80

/-- `BANDWIDTH_THRESHOLD`, compared with a `u64`. -/
def bandwidthThreshold : BitVec 64 := 70

/-- The rows of the `switch (tctx->type)`: the `enum task_type` values with a `case`, and
every other value. -/
inductive TaskType
  | moeVectordb
  | kworker
  | latencySensitive
  | readIntensive
  | writeIntensive
  | bandwidthTest
  | other
  deriving DecidableEq, Repr

def TaskType.ofValue (type : BitVec 32) : TaskType :=
  if type = 1 then .moeVectordb
  else if type = 2 then .kworker
  else if type = 4 then .latencySensitive
  else if type = 5 then .readIntensive
  else if type = 6 then .writeIntensive
  else if type = 7 then .bandwidthTest
  else .other

/-- The fields of `struct task_ctx` that `calculate_task_priority` reads or writes. -/
structure TaskCtx where
  type : BitVec 32
  priorityBoost : BitVec 32
  needsPromotion : Bool
  isBandwidthCritical : Bool
  deriving DecidableEq, Repr

/-- The fields of `struct cxl_pmu_metrics` that `calculate_task_priority` reads. -/
structure CxlPmuMetrics where
  memoryBandwidth : BitVec 64
  cxlUtilization : BitVec 64
  readBandwidth : BitVec 64
  writeBandwidth : BitVec 64
  deriving DecidableEq, Repr

/-- `base_priority` after the `switch`. -/
def basePriority (tctx : TaskCtx) (pattern : Option MemoryAccessPattern)
    (cxlMetrics : Option CxlPmuMetrics) : BitVec 32 :=
  let base : BitVec 32 := 120
  match TaskType.ofValue tctx.type with
  | .moeVectordb =>
    let base := if pattern.any (moeVectordbThreshold < ·.localityScore) then base - 20 else base
    if cxlMetrics.any (1000 < ·.memoryBandwidth) then base - 10 else base
  | .readIntensive =>
    let base := if cxlMetrics.any (bandwidthThreshold < ·.readBandwidth) then base - 15 else base
    if pattern.any (·.ioPattern = .readHeavy) then base - 10 else base
  | .writeIntensive =>
    let base := if cxlMetrics.any (bandwidthThreshold < ·.writeBandwidth) then base - 15 else base
    if pattern.any (·.ioPattern = .writeHeavy) then base - 10 else base
  | .bandwidthTest =>
    let base := if tctx.isBandwidthCritical then base - 30 else base
    match pattern with
    | some p =>
      if p.ioPattern = .readHeavy ∧ cxlMetrics.any (100 < ·.readBandwidth) then base - 10
      else if p.ioPattern = .writeHeavy ∧ cxlMetrics.any (100 < ·.writeBandwidth) then base - 10
      else base
    | none => base
  | .kworker =>
    let base := if tctx.needsPromotion then base - 15 else base
    if cxlMetrics.any (90 < ·.cxlUtilization) then base + 10 else base
  | .latencySensitive => base - 25
  | .other => if pattern.any (·.localityScore < 30) then base + 10 else base

/-- The priority returned, with the context as the function leaves it. -/
def calculateTaskPriority (tctx : TaskCtx) (pattern : Option MemoryAccessPattern)
    (cxlMetrics : Option CxlPmuMetrics) : TaskCtx × BitVec 32 :=
  let base := basePriority tctx pattern cxlMetrics
  if 0 < tctx.priorityBoost then
    ({ tctx with priorityBoost := if 5 < tctx.priorityBoost then tctx.priorityBoost - 5 else 0 },
      if tctx.priorityBoost < base then base - tctx.priorityBoost else 1)
  else (tctx, base)

/-- `[c]` as an integer. -/
def ind (c : Bool) : Int := if c then 1 else 0

/-- The table `T` as the spec states it, in integers: the row's adjustments of 120. -/
def specTable (tctx : TaskCtx) (pattern : Option MemoryAccessPattern)
    (metrics : Option CxlPmuMetrics) : Int :=
  let io (q : IoPattern) := pattern.any (·.ioPattern = q)
  let bw (f : CxlPmuMetrics → BitVec 64) (v : Nat) := metrics.any fun m => v < (f m).toNat
  match TaskType.ofValue tctx.type with
  | .moeVectordb =>
    120 - 20 * ind (pattern.any (80 < ·.localityScore.toNat)) - 10 * ind (bw (·.memoryBandwidth) 1000)
  | .readIntensive => 120 - 15 * ind (bw (·.readBandwidth) 70) - 10 * ind (io .readHeavy)
  | .writeIntensive => 120 - 15 * ind (bw (·.writeBandwidth) 70) - 10 * ind (io .writeHeavy)
  | .bandwidthTest =>
    120 - 30 * ind tctx.isBandwidthCritical -
      10 * ind (io .readHeavy && bw (·.readBandwidth) 100 || io .writeHeavy && bw (·.writeBandwidth) 100)
  | .kworker => 120 - 15 * ind tctx.needsPromotion + 10 * ind (bw (·.cxlUtilization) 90)
  | .latencySensitive => 95
  | .other => 120 + 10 * ind (pattern.any (·.localityScore.toNat < 30))

theorem basePriority_toNat (tctx : TaskCtx) (pattern : Option MemoryAccessPattern)
    (cxlMetrics : Option CxlPmuMetrics) :
    ((basePriority tctx pattern cxlMetrics).toNat : Int) = specTable tctx pattern cxlMetrics := by
  unfold basePriority specTable
  cases TaskType.ofValue tctx.type <;>
    simp only [BitVec.lt_def, moeVectordbThreshold, bandwidthThreshold, BitVec.ofNat_eq_ofNat,
      BitVec.toNat_ofNat, Nat.reducePow, Nat.reduceMod, ind]
  case bandwidthTest =>
    cases pattern with
    | none =>
      simp only [Option.any_none, Bool.false_and, Bool.or_false, Bool.false_eq_true, if_false]
      split_ifs <;> decide
    | some p =>
      obtain ⟨_, _, _, _, _, _, _, io⟩ := p
      cases io <;> simp only [Option.any_some, reduceCtorEq, false_and, true_and, if_false,
        decide_False, decide_True, Bool.false_and, Bool.true_and, Bool.or_false, Bool.false_or,
        Bool.false_eq_true] <;> split_ifs <;> decide
  all_goals (try split_ifs) <;> decide

theorem specTable_bounds (tctx : TaskCtx) (pattern : Option MemoryAccessPattern)
    (metrics : Option CxlPmuMetrics) :
    80 ≤ specTable tctx pattern metrics ∧ specTable tctx pattern metrics ≤ 130 := by
  unfold specTable ind
  cases TaskType.ofValue tctx.type <;> dsimp only <;> (try split_ifs) <;> omega

theorem boost_decay (b : BitVec 32) :
    (if 5 < b then b - 5 else 0) = BitVec.ofNat 32 (b.toNat - 5) := by
  apply BitVec.eq_of_toNat_eq
  split_ifs <;> simp only [BitVec.toNat_ofNat] <;> bv_omega

/-- For every context (any type value, boost and flags), pattern and metrics, each possibly
absent: the priority is `T - b`, `1` or `T` as the boost `b` is below `T`, not below it, or
zero; it lies in `[1, 130]` with no `u32` wrap; the boost decays to `max (b - 5) 0` and no
other field changes. -/
theorem calculateTaskPriority_spec (tctx : TaskCtx) (pattern : Option MemoryAccessPattern)
    (cxlMetrics : Option CxlPmuMetrics) :
    let r := calculateTaskPriority tctx pattern cxlMetrics
    let t := specTable tctx pattern cxlMetrics
    let b : Int := tctx.priorityBoost.toNat
    (r.2.toNat : Int) = (if 0 < b then (if b < t then t - b else 1) else t) ∧
      1 ≤ r.2.toNat ∧ r.2.toNat ≤ 130 ∧
      r.1 = { tctx with priorityBoost := BitVec.ofNat 32 (tctx.priorityBoost.toNat - 5) } := by
  have ht := basePriority_toNat tctx pattern cxlMetrics
  have hb := specTable_bounds tctx pattern cxlMetrics
  simp only [calculateTaskPriority, boost_decay]
  generalize basePriority tctx pattern cxlMetrics = base at ht
  by_cases h0 : 0 < tctx.priorityBoost
  · have h0' : (0 : Int) < tctx.priorityBoost.toNat := by bv_omega
    simp only [h0, h0', if_true]
    refine ⟨?_, ?_, ?_, trivial⟩ <;> split_ifs <;> bv_omega
  · have hz : tctx.priorityBoost = 0 := by bv_omega
    have h0' : ¬ (0 : Int) < tctx.priorityBoost.toNat := by bv_omega
    simp only [h0, h0', if_false]
    refine ⟨by rw [ht], by bv_omega, by bv_omega, ?_⟩
    obtain ⟨_, _, _, _⟩ := tctx
    simp only at hz
    simp [hz]

end CxlScheduler.Pmu
