import CxlScheduler.BpfMap

set_option autoImplicit false

/-!
# The DAMON-like tracker of `cxl_pmu.bpf.c`

`update_damon_data` keeps one `memory_access_pattern` per pid in the hash map
`damon_data`. The first observation of a pid stores a neutral pattern; each later one,
when the clock moved, counts an access, estimates read and write bytes from the growth of
`sum_exec_runtime` (only when the task has a memory descriptor), reclassifies the I/O
pattern and moves the locality score. No callback of `cxl_pmu.bpf.c` calls
`update_damon_data`; the model treats each call as an observation event.
-/
namespace CxlScheduler.Pmu

def maxTasks : Nat := 8192

inductive IoPattern
  | unknown
  | readHeavy
  | writeHeavy
  | mixed
  | sequential
  | random
  deriving DecidableEq, Repr

/-- `struct memory_access_pattern`, without `avg_access_size`, `hot_regions` and
`cold_regions`, which nothing reads or writes after the zero initialisation. -/
structure MemoryAccessPattern where
  nrAccesses : BitVec 64
  totalAccessTime : BitVec 64
  lastAccessTime : BitVec 64
  localityScore : BitVec 32
  workingSetSize : BitVec 32
  readBytes : BitVec 64
  writeBytes : BitVec 64
  ioPattern : IoPattern
  deriving DecidableEq, Repr

/-- `u32 read_ratio = (pattern->read_bytes * 100) / total_bytes;` -/
def readRatio (pattern : MemoryAccessPattern) : BitVec 32 :=
  ((pattern.readBytes * 100) / (pattern.readBytes + pattern.writeBytes)).setWidth 32

/-- `classify_io_pattern` on a non-NULL pattern (every caller passes one). -/
def classifyIoPattern (pattern : MemoryAccessPattern) : IoPattern :=
  if pattern.readBytes = 0 ∧ pattern.writeBytes = 0 then .unknown
  else if 80 < readRatio pattern then .readHeavy
  else if readRatio pattern < 20 then .writeHeavy
  else .mixed

/-- The pattern stored on a pid's first observation. -/
def initialPattern (currentTime : BitVec 64) : MemoryAccessPattern :=
  ⟨0, 0, currentTime, 50, 0, 0, 0, .unknown⟩

/-- The byte estimate inside `if (p->mm)`, with the `exec_delta` it computes. -/
def estimateBytes (pattern : MemoryAccessPattern) (sumExecRuntime : BitVec 64) :
    MemoryAccessPattern × BitVec 64 :=
  if pattern.totalAccessTime < sumExecRuntime then
    let execDelta := sumExecRuntime - pattern.totalAccessTime
    let pattern :=
      if pattern.nrAccesses * 1000 < execDelta then
        { pattern with readBytes := pattern.readBytes + execDelta / 1000 }
      else { pattern with writeBytes := pattern.writeBytes + execDelta / 2000 }
    ({ pattern with totalAccessTime := sumExecRuntime }, execDelta)
  else (pattern, 0)

/-- The whole `if (p->mm)` block: the working-set estimate, then the byte estimate. -/
def estimate (pattern : MemoryAccessPattern) (p : TaskStruct) : MemoryAccessPattern × BitVec 64 :=
  if p.mm then
    estimateBytes { pattern with workingSetSize := ((p.vruntime / 1000000) % 65536).setWidth 32 }
      p.sumExecRuntime
  else (pattern, 0)

/-- The locality score after an observation, from the score, `exec_delta`, the access
count and the recomputed I/O pattern. -/
def nextLocality (score : BitVec 32) (execDelta nrAccesses : BitVec 64) (io : IoPattern) :
    BitVec 32 :=
  let score :=
    if nrAccesses * 500 < execDelta then (if 10 < score then score - 10 else 0)
    else if score < 90 then score + 5 else 100
  if io = .readHeavy ∨ io = .writeHeavy then (if score < 95 then score + 5 else 100) else score

theorem firstMove_toNat (score : BitVec 32) (execDelta nrAccesses : BitVec 64)
    (h : score.toNat ≤ 100) :
    (if nrAccesses * 500 < execDelta then (if 10 < score then score - 10 else 0)
      else if score < 90 then score + 5 else 100).toNat =
      if nrAccesses * 500 < execDelta then score.toNat - 10
      else if score.toNat < 90 then score.toNat + 5 else 100 := by
  split_ifs <;> bv_omega

theorem bonus_toNat (score : BitVec 32) :
    (if score < 95 then score + 5 else 100).toNat = if score.toNat < 95 then score.toNat + 5 else 100 := by
  split_ifs <;> bv_omega

theorem nextLocality_toNat (score : BitVec 32) (execDelta nrAccesses : BitVec 64) (io : IoPattern)
    (h : score.toNat ≤ 100) :
    (nextLocality score execDelta nrAccesses io).toNat =
      let a := if nrAccesses * 500 < execDelta then score.toNat - 10
        else if score.toNat < 90 then score.toNat + 5 else 100
      if io = .readHeavy ∨ io = .writeHeavy then (if a < 95 then a + 5 else 100) else a := by
  rw [nextLocality, ← firstMove_toNat score execDelta nrAccesses h, apply_ite BitVec.toNat, bonus_toNat]

/-- `pattern->nr_accesses++; pattern->last_access_time = current_time;` -/
def countAccess (pattern : MemoryAccessPattern) (currentTime : BitVec 64) : MemoryAccessPattern :=
  { pattern with nrAccesses := pattern.nrAccesses + 1, lastAccessTime := currentTime }

/-- The I/O pattern recomputed, then the locality score moved, given `exec_delta`. -/
def reclassify (pattern : MemoryAccessPattern) (execDelta : BitVec 64) : MemoryAccessPattern :=
  let io := classifyIoPattern pattern
  { pattern with
    ioPattern := io
    localityScore := nextLocality pattern.localityScore execDelta pattern.nrAccesses io }

/-- `update_damon_data` on a stored pattern; unchanged when no time passed. -/
def updatePattern (pattern : MemoryAccessPattern) (p : TaskStruct) (currentTime : BitVec 64) :
    MemoryAccessPattern :=
  if 0 < currentTime - pattern.lastAccessTime then
    let r := estimate (countAccess pattern currentTime) p
    reclassify r.1 r.2
  else pattern

def updateDamonData (m : List (Nat × MemoryAccessPattern)) (pid : Nat) (p : TaskStruct)
    (currentTime : BitVec 64) : List (Nat × MemoryAccessPattern) :=
  match BpfHash.lookupElem m pid with
  | none => BpfHash.updateElem maxTasks m pid (initialPattern currentTime)
  | some pattern => BpfHash.updateElem maxTasks m pid (updatePattern pattern p currentTime)

theorem updateDamonData_present (m : List (Nat × MemoryAccessPattern)) (pid : Nat) (p : TaskStruct)
    (t : BitVec 64) (pattern : MemoryAccessPattern) (hm : BpfHash.lookupElem m pid = some pattern)
    (j : Nat) :
    BpfHash.lookupElem (updateDamonData m pid p t) j =
      if j = pid then some (updatePattern pattern p t) else BpfHash.lookupElem m j := by
  simp [updateDamonData, hm, BpfHash.lookupElem_updateElem]

theorem updateDamonData_other (m : List (Nat × MemoryAccessPattern)) (pid : Nat) (p : TaskStruct)
    (t : BitVec 64) (j : Nat) (hj : j ≠ pid) :
    BpfHash.lookupElem (updateDamonData m pid p t) j = BpfHash.lookupElem m j := by
  unfold updateDamonData
  split <;> simp [BpfHash.lookupElem_updateElem, hj]

theorem keys_updateDamonData (m : List (Nat × MemoryAccessPattern)) (pid : Nat) (p : TaskStruct)
    (t : BitVec 64) : BpfHash.keys (updateDamonData m pid p t) = BpfHash.admitKey maxTasks (BpfHash.keys m) pid := by
  unfold updateDamonData
  split <;> exact BpfHash.keys_updateElem _ _ _ _

theorem readRatio_toNat (pattern : MemoryAccessPattern)
    (hlt : 100 * (pattern.readBytes.toNat + pattern.writeBytes.toNat) < 2 ^ 64) :
    (readRatio pattern).toNat =
      100 * pattern.readBytes.toNat / (pattern.readBytes.toNat + pattern.writeBytes.toNat) := by
  have hmul : (pattern.readBytes * 100).toNat = 100 * pattern.readBytes.toNat := by bv_omega
  have hadd : (pattern.readBytes + pattern.writeBytes).toNat =
      pattern.readBytes.toNat + pattern.writeBytes.toNat := by bv_omega
  have hle : 100 * pattern.readBytes.toNat / (pattern.readBytes.toNat + pattern.writeBytes.toNat)
      ≤ 100 := Nat.div_le_of_le_mul (by omega)
  rw [readRatio, BitVec.toNat_setWidth, BitVec.toNat_udiv, hmul, hadd]
  exact Nat.mod_eq_of_lt (by omega)

/-- The rule `classify_io_pattern` implements: the truncated percentage
`read_bytes * 100 / total` is compared with 80 and 20. Above 80 means at least 81 %. -/
theorem classifyIoPattern_share (pattern : MemoryAccessPattern)
    (hne : pattern.readBytes ≠ 0 ∨ pattern.writeBytes ≠ 0)
    (hlt : 100 * (pattern.readBytes.toNat + pattern.writeBytes.toNat) < 2 ^ 64) :
    (classifyIoPattern pattern = .readHeavy ↔
        81 * (pattern.readBytes.toNat + pattern.writeBytes.toNat) ≤ 100 * pattern.readBytes.toNat) ∧
      (classifyIoPattern pattern = .writeHeavy ↔
        5 * pattern.readBytes.toNat < pattern.readBytes.toNat + pattern.writeBytes.toNat) ∧
      (classifyIoPattern pattern = .mixed ↔
        pattern.readBytes.toNat + pattern.writeBytes.toNat ≤ 5 * pattern.readBytes.toNat ∧
          100 * pattern.readBytes.toNat < 81 * (pattern.readBytes.toNat + pattern.writeBytes.toNat)) := by
  have hpos : 0 < pattern.readBytes.toNat + pattern.writeBytes.toNat := by
    rcases hne with h | h <;> bv_omega
  have hq := readRatio_toNat pattern hlt
  have hrh : 80 < readRatio pattern ↔
      81 * (pattern.readBytes.toNat + pattern.writeBytes.toNat) ≤ 100 * pattern.readBytes.toNat := by
    rw [BitVec.lt_def, hq, show (80 : BitVec 32).toNat = 80 from rfl, Nat.lt_iff_add_one_le,
      Nat.le_div_iff_mul_le hpos]
  have hwh : readRatio pattern < 20 ↔
      5 * pattern.readBytes.toNat < pattern.readBytes.toNat + pattern.writeBytes.toNat := by
    rw [BitVec.lt_def, hq, show (20 : BitVec 32).toNat = 20 from rfl, Nat.div_lt_iff_lt_mul hpos]
    omega
  unfold classifyIoPattern
  rw [if_neg (not_and_or.mpr hne)]
  simp only [hrh, hwh]
  split_ifs <;> simp only [true_iff, reduceCtorEq, false_iff, true_and, false_and] <;> omega

theorem classifyIoPattern_share_900_100 :
    let pattern := { initialPattern 0 with readBytes := 900, writeBytes := 100 }
    (pattern.readBytes ≠ 0 ∨ pattern.writeBytes ≠ 0) ∧
      100 * (pattern.readBytes.toNat + pattern.writeBytes.toNat) < 2 ^ 64 ∧
      (classifyIoPattern pattern = .readHeavy ↔
        81 * (pattern.readBytes.toNat + pattern.writeBytes.toNat) ≤ 100 * pattern.readBytes.toNat) ∧
      (classifyIoPattern pattern = .writeHeavy ↔
        5 * pattern.readBytes.toNat < pattern.readBytes.toNat + pattern.writeBytes.toNat) ∧
      (classifyIoPattern pattern = .mixed ↔
        pattern.readBytes.toNat + pattern.writeBytes.toNat ≤ 5 * pattern.readBytes.toNat ∧
          100 * pattern.readBytes.toNat < 81 * (pattern.readBytes.toNat + pattern.writeBytes.toNat)) :=
  ⟨by decide, by decide, classifyIoPattern_share _ (by decide) (by decide)⟩

/-- At 161 bytes read and 39 written the exact read share is 80.5 %, above 80 %, but the
truncated percentage is 80 and the pattern is `MIXED`. -/
theorem classifyIoPattern_161_39 :
    ¬ (classifyIoPattern { initialPattern 0 with readBytes := 161, writeBytes := 39 } = .readHeavy ↔
      5 * 161 > 4 * (161 + 39)) := by
  decide

theorem updatePattern_of_ne (pattern : MemoryAccessPattern) (p : TaskStruct) (now : BitVec 64)
    (ht : pattern.lastAccessTime ≠ now) :
    updatePattern pattern p now =
      reclassify (estimate (countAccess pattern now) p).1 (estimate (countAccess pattern now) p).2 := by
  have hpos : 0 < now - pattern.lastAccessTime := by bv_omega
  simp only [updatePattern, hpos, if_true]

/-- Two patterns that agree in every field but `working_set_size`. -/
def AgreeExceptWss (a b : MemoryAccessPattern) : Prop :=
  { a with workingSetSize := 0 } = { b with workingSetSize := 0 }

instance (a b : MemoryAccessPattern) : Decidable (AgreeExceptWss a b) :=
  inferInstanceAs (Decidable (_ = _))

/-- Without a memory descriptor an observation only counts the access and reclassifies
with `exec_delta` 0: `working_set_size`, the byte counters and `total_access_time` keep
their values. The result agrees with the one a task with a descriptor gets in every field
but `working_set_size` exactly when `sum_exec_runtime` has not grown past
`total_access_time`. -/
theorem updatePattern_without_mm (pattern : MemoryAccessPattern) (p : TaskStruct)
    (now : BitVec 64) (ht : pattern.lastAccessTime ≠ now) :
    updatePattern pattern { p with mm := false } now = reclassify (countAccess pattern now) 0 ∧
      (AgreeExceptWss (updatePattern pattern { p with mm := false } now)
          (updatePattern pattern { p with mm := true } now) ↔
        p.sumExecRuntime ≤ pattern.totalAccessTime) := by
  have hno : updatePattern pattern { p with mm := false } now = reclassify (countAccess pattern now) 0 := by
    rw [updatePattern_of_ne _ _ _ ht]
    rfl
  refine ⟨hno, ?_⟩
  simp only [hno, updatePattern_of_ne _ _ _ ht, estimate, if_true]
  unfold estimateBytes
  split <;> rename_i hlt <;> simp only [countAccess] at hlt
  · refine ⟨fun h => ?_, fun h => by bv_omega⟩
    have := congrArg MemoryAccessPattern.totalAccessTime h
    simp only [reclassify, countAccess] at this
    bv_omega
  · exact ⟨fun _ => by bv_omega, fun _ => rfl⟩

theorem updatePattern_without_mm_first :
    let p : TaskStruct := ⟨[], 0, 0, 100, fun _ => true, true, 0, 1000000⟩
    (initialPattern 0).lastAccessTime ≠ 1 ∧
      updatePattern (initialPattern 0) { p with mm := false } 1 = reclassify (countAccess (initialPattern 0) 1) 0 ∧
      (AgreeExceptWss (updatePattern (initialPattern 0) { p with mm := false } 1)
          (updatePattern (initialPattern 0) { p with mm := true } 1) ↔
          p.sumExecRuntime ≤ (initialPattern 0).totalAccessTime) :=
  ⟨by decide, updatePattern_without_mm _ _ _ (by decide)⟩

/-- A task that ran for 1 ms since its neutral first observation: with a descriptor 1000
read bytes are counted, without one none. -/
theorem updatePattern_mm_differs :
    ¬ AgreeExceptWss (updatePattern (initialPattern 0) ⟨[], 0, 0, 100, fun _ => true, false, 0, 1000000⟩ 1)
      (updatePattern (initialPattern 0) ⟨[], 0, 0, 100, fun _ => true, true, 0, 1000000⟩ 1) := by
  decide

end CxlScheduler.Pmu
