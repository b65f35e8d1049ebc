import CxlScheduler.PmuDamon

set_option autoImplicit false

/-!
# What every `damon_data` entry satisfies

From the empty map, any sequence of `update_damon_data` calls keeps each stored pattern
within three bounds: the locality score is at most 100, the I/O pattern is the one
`classify_io_pattern` computes from the stored counters, and the byte counters are paid
for by `total_access_time` (`1000 * read_bytes + 2000 * write_bytes ≤ total_access_time`).
The last bound is what keeps the counters and the products in `classify_io_pattern`
from wrapping.
-/
namespace CxlScheduler.Pmu

def PatternInv (pattern : MemoryAccessPattern) : Prop :=
  pattern.localityScore.toNat ≤ 100 ∧ pattern.ioPattern = classifyIoPattern pattern ∧
    1000 * pattern.readBytes.toNat + 2000 * pattern.writeBytes.toNat ≤ pattern.totalAccessTime.toNat

/-- The counters' bound alone, which `estimateBytes` keeps. -/
def BytesPaid (pattern : MemoryAccessPattern) : Prop :=
  1000 * pattern.readBytes.toNat + 2000 * pattern.writeBytes.toNat ≤ pattern.totalAccessTime.toNat

theorem initialPattern_inv (t : BitVec 64) : PatternInv (initialPattern t) := by
  refine ⟨by simp [initialPattern], rfl, by simp [initialPattern]⟩

theorem nextLocality_le (score : BitVec 32) (execDelta nrAccesses : BitVec 64) (io : IoPattern)
    (h : score.toNat ≤ 100) : (nextLocality score execDelta nrAccesses io).toNat ≤ 100 := by
  rw [nextLocality_toNat _ _ _ _ h]
  dsimp only
  split_ifs <;> omega

theorem estimateBytes_grow (pattern : MemoryAccessPattern) (sum : BitVec 64)
    (h : BytesPaid pattern) :
    BytesPaid (estimateBytes pattern sum).1 ∧
      pattern.readBytes.toNat ≤ (estimateBytes pattern sum).1.readBytes.toNat ∧
      pattern.writeBytes.toNat ≤ (estimateBytes pattern sum).1.writeBytes.toNat ∧
      pattern.totalAccessTime.toNat ≤ (estimateBytes pattern sum).1.totalAccessTime.toNat ∧
      (estimateBytes pattern sum).1.localityScore = pattern.localityScore := by
  unfold estimateBytes BytesPaid at *
  split
  · rename_i hlt
    have hδ : (sum - pattern.totalAccessTime).toNat = sum.toNat - pattern.totalAccessTime.toNat := by
      bv_omega
    have hr : ((sum - pattern.totalAccessTime) / 1000).toNat =
        (sum.toNat - pattern.totalAccessTime.toNat) / 1000 := by
      rw [BitVec.toNat_udiv, hδ]; rfl
    have hw : ((sum - pattern.totalAccessTime) / 2000).toNat =
        (sum.toNat - pattern.totalAccessTime.toNat) / 2000 := by
      rw [BitVec.toNat_udiv, hδ]; rfl
    have := pattern.totalAccessTime.isLt
    have := sum.isLt
    rw [BitVec.lt_def] at hlt
    dsimp only
    split
    · refine ⟨?_, ?_, le_rfl, hlt.le, rfl⟩ <;> simp only [BitVec.toNat_add, hr] <;> omega
    · refine ⟨?_, le_rfl, ?_, hlt.le, rfl⟩ <;> simp only [BitVec.toNat_add, hw] <;> omega
  · exact ⟨h, le_rfl, le_rfl, le_rfl, rfl⟩

theorem estimate_grow (pattern : MemoryAccessPattern) (p : TaskStruct) (h : BytesPaid pattern) :
    BytesPaid (estimate pattern p).1 ∧
      pattern.readBytes.toNat ≤ (estimate pattern p).1.readBytes.toNat ∧
      pattern.writeBytes.toNat ≤ (estimate pattern p).1.writeBytes.toNat ∧
      pattern.totalAccessTime.toNat ≤ (estimate pattern p).1.totalAccessTime.toNat ∧
      (estimate pattern p).1.localityScore = pattern.localityScore := by
  unfold estimate
  split
  · exact estimateBytes_grow _ _ h
  · exact ⟨h, le_rfl, le_rfl, le_rfl, rfl⟩

theorem updatePattern_inv (pattern : MemoryAccessPattern) (p : TaskStruct) (now : BitVec 64)
    (h : PatternInv pattern) :
    PatternInv (updatePattern pattern p now) ∧
      pattern.readBytes.toNat ≤ (updatePattern pattern p now).readBytes.toNat ∧
      pattern.writeBytes.toNat ≤ (updatePattern pattern p now).writeBytes.toNat ∧
      pattern.totalAccessTime.toNat ≤ (updatePattern pattern p now).totalAccessTime.toNat := by
  unfold updatePattern
  split
  · obtain ⟨hb, hr, hw, ht, hl⟩ := estimate_grow (countAccess pattern now) p h.2.2
    refine ⟨⟨?_, rfl, hb⟩, hr, hw, ht⟩
    exact nextLocality_le _ _ _ _ (hl ▸ h.1)
  · exact ⟨h, le_rfl, le_rfl, le_rfl⟩

def MapInv (m : List (Nat × MemoryAccessPattern)) : Prop :=
  ∀ k pattern, BpfHash.lookupElem m k = some pattern → PatternInv pattern

theorem updateDamonData_inv (m : List (Nat × MemoryAccessPattern)) (pid : Nat) (p : TaskStruct)
    (now : BitVec 64) (hm : MapInv m) : MapInv (updateDamonData m pid p now) := by
  intro k pattern hk
  unfold updateDamonData at hk
  split at hk <;> rw [BpfHash.lookupElem_updateElem] at hk <;> split at hk
  · cases hk; exact initialPattern_inv now
  · exact hm k pattern hk
  · cases hk; exact (updatePattern_inv _ p now (hm pid _ ‹_›)).1
  · exact hm k pattern hk

theorem updateDamonData_grow (m : List (Nat × MemoryAccessPattern)) (pid : Nat) (p : TaskStruct)
    (now : BitVec 64) (hm : MapInv m) (k : Nat) (pattern : MemoryAccessPattern)
    (hk : BpfHash.lookupElem m k = some pattern) :
    ∃ pattern', BpfHash.lookupElem (updateDamonData m pid p now) k = some pattern' ∧
      pattern.readBytes.toNat ≤ pattern'.readBytes.toNat ∧
      pattern.writeBytes.toNat ≤ pattern'.writeBytes.toNat ∧
      pattern.totalAccessTime.toNat ≤ pattern'.totalAccessTime.toNat := by
  by_cases hkp : k = pid
  · subst hkp
    rw [updateDamonData_present _ _ _ _ _ hk, if_pos rfl]
    exact ⟨_, rfl, (updatePattern_inv _ p now (hm k _ hk)).2⟩
  · rw [updateDamonData_other _ _ _ _ _ hkp]
    exact ⟨pattern, hk, le_rfl, le_rfl, le_rfl⟩

/-- `update_damon_data` called once per observation, in order. -/
def observeAll (m : List (Nat × MemoryAccessPattern)) :
    List (Nat × TaskStruct × BitVec 64) → List (Nat × MemoryAccessPattern)
  | [] => m
  | (pid, p, now) :: obs => observeAll (updateDamonData m pid p now) obs

theorem observeAll_inv (m : List (Nat × MemoryAccessPattern)) (obs : List (Nat × TaskStruct × BitVec 64))
    (hm : MapInv m) : MapInv (observeAll m obs) := by
  induction obs generalizing m with
  | nil => exact hm
  | cons o obs ih => exact ih _ (updateDamonData_inv _ _ _ _ hm)

/-- Every entry reachable from the empty map satisfies the invariant; its counters fit
`classify_io_pattern`'s `u64` arithmetic; and the next observation keeps the entry with
counters that do not decrease (so they never wrap). -/
theorem damonData_invariant (obs : List (Nat × TaskStruct × BitVec 64)) (k : Nat)
    (pattern : MemoryAccessPattern) (hk : BpfHash.lookupElem (observeAll [] obs) k = some pattern) :
    PatternInv pattern ∧ pattern.readBytes.toNat * 100 < 2 ^ 64 ∧
      pattern.readBytes.toNat + pattern.writeBytes.toNat < 2 ^ 64 ∧
      ∀ pid p now, ∃ pattern', BpfHash.lookupElem (updateDamonData (observeAll [] obs) pid p now) k =
        some pattern' ∧ pattern.readBytes.toNat ≤ pattern'.readBytes.toNat ∧
        pattern.writeBytes.toNat ≤ pattern'.writeBytes.toNat := by
  have hm := observeAll_inv [] obs (fun _ _ h => by cases h)
  have hp := hm k pattern hk
  have := pattern.totalAccessTime.isLt
  refine ⟨hp, by have := hp.2.2; omega, by have := hp.2.2; omega, fun pid p now => ?_⟩
  obtain ⟨pattern', h', hr, hw, -⟩ := updateDamonData_grow _ pid p now hm k pattern hk
  exact ⟨pattern', h', hr, hw⟩

theorem damonData_invariant_read_heavy :
    let obs : List (Nat × TaskStruct × BitVec 64) :=
      [(7, ⟨[], 0, 0, 100, fun _ => true, true, 0, 0⟩, 1),
        (7, ⟨[], 0, 0, 100, fun _ => true, true, 0, 1000000⟩, 2)]
    let pattern : MemoryAccessPattern := ⟨1, 1000000, 2, 45, 0, 1000, 0, .readHeavy⟩
    BpfHash.lookupElem (observeAll [] obs) 7 = some pattern ∧
      PatternInv pattern ∧ pattern.readBytes.toNat * 100 < 2 ^ 64 ∧
      pattern.readBytes.toNat + pattern.writeBytes.toNat < 2 ^ 64 ∧
      ∀ pid p now, ∃ pattern', BpfHash.lookupElem (updateDamonData (observeAll [] obs) pid p now) 7 =
        some pattern' ∧ pattern.readBytes.toNat ≤ pattern'.readBytes.toNat ∧
        pattern.writeBytes.toNat ≤ pattern'.writeBytes.toNat :=
  ⟨by decide, damonData_invariant _ 7 _ (by decide)⟩

end CxlScheduler.Pmu
