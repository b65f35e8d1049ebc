import CxlScheduler.PmuDamonInvariant

set_option autoImplicit false

/-!
# The locality score of `update_damon_data`

An observation moves the score twice: down by 10 (not below 0) when `exec_delta` exceeds
`nr_accesses * 500`, otherwise up by 5; then up by 5 (not above 100) when the recomputed
pattern is read- or write-heavy. The first increase is guarded by `score < 90` where the
second is guarded by `score < 95`, so from 90 to 94 the score jumps to 100.
-/
namespace CxlScheduler.Pmu

/-- The score the spec asks for: `A` (`s - 10`, truncated at 0, or `min (s + 5) 100`),
then `B` (`min (x + 5) 100` for a read- or write-heavy pattern). -/
def specLocality (score : Nat) (erratic heavy : Bool) : Nat :=
  let a := if erratic then score - 10 else min (score + 5) 100
  if heavy then min (a + 5) 100 else a

/-- The code's score is the spec's except on the non-erratic branch from 90 to 94 with a
pattern that is neither read- nor write-heavy. -/
theorem nextLocality_eq_specLocality_iff (score : BitVec 32) (execDelta nrAccesses : BitVec 64)
    (io : IoPattern) (h : score.toNat ≤ 100) :
    (nextLocality score execDelta nrAccesses io).toNat =
        specLocality score.toNat (decide (nrAccesses * 500 < execDelta))
          (decide (io = .readHeavy ∨ io = .writeHeavy)) ↔
      nrAccesses * 500 < execDelta ∨ (io = .readHeavy ∨ io = .writeHeavy) ∨ score.toNat < 90 ∨
        95 ≤ score.toNat := by
  rw [nextLocality_toNat _ _ _ _ h, specLocality]
  by_cases he : nrAccesses * 500 < execDelta <;> by_cases hh : io = .readHeavy ∨ io = .writeHeavy <;>
    simp only [he, hh, decide_True, decide_False, if_true, if_false, true_or, or_true, false_or,
      Nat.min_def, Bool.false_eq_true, iff_true, iff_false] <;>
    split_ifs <;> omega

/-- Pid 1, a task that does not run, is observed at times 0 to 8: its entry climbs from 50
to 90 in steps of 5. The observation at time 9 is not erratic and the pattern stays
unknown, so the spec moves the score to 95; the code stores 100. -/
theorem updatePattern_locality_90 :
    let p : TaskStruct := ⟨['t'], 0, 0, 100, fun _ => true, true, 0, 0⟩
    let m := observeAll [] ((List.range 9).map fun t => (1, p, BitVec.ofNat 64 t))
    ∃ pattern, BpfHash.lookupElem m 1 = some pattern ∧ pattern.localityScore = 90 ∧
      (updatePattern pattern p 9).localityScore.toNat = 100 ∧
      (updatePattern pattern p 9).localityScore.toNat ≠ specLocality 90 false false := by
  intro p m
  refine ⟨⟨8, 0, 8, 90, 0, 0, 0, .unknown⟩, by decide, rfl, by decide, ?_⟩
  exact (nextLocality_eq_specLocality_iff 90 0 9 .unknown (by decide)).not.2 (by decide)

end CxlScheduler.Pmu
