import Mathlib.Data.BitVec
import Mathlib.Tactic.Ring

set_option autoImplicit false

/-!
# Virtual time as `u64`

The schedulers keep virtual time in `u64` and compare two values through the signed
difference `(s64)(a - b)`, so the order wraps. A `u64` is `BitVec 64`, a C cast to `s64`
is `BitVec.toInt`. The lemmas here turn the signed reading into linear facts about
`toNat`, which `omega` closes.
-/
namespace CxlScheduler

/-- `vtime_before` of `cxl_pmu_minimal.bpf.c`. -/
def vtimeBefore (a b : BitVec 64) : Bool := decide ((a - b).toInt < 0)

theorem vtimeBefore_iff (a b : BitVec 64) :
    vtimeBefore a b = true ↔ 2 ^ 63 ≤ (a - b).toNat := by
  simp only [vtimeBefore, decide_eq_true_eq, BitVec.toInt_eq_toNat_cond]
  split <;> omega

theorem vtimeBefore_false_iff (a b : BitVec 64) :
    vtimeBefore a b = false ↔ (a - b).toNat < 2 ^ 63 := by
  rw [← Bool.not_eq_true, vtimeBefore_iff]
  omega

@[simp] theorem vtimeBefore_self (a : BitVec 64) : vtimeBefore a a = false := by
  simp [vtimeBefore_false_iff]

/-- The clamp `if (vtime_before(a, b)) a = b;` of `cxl_enqueue`. -/
def cmax (a b : BitVec 64) : BitVec 64 := if vtimeBefore a b then b else a

theorem cmax_sub_lt (a b : BitVec 64) : (cmax a b - b).toNat < 2 ^ 63 := by
  unfold cmax
  split
  · simp
  · rwa [← vtimeBefore_false_iff, ← Bool.not_eq_true]

theorem toInt_sub_of_lt (d c : BitVec 64) (hd : d.toNat < 2 ^ 63) (hc : c.toNat ≤ 2 ^ 62) :
    (d - c).toInt = d.toNat - c.toNat := by
  rw [BitVec.toInt_eq_toNat_cond, BitVec.toNat_sub]
  split <;> omega

/-- Two vtimes whose signed distance is below `2^62`: the window on which `vtime_before`
is a consistent order. -/
def WithinWindow (a b : BitVec 64) : Prop :=
  (a - b).toNat < 2 ^ 62 ∨ 2 ^ 64 - 2 ^ 62 < (a - b).toNat

instance (a b : BitVec 64) : Decidable (WithinWindow a b) :=
  inferInstanceAs (Decidable (_ ∨ _))

end CxlScheduler
