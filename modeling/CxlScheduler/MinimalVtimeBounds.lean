import CxlScheduler.MinimalModel

set_option autoImplicit false

/-!
# How the minimal scheduler moves virtual time

`cxl_enqueue` clamps a task's vtime to at most one slice behind `global_vtime`, then
shifts it one slice earlier for a VectorDB task and one slice later for a kworker.
Read through `vtime_before`'s signed difference, the result never lies more than two
slices behind the clock (one for a task not classified VectorDB), for every pair of
`u64` values. Over a run, a task's `dsq_vtime` moves backward only at such an enqueue,
by at most one slice, while the vtimes compared stay within `2^62` of one another.
-/
namespace CxlScheduler.Minimal

theorem enqueueVtime_eq (S g v : BitVec 64) (tctx : TaskCtx) :
    enqueueVtime S g v tctx = cmax v (g - S) - (if tctx.isVectordb then S else 0) +
      (if tctx.isKworker then S else 0) := by
  rcases tctx with ⟨_ | _, _ | _⟩ <;> simp [enqueueVtime]

theorem enqueueVtime_sub_global (S g v : BitVec 64) (tctx : TaskCtx) :
    enqueueVtime S g v tctx - g = (cmax v (g - S) - (g - S)) -
      (S + (if tctx.isVectordb then S else 0) - (if tctx.isKworker then S else 0)) := by
  rw [enqueueVtime_eq]
  ring

theorem lag_toNat (S : BitVec 64) (a b : Bool) (hS : S.toNat ≤ 2 ^ 56) :
    (S + (if a then S else 0) - (if b then S else 0)).toNat =
      S.toNat + (if a then S.toNat else 0) - (if b then S.toNat else 0) := by
  cases a <;> cases b <;> simp only [if_true, if_false, Bool.false_eq_true] <;> bv_omega

theorem enqueueVtime_toInt (S g v : BitVec 64) (tctx : TaskCtx) (hS : S.toNat ≤ 2 ^ 56) :
    (enqueueVtime S g v tctx - g).toInt = (cmax v (g - S) - (g - S)).toNat -
      ((S.toNat + (if tctx.isVectordb then S.toNat else 0) -
        (if tctx.isKworker then S.toNat else 0) : Nat) : Int) := by
  have hlag := lag_toNat S tctx.isVectordb tctx.isKworker hS
  rw [enqueueVtime_sub_global, toInt_sub_of_lt _ _ (cmax_sub_lt _ _) (by rw [hlag]; split_ifs <;> omega),
    hlag]

theorem enqueueVtime_ge (S g v : BitVec 64) (tctx : TaskCtx) (hS : S.toNat ≤ 2 ^ 56) :
    -(2 * (S.toNat : Int)) ≤ (enqueueVtime S g v tctx - g).toInt ∧
      (tctx.isVectordb = false → -(S.toNat : Int) ≤ (enqueueVtime S g v tctx - g).toInt) := by
  rw [enqueueVtime_toInt _ _ _ _ hS]
  rcases tctx with ⟨_ | _, _ | _⟩ <;> simp <;> omega

theorem cxlEnqueue_inserted_vtime (K : ScxConsts) (s : State) (pid : Nat) :
    let g := s.globalVtime
    let v := (s.host.tasks pid).dsqVtime
    let S := K.sliceDfl
    let tctx := enqueueCtx s pid
    ∃ v', (cxlEnqueue K s pid true).2 = [.dsqInsertVtime pid fallbackDsqId S v'] ∧
      (cxlEnqueue K s pid true).1.taskCtxStor pid = some tctx ∧
      v' = cmax v (g - S) - (if tctx.isVectordb then S else 0) +
        (if tctx.isKworker then S else 0) ∧
      -(2 * (S.toNat : Int)) ≤ (v' - g).toInt ∧
      (tctx.isVectordb = false → -(S.toNat : Int) ≤ (v' - g).toInt) := by
  exact ⟨_, rfl, by simp [cxlEnqueue_some], enqueueVtime_eq _ _ _ _,
    enqueueVtime_ge _ _ _ _ K.sliceDfl_le⟩

theorem cmax_sub_self_lt (v b : BitVec 64) (h : WithinWindow v b) :
    (cmax v b - v).toNat < 2 ^ 62 := by
  unfold cmax
  split
  · rename_i hb
    rw [vtimeBefore_iff] at hb
    unfold WithinWindow at h
    bv_omega
  · simp

theorem enqueueVtime_sub_self (S g v : BitVec 64) (tctx : TaskCtx) :
    enqueueVtime S g v tctx - v = (cmax v (g - S) - v) - (if tctx.isVectordb then S else 0) +
      (if tctx.isKworker then S else 0) := by
  rw [enqueueVtime_eq]
  ring

theorem self_sub_enqueueVtime (S g v : BitVec 64) (tctx : TaskCtx) :
    v - enqueueVtime S g v tctx = (if tctx.isVectordb then S else 0) -
      (if tctx.isKworker then S else 0) - (cmax v (g - S) - v) := by
  rw [enqueueVtime_eq]
  ring

/-- Inside the window an enqueue moves the vtime backward only for a VectorDB task, and by
at most one slice. -/
theorem enqueueVtime_back (S g v : BitVec 64) (tctx : TaskCtx) (hS : S.toNat ≤ 2 ^ 56)
    (hw : WithinWindow v (g - S)) (hb : vtimeBefore (enqueueVtime S g v tctx) v = true) :
    tctx.isVectordb = true ∧ (v - enqueueVtime S g v tctx).toNat ≤ S.toNat := by
  have hd := cmax_sub_self_lt v (g - S) hw
  rw [vtimeBefore_iff, enqueueVtime_sub_self] at hb
  rw [self_sub_enqueueVtime]
  generalize cmax v (g - S) - v = d at hb hd ⊢
  rcases tctx with ⟨_ | _, _ | _⟩ <;>
    simp only [if_true, if_false, Bool.false_eq_true, true_and, false_and] at hb ⊢ <;> bv_omega

theorem stoppingCharge_toNat (K : ScxConsts) (p : TaskStruct)
    (hs : p.slice.toNat ≤ K.sliceDfl.toNat) :
    (stoppingCharge K p).toNat = (K.sliceDfl.toNat - p.slice.toNat) * 100 / p.weight.toNat := by
  have := K.sliceDfl_le
  have := p.weight.isLt
  have hnum : ((K.sliceDfl - p.slice) * 100).toNat = (K.sliceDfl.toNat - p.slice.toNat) * 100 := by
    bv_omega
  rw [stoppingCharge, BitVec.toNat_udiv, hnum, BitVec.toNat_setWidth, Nat.mod_eq_of_lt (by omega)]

theorem stoppingCharge_lt (K : ScxConsts) (p : TaskStruct) (hs : p.slice.toNat ≤ K.sliceDfl.toNat) :
    (stoppingCharge K p).toNat < 2 ^ 63 := by
  rw [stoppingCharge_toNat K p hs]
  have := K.sliceDfl_le
  have := Nat.div_le_self ((K.sliceDfl.toNat - p.slice.toNat) * 100) p.weight.toNat
  omega

theorem step_stopping_dsqVtime (K : ScxConsts) (s : State) (q : Nat) :
    ((step K s (.stopping q)).host.tasks q).dsqVtime =
      (s.host.tasks q).dsqVtime + stoppingCharge K (s.host.tasks q) := by
  simp [step, cxlStopping]

/-- The conditions on one step: the two vtimes an enqueue compares lie within
`2^62` of each other, and a stopping task has at most the default slice left. -/
def Assumption (K : ScxConsts) (s : State) : Event → Prop
  | .enqueue pid _ => WithinWindow (s.host.tasks pid).dsqVtime (s.globalVtime - K.sliceDfl)
  | .stopping pid => (s.host.tasks pid).slice.toNat ≤ K.sliceDfl.toNat
  | _ => True

instance (K : ScxConsts) (s : State) : (e : Event) → Decidable (Assumption K s e)
  | .enqueue _ _ => inferInstanceAs (Decidable (WithinWindow _ _))
  | .stopping _ => inferInstanceAs (Decidable (_ ≤ _))
  | .selectCpu .. | .dispatch _ | .running _ | .initTask .. | .exitTask _ => instDecidableTrue

/-- How one step may move task `q`'s `dsq_vtime`: backward only at an enqueue of `q`
classified VectorDB, and then by at most `SCX_SLICE_DFL`; a stop of `q` advances it by
exactly the charge, computed in natural numbers. -/
def VtimeLaw (K : ScxConsts) (s : State) (e : Event) (s' : State) (q : Nat) : Prop :=
  (vtimeBefore (s'.host.tasks q).dsqVtime (s.host.tasks q).dsqVtime = true →
    e = .enqueue q true ∧ (enqueueCtx s q).isVectordb = true ∧
      ((s.host.tasks q).dsqVtime - (s'.host.tasks q).dsqVtime).toNat ≤ K.sliceDfl.toNat) ∧
  (e = .stopping q → ((s'.host.tasks q).dsqVtime - (s.host.tasks q).dsqVtime).toNat =
    (K.sliceDfl.toNat - (s.host.tasks q).slice.toNat) * 100 / (s.host.tasks q).weight.toNat)

theorem step_vtimeLaw (K : ScxConsts) (s : State) (e : Event) (q : Nat)
    (h : Assumption K s e) : VtimeLaw K s e (step K s e) q := by
  constructor
  · intro hb
    rcases step_dsqVtime K s e q with he | ⟨rfl, he⟩ | ⟨rfl, he⟩
    · rw [he, vtimeBefore_self] at hb
      cases hb
    · rw [he] at hb ⊢
      exact ⟨rfl, enqueueVtime_back _ _ _ _ K.sliceDfl_le h hb⟩
    · rw [he, vtimeBefore_iff, add_sub_cancel_left] at hb
      exact absurd hb (Nat.not_le.mpr (stoppingCharge_lt K _ h))
  · rintro rfl
    rw [step_stopping_dsqVtime, add_sub_cancel_left, stoppingCharge_toNat K _ h]

theorem run_take_succ (K : ScxConsts) (s : State) (es : List Event) (i : Nat)
    (hi : i < es.length) : run K s (es.take (i + 1)) = step K (run K s (es.take i)) es[i] := by
  simp only [run, List.take_succ, List.getElem?_eq_getElem hi, Option.toList_some,
    List.foldl_append, List.foldl_cons, List.foldl_nil]

end CxlScheduler.Minimal
