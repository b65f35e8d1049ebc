import CxlScheduler.MinimalModel

set_option autoImplicit false

/-!
# `cxl_running` on many CPUs

`cxl_running` reads `global_vtime`, compares it with the task's `dsq_vtime`, and stores the
task's vtime when that is later. The read and the store are separate, non-atomic steps,
so CPUs interleave them. A CPU between its two steps is `pending`; besides the vtime it
will store, it carries two ghost fields that do not steer any step: the value it read, and
whether another CPU stored since then. Each store is reported with the value the storing
CPU read, the value just before the store, and the value stored.
-/
namespace CxlScheduler.Minimal.Running

inductive Pc
  | idle
  | pending (vtime read : BitVec 64) (stale : Bool)
  deriving DecidableEq, Repr

structure Sys where
  globalVtime : BitVec 64
  cpus : Nat → Pc

def Sys.init (g : BitVec 64) : Sys := ⟨g, fun _ => .idle⟩

inductive Step
  | read (cpu : Nat) (vtime : BitVec 64)
  | store (cpu : Nat)

structure Store where
  read : BitVec 64
  before : BitVec 64
  stored : BitVec 64
  stale : Bool
  deriving DecidableEq, Repr

def Pc.markStale : Pc → Pc
  | .pending v r _ => .pending v r true
  | .idle => .idle

/-- Step (1) compares and ends the call when the task is not later; step (2) stores. A
CPU runs one `cxl_running` at a time. -/
def step (s : Sys) : Step → Sys × Option Store
  | .read cpu v =>
    match s.cpus cpu with
    | .idle =>
      if vtimeBefore s.globalVtime v then
        ({ s with cpus := Function.update s.cpus cpu (.pending v s.globalVtime false) }, none)
      else (s, none)
    | .pending .. => (s, none)
  | .store cpu =>
    match s.cpus cpu with
    | .pending v r st =>
      (⟨v, Function.update (fun c => (s.cpus c).markStale) cpu .idle⟩,
        some ⟨r, s.globalVtime, v, st⟩)
    | .idle => (s, none)

/-- The final system and the stores, in order. -/
def run : Sys → List Step → Sys × List Store
  | s, [] => (s, [])
  | s, a :: as =>
    let r := step s a
    let rest := run r.1 as
    (rest.1, r.2.toList ++ rest.2)

/-- Every pending CPU will store a value later than the one it read, and a CPU that no
other store has overtaken read the current value. -/
def Inv (s : Sys) : Prop :=
  ∀ c v r st, s.cpus c = .pending v r st → vtimeBefore r v = true ∧ (st = false → r = s.globalVtime)

/-- What a store promises. -/
def StoreOk (st : Store) : Prop :=
  vtimeBefore st.read st.stored = true ∧ (st.stale = false → st.before = st.read)

theorem init_inv (g : BitVec 64) : Inv (Sys.init g) := by
  intro c v r st h
  cases h

theorem step_inv (s : Sys) (a : Step) (hs : Inv s) :
    Inv (step s a).1 ∧ ∀ st, (step s a).2 = some st → StoreOk st := by
  cases a with
  | read cpu v =>
    simp only [step]
    split <;> [split; skip] <;> refine ⟨?_, fun _ h => by cases h⟩
    · intro c v' r st hc
      dsimp only at hc ⊢
      by_cases hcpu : c = cpu
      · subst hcpu
        simp only [Function.update_same, Pc.pending.injEq] at hc
        obtain ⟨rfl, rfl, rfl⟩ := hc
        exact ⟨‹_›, fun _ => rfl⟩
      · rw [Function.update_noteq hcpu] at hc
        exact hs c v' r st hc
    all_goals exact hs
  | store cpu =>
    simp only [step]
    split
    · rename_i v r st hcpu
      refine ⟨?_, ?_⟩
      · intro c v' r' st' hc
        dsimp only at hc ⊢
        by_cases hc' : c = cpu
        · subst hc'
          simp at hc
        · rw [Function.update_noteq hc'] at hc
          cases hpc : s.cpus c with
          | idle => simp [hpc, Pc.markStale] at hc
          | pending w q b =>
            simp only [hpc, Pc.markStale, Pc.pending.injEq] at hc
            obtain ⟨rfl, rfl, rfl⟩ := hc
            exact ⟨(hs c _ _ _ hpc).1, nofun⟩
      · rintro _ ⟨⟩
        exact ⟨(hs cpu v r st hcpu).1, fun h => ((hs cpu v r st hcpu).2 h).symm⟩
    · exact ⟨hs, fun _ h => by cases h⟩

theorem run_storeOk (s : Sys) (as : List Step) (hs : Inv s) : ∀ st ∈ (run s as).2, StoreOk st := by
  induction as generalizing s with
  | nil => simp [run]
  | cons a as ih =>
    obtain ⟨hs', hst⟩ := step_inv s a hs
    simp only [run, List.mem_append, Option.mem_toList]
    rintro st (h | h)
    · exact hst st h
    · exact ih _ hs' st h

/-- Every store writes a value later than the one its CPU read; when no other CPU stored in
between, that is the value just before the store, so the store moves the clock forward. -/
theorem run_stores_after_read (g : BitVec 64) (as : List Step) :
    ∀ st ∈ (run (Sys.init g) as).2, vtimeBefore st.read st.stored = true ∧
      (st.stale = false → vtimeBefore st.before st.stored = true) := by
  intro st hst
  obtain ⟨hread, hbefore⟩ := run_storeOk _ as (init_inv g) st hst
  exact ⟨hread, fun h => hbefore h ▸ hread⟩

theorem run_stores_after_read_single :
    let st : Store := ⟨0, 0, 100, false⟩
    st ∈ (run (Sys.init 0) [.read 0 100, .store 0]).2 ∧ vtimeBefore st.read st.stored = true ∧
      (st.stale = false → vtimeBefore st.before st.stored = true) := by
  intro st
  exact ⟨by decide, run_stores_after_read 0 [.read 0 100, .store 0] st (by decide)⟩

/-- No store leaves `global_vtime` earlier than just before it, as keeping a maximum would. -/
def NeverBackward (stores : List Store) : Prop :=
  ∀ st ∈ stores, vtimeBefore st.stored st.before = false

instance (stores : List Store) : Decidable (NeverBackward stores) :=
  inferInstanceAs (Decidable (∀ st ∈ stores, _))

/-- Two CPUs both read 0; the one running a task at 200 stores first, then the one running
a task at 100 overwrites it. -/
theorem running_lost_update :
    ¬ NeverBackward (run (Sys.init 0) [.read 0 100, .read 1 200, .store 1, .store 0]).2 := by
  decide

/-- The two steps run back to back on an idle CPU do what the callback does. -/
theorem read_store_eq_cxlRunning (s : State) (pid cpu : Nat) :
    (run (Sys.init s.globalVtime) [.read cpu (s.host.tasks pid).dsqVtime, .store cpu]).1.globalVtime =
      (cxlRunning s pid).globalVtime := by
  by_cases h : vtimeBefore s.globalVtime (s.host.tasks pid).dsqVtime <;>
    simp [run, step, Sys.init, cxlRunning, h]

end CxlScheduler.Minimal.Running
