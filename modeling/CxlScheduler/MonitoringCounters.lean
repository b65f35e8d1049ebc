import CxlScheduler.Monitoring

set_option autoImplicit false

/-!
# `total_runtime` of `task_monitor` on many CPUs

`stats->total_runtime++` loads the counter through the pointer `bpf_map_lookup_elem`
returned, adds one and stores it back: three instructions, not an atomic add, which the
monitor uses for `cpu_usage` alone (`__sync_fetch_and_add`). Handlers on different CPUs run
at once, and several of them can increment one entry: wakeups fired by two threads of one
process, or such a wakeup and a switch into the process's main thread.

The model keeps the counters of the entries that exist when a run starts (nothing deletes
an entry; a handler that misses one creates it instead, which is not modelled here). A CPU
between its load and its store is `loaded`; besides the key and the value it loaded it
carries a ghost flag, not read by any step, saying whether another CPU has stored to that
counter since. Each store is reported with its key and that flag.

When no increment's load and store straddle another store to the same counter, every
increment counts (`run_serialized`), and handlers run one at a time give the counts of the
sequential model (`run_sequential`). In every interleaving an increment is lost or
counted once, never twice (`run_counted`), and once two CPUs have loaded one counter and
both store it, an increment of it is lost for good (`run_overlap`).
-/
namespace CxlScheduler.Monitoring.Counters

/-- The entry whose `total_runtime` a handler increments: the thread switched in, or the
waker's process. -/
def credited : Event → Nat
  | .schedSwitch _ _ next => next.tid
  | .schedWakeup current _ => current.tgid

theorem runtimeCredit_eq (k : Nat) (e : Event) :
    runtimeCredit k e = if credited e = k then 1 else 0 := by
  cases e <;> rfl

inductive Pc
  | idle
  | loaded (k : Nat) (v : BitVec 64) (stale : Bool)
  deriving DecidableEq, Repr

structure Sys where
  present : Nat → Bool
  totalRuntime : Nat → BitVec 64
  cpus : Nat → Pc

def Sys.init (present : Nat → Bool) (totalRuntime : Nat → BitVec 64) : Sys :=
  ⟨present, totalRuntime, fun _ => .idle⟩

/-- The load of the handler of `e` on `cpu`, or the store of the handler `cpu` is in. -/
inductive Step
  | load (cpu : Nat) (e : Event)
  | store (cpu : Nat)

structure Store where
  key : Nat
  stale : Bool
  deriving DecidableEq, Repr

def Pc.markStale (k : Nat) : Pc → Pc
  | .loaded k' v st => .loaded k' v (st || decide (k' = k))
  | .idle => .idle

/-- A CPU runs one handler at a time. A handler whose key is 0, or whose lookup finds no
entry, loads no counter (the switch handler then creates the entry, which is left to the
sequential model). -/
def step (s : Sys) : Step → Sys × Option Store
  | .load cpu e =>
    match s.cpus cpu with
    | .idle =>
      let k := credited e
      if 0 < k ∧ s.present k then
        ({ s with cpus := Function.update s.cpus cpu (.loaded k (s.totalRuntime k) false) }, none)
      else (s, none)
    | .loaded .. => (s, none)
  | .store cpu =>
    match s.cpus cpu with
    | .loaded k v st =>
      ({ s with totalRuntime := Function.update s.totalRuntime k (v + 1)
                cpus := Function.update (fun c => (s.cpus c).markStale k) cpu .idle },
        some ⟨k, st⟩)
    | .idle => (s, none)

/-- The final system and the stores, in order. -/
def run : Sys → List Step → Sys × List Store
  | s, [] => (s, [])
  | s, a :: as =>
    let r := step s a
    let rest := run r.1 as
    (rest.1, r.2.toList ++ rest.2)

/-- How many stores went to the counter of `k`. -/
def storesTo (k : Nat) (stores : List Store) : Nat := stores.countP (·.key = k)

@[simp] theorem storesTo_nil (k : Nat) : storesTo k [] = 0 := rfl

@[simp] theorem storesTo_singleton (j k : Nat) (st : Bool) :
    storesTo j [⟨k, st⟩] = if j = k then 1 else 0 := by
  by_cases h : j = k <;> simp [storesTo, h, Ne.symm]

@[simp] theorem storesTo_append (k : Nat) (xs ys : List Store) :
    storesTo k (xs ++ ys) = storesTo k xs + storesTo k ys :=
  List.countP_append ..

theorem Pc.markStale_eq_loaded {p : Pc} {k j : Nat} {v : BitVec 64} {st : Bool}
    (h : p.markStale k = .loaded j v st) : ∃ st', p = .loaded j v st' ∧ st = (st' || decide (j = k)) := by
  cases p with
  | idle => cases h
  | loaded j' v' st' =>
    simp only [markStale, loaded.injEq] at h
    obtain ⟨rfl, rfl, rfl⟩ := h
    exact ⟨st', rfl, rfl⟩

/-- What one step can do: nothing; a load by an idle CPU of an existing counter `k > 0`;
or the store of a loaded CPU, which marks the other CPUs loaded from that counter. -/
theorem step_cases (s : Sys) (a : Step) :
    step s a = (s, none) ∨
      (∃ cpu e k, a = .load cpu e ∧ credited e = k ∧ s.cpus cpu = .idle ∧ 0 < k ∧
        s.present k = true ∧
        step s a = ({ s with cpus := Function.update s.cpus cpu (.loaded k (s.totalRuntime k) false) },
          none)) ∨
      ∃ cpu k v st, a = .store cpu ∧ s.cpus cpu = .loaded k v st ∧
        step s a = ({ s with
          totalRuntime := Function.update s.totalRuntime k (v + 1)
          cpus := Function.update (fun c => (s.cpus c).markStale k) cpu .idle }, some ⟨k, st⟩) := by
  cases a with
  | load cpu e =>
    simp only [step]
    split
    · rename_i hc
      split_ifs with h
      exacts [.inr (.inl ⟨cpu, e, _, rfl, rfl, hc, h.1, h.2, rfl⟩), .inl rfl]
    · exact .inl rfl
  | store cpu =>
    simp only [step]
    split
    · rename_i k v st hc
      exact .inr (.inr ⟨cpu, k, v, st, rfl, hc, rfl⟩)
    · exact .inl rfl

/-- A property of the system and of the stores so far that every step keeps holds after
any run. -/
theorem run_inv (P : List Store → Sys → Prop) (Q : Store → Prop)
    (hstep : ∀ ss s a, P ss s → (∀ st ∈ (step s a).2, Q st) → P (ss ++ (step s a).2.toList) (step s a).1)
    (as : List Step) (s : Sys) (ss : List Store) (hs : P ss s) (hq : ∀ st ∈ (run s as).2, Q st) :
    P (ss ++ (run s as).2) (run s as).1 := by
  induction as generalizing s ss with
  | nil => simpa [run] using hs
  | cons a as ih =>
    simp only [run, List.mem_append, Option.mem_toList] at hq ⊢
    have := ih _ _ (hstep ss s a hs fun st h => hq st (.inl h)) fun st h => hq st (.inr h)
    simpa only [List.append_assoc] using this

/-! ## Serialized increments count -/

/-- The counters are the initial ones plus `n k` increments each, and a CPU that no store
has overtaken holds the current value of its counter. -/
def Exact (c : Nat → BitVec 64) (n : Nat → Nat) (s : Sys) : Prop :=
  (∀ k, s.totalRuntime k = c k + BitVec.ofNat 64 (n k)) ∧
    ∀ cpu k v, s.cpus cpu = .loaded k v false → v = s.totalRuntime k

theorem step_exact (c : Nat → BitVec 64) (n : Nat → Nat) (s : Sys) (a : Step) (hs : Exact c n s)
    (hst : ∀ st ∈ (step s a).2, st.stale = false) :
    Exact c (fun k => n k + storesTo k (step s a).2.toList) (step s a).1 := by
  obtain ⟨hc, hv⟩ := hs
  rcases step_cases s a with h | ⟨cpu, e, k, -, -, -, -, -, h⟩ | ⟨cpu, k, v, st, -, hk, h⟩ <;>
    rw [h] at hst ⊢
  · simp only [Option.toList_none, storesTo_nil, Nat.add_zero]
    exact ⟨hc, hv⟩
  · simp only [Option.toList_none, storesTo_nil, Nat.add_zero]
    refine ⟨hc, fun cpu' j w h' => ?_⟩
    simp only [Function.update_apply] at h'
    split_ifs at h'
    · cases h'
      rfl
    · exact hv _ _ _ h'
  · obtain rfl : st = false := hst ⟨k, st⟩ rfl
    refine ⟨fun j => ?_, fun cpu' j w h' => ?_⟩
    · simp only [Function.update_apply, Option.toList_some, storesTo_singleton]
      split_ifs with hj
      · subst hj
        rw [hv cpu j v hk, hc, BitVec.ofNat_add, BitVec.add_assoc]
        rfl
      · simpa using hc j
    · simp only [Function.update_apply] at h' ⊢
      split_ifs at h' with hcpu
      obtain ⟨st', hp, hs'⟩ := Pc.markStale_eq_loaded h'
      obtain ⟨rfl, hjk⟩ := Bool.or_eq_false_iff.1 hs'.symm
      simpa [of_decide_eq_false hjk] using hv _ _ _ hp

/-- Over any interleaving in which no increment is overtaken, each counter is its initial
value plus the increments stored to it. -/
theorem run_serialized (present : Nat → Bool) (c : Nat → BitVec 64) (as : List Step)
    (hser : ∀ st ∈ (run (Sys.init present c) as).2, st.stale = false) (k : Nat) :
    (run (Sys.init present c) as).1.totalRuntime k =
      c k + BitVec.ofNat 64 (storesTo k (run (Sys.init present c) as).2) := by
  have h0 : Exact c (fun k => storesTo k []) (Sys.init present c) :=
    ⟨fun k => by simp [Sys.init], fun _ _ _ h => by cases h⟩
  have := run_inv (fun ss s => Exact c (fun k => storesTo k ss) s) _
    (fun ss s a hs hq => by simpa only [storesTo_append] using step_exact c _ s a hs hq) as _ [] h0 hser
  simpa using this.1 k

theorem run_serialized_wakeups :
    let r := run (Sys.init (fun _ => true) fun _ => 5)
      [.load 0 (.schedWakeup ⟨11, 10, ['a']⟩ ⟨20, 20, ['b']⟩), .store 0,
        .load 1 (.schedWakeup ⟨12, 10, ['a']⟩ ⟨21, 21, ['b']⟩), .store 1]
    (∀ st ∈ r.2, st.stale = false) ∧ r.1.totalRuntime 10 = 5 + BitVec.ofNat 64 (storesTo 10 r.2) :=
  ⟨by decide, run_serialized _ _ _ (by decide) 10⟩

/-! ## No increment is counted twice -/

/-- Each counter is its initial value plus at most `n k` increments, at least one once a
store has reached it; each value a CPU has loaded is such a value too. -/
def Bounded (c : Nat → BitVec 64) (n : Nat → Nat) (s : Sys) : Prop :=
  (∀ k, ∃ m ≤ n k, (0 < n k → 0 < m) ∧ s.totalRuntime k = c k + BitVec.ofNat 64 m) ∧
    ∀ cpu k v st, s.cpus cpu = .loaded k v st → ∃ m ≤ n k, v = c k + BitVec.ofNat 64 m

theorem step_bounded (c : Nat → BitVec 64) (n : Nat → Nat) (s : Sys) (a : Step)
    (hs : Bounded c n s) : Bounded c (fun k => n k + storesTo k (step s a).2.toList) (step s a).1 := by
  obtain ⟨hc, hv⟩ := hs
  rcases step_cases s a with h | ⟨cpu, e, k, -, -, -, -, -, h⟩ | ⟨cpu, k, v, st, -, hk, h⟩ <;> rw [h]
  · simp only [Option.toList_none, storesTo_nil, Nat.add_zero]
    exact ⟨hc, hv⟩
  · simp only [Option.toList_none, storesTo_nil, Nat.add_zero]
    refine ⟨hc, fun cpu' j w st' h' => ?_⟩
    simp only [Function.update_apply] at h'
    split_ifs at h'
    · cases h'
      obtain ⟨m, hm, -, hw⟩ := hc k
      exact ⟨m, hm, hw⟩
    · exact hv _ _ _ _ h'
  · refine ⟨fun j => ?_, fun cpu' j w st' h' => ?_⟩
    · simp only [Function.update_apply, Option.toList_some, storesTo_singleton]
      split_ifs with hj
      · subst hj
        obtain ⟨m, hm, rfl⟩ := hv cpu j v st hk
        refine ⟨m + 1, by omega, fun _ => m.succ_pos, ?_⟩
        rw [BitVec.ofNat_add, BitVec.add_assoc]
        rfl
      · simpa using hc j
    · simp only [Function.update_apply] at h'
      split_ifs at h'
      obtain ⟨st'', hp, -⟩ := Pc.markStale_eq_loaded h'
      obtain ⟨m, hm, hw⟩ := hv _ _ _ _ hp
      exact ⟨m, Nat.le_add_right_of_le hm, hw⟩

/-- Over any interleaving, each counter is its initial value plus at most one increment per
store to it, and at least one once there has been a store: increments can be lost but
never counted twice. -/
theorem run_counted (present : Nat → Bool) (c : Nat → BitVec 64) (as : List Step) (k : Nat) :
    ∃ m ≤ storesTo k (run (Sys.init present c) as).2,
      (0 < storesTo k (run (Sys.init present c) as).2 → 0 < m) ∧
        (run (Sys.init present c) as).1.totalRuntime k = c k + BitVec.ofNat 64 m := by
  have h0 : Bounded c (fun k => storesTo k []) (Sys.init present c) :=
    ⟨fun k => ⟨0, le_rfl, id, by simp [Sys.init]⟩, fun _ _ _ _ h => by cases h⟩
  have := run_inv (fun ss s => Bounded c (fun k => storesTo k ss) s) (fun _ => True)
    (fun ss s a h _ => by simpa only [storesTo_append] using step_bounded c _ s a h) as _ [] h0
    fun _ _ => trivial
  simpa using this.1 k

/-! ## Handlers one at a time -/

/-- The handlers run one at a time, each on its own CPU: its load, then its store. -/
def sequential (hs : List (Nat × Event)) : List Step :=
  hs.flatMap fun h => [.load h.1 h.2, .store h.1]

theorem run_append (s : Sys) (as bs : List Step) :
    run s (as ++ bs) = ((run (run s as).1 bs).1, (run s as).2 ++ (run (run s as).1 bs).2) := by
  induction as generalizing s with
  | nil => simp [run]
  | cons a as ih => simp [run, ih]

theorem run_handler (s : Sys) (cpu : Nat) (e : Event) (hidle : ∀ c, s.cpus c = .idle) :
    let r := run s [.load cpu e, .store cpu]
    (∀ c, r.1.cpus c = .idle) ∧ r.1.present = s.present ∧ (∀ st ∈ r.2, st.stale = false) ∧
      ∀ k, 0 < k → s.present k = true →
        r.1.totalRuntime k = s.totalRuntime k + BitVec.ofNat 64 (runtimeCredit k e) := by
  simp only [run, step, hidle, runtimeCredit_eq]
  split_ifs with h
  all_goals simp only [hidle, Function.update_same, List.append_nil, Option.toList_some,
    Option.toList_none, List.mem_singleton, List.not_mem_nil]
  · refine ⟨fun c => ?_, trivial, by simp, fun j _ _ => ?_⟩
    · by_cases hc : c = cpu
      · subst hc
        exact Function.update_same _ _ _
      · simp only [Function.update_noteq hc, hidle, Pc.markStale]
    · by_cases hj : credited e = j
      · subst hj
        simp
      · simp [Function.update_noteq (Ne.symm hj), hj]
  · refine ⟨fun _ => trivial, trivial, fun _ h => h.elim, fun j hj hpj => ?_⟩
    have : credited e ≠ j := fun he => h ⟨he ▸ hj, he ▸ hpj⟩
    simp [this]

theorem run_sequential_from (s : Sys) (hs : List (Nat × Event)) (hidle : ∀ c, s.cpus c = .idle) :
    let r := run s (sequential hs)
    (∀ c, r.1.cpus c = .idle) ∧ r.1.present = s.present ∧ (∀ st ∈ r.2, st.stale = false) ∧
      ∀ k, 0 < k → s.present k = true →
        r.1.totalRuntime k = s.totalRuntime k + BitVec.ofNat 64 (hs.map (runtimeCredit k ·.2)).sum := by
  induction hs generalizing s with
  | nil => simpa [sequential, run] using hidle
  | cons h hs ih =>
    obtain ⟨h1, h2, h3, h4⟩ := run_handler s h.1 h.2 hidle
    obtain ⟨g1, g2, g3, g4⟩ := ih _ h1
    have hsplit : sequential (h :: hs) = [.load h.1 h.2, .store h.1] ++ sequential hs := rfl
    dsimp only at h1 h2 h3 h4 g1 g2 g3 g4 ⊢
    rw [hsplit, run_append]
    refine ⟨g1, g2.trans h2, fun st hst => ?_, fun k hk hp => ?_⟩
    · rcases List.mem_append.1 hst with hst | hst
      exacts [h3 st hst, g3 st hst]
    · rw [g4 k hk (h2 ▸ hp), h4 k hk hp, List.map_cons, List.sum_cons, BitVec.ofNat_add,
        BitVec.add_assoc]

/-- Run one at a time, the handlers credit each existing entry `k > 0` exactly as the
sequential model does: one increment for each switch into thread `k` and each wakeup by a
task of process `k`. -/
theorem run_sequential (present : Nat → Bool) (c : Nat → BitVec 64) (hs : List (Nat × Event))
    (k : Nat) (hk : 0 < k) (hp : present k = true) :
    (∀ st ∈ (run (Sys.init present c) (sequential hs)).2, st.stale = false) ∧
      (run (Sys.init present c) (sequential hs)).1.totalRuntime k =
        c k + BitVec.ofNat 64 (hs.map (runtimeCredit k ·.2)).sum :=
  have h := run_sequential_from (Sys.init present c) hs fun _ => rfl
  ⟨h.2.2.1, h.2.2.2 k hk hp⟩

theorem run_sequential_wakeups :
    let r := run (Sys.init (fun _ => true) fun _ => 5)
      (sequential [(0, .schedWakeup ⟨11, 10, ['a']⟩ ⟨20, 20, ['b']⟩),
        (1, .schedWakeup ⟨12, 10, ['a']⟩ ⟨21, 21, ['b']⟩)])
    (∀ st ∈ r.2, st.stale = false) ∧ r.1.totalRuntime 10 = 7 :=
  run_sequential _ _ _ 10 (by decide) rfl

/-! ## Overlapping increments -/

/-- The counter of `k` is its initial value plus `m` increments, with `m` below the stores
to `k` once one of them was overtaken; a CPU loaded from `k` holds a value that is the
current one if no store overtook it, and an earlier one otherwise. -/
def Lossy (c : Nat → BitVec 64) (k : Nat) (ss : List Store) (s : Sys) : Prop :=
  ∃ m ≤ storesTo k ss, s.totalRuntime k = c k + BitVec.ofNat 64 m ∧
    ((∃ st ∈ ss, st.key = k ∧ st.stale = true) → m < storesTo k ss) ∧
    ∀ cpu v st, s.cpus cpu = .loaded k v st → ∃ mv ≤ storesTo k ss,
      v = c k + BitVec.ofNat 64 mv ∧ (st = false → mv = m) ∧ (st = true → mv < storesTo k ss)

theorem step_lossy (c : Nat → BitVec 64) (k : Nat) (ss : List Store) (s : Sys) (a : Step)
    (hs : Lossy c k ss s) : Lossy c k (ss ++ (step s a).2.toList) (step s a).1 := by
  obtain ⟨m, hm, hc, hlost, hv⟩ := hs
  rcases step_cases s a with h | ⟨cpu, e, j, -, -, -, -, -, h⟩ | ⟨cpu, j, w, st, -, hj, h⟩ <;> rw [h]
  · simp only [Option.toList_none, List.append_nil]
    exact ⟨m, hm, hc, hlost, hv⟩
  · simp only [Option.toList_none, List.append_nil]
    refine ⟨m, hm, hc, hlost, fun cpu' v st' h' => ?_⟩
    simp only [Function.update_apply] at h'
    split_ifs at h'
    · cases h'
      exact ⟨m, hm, hc, fun _ => rfl, fun h => by cases h⟩
    · exact hv _ _ _ h'
  · simp only [Option.toList_some]
    by_cases hjk : j = k
    · subst hjk
      obtain ⟨mv, hmv, rfl, hf, ht⟩ := hv cpu _ _ hj
      have hn : storesTo j (ss ++ [⟨j, st⟩]) = storesTo j ss + 1 := by simp
      refine ⟨mv + 1, by omega, ?_, fun ⟨st0, hmem, hk0, hs0⟩ => ?_, fun cpu' v st' h' => ?_⟩
      · simp [BitVec.ofNat_add, BitVec.add_assoc]
      · rw [hn]
        rcases List.mem_append.1 hmem with hin | hin
        · cases st
          · have := hlost ⟨st0, hin, hk0, hs0⟩
            rw [hf rfl]
            omega
          · have := ht rfl
            omega
        · obtain rfl := List.mem_singleton.1 hin
          have := ht hs0
          omega
      · simp only [Function.update_apply] at h'
        split_ifs at h'
        obtain ⟨st0, hp, rfl⟩ := Pc.markStale_eq_loaded h'
        obtain ⟨mv', hmv', hv', -, -⟩ := hv _ _ _ hp
        exact ⟨mv', by omega, by simpa using hv', by simp, fun _ => by omega⟩
    · have hn : storesTo k (ss ++ [⟨j, st⟩]) = storesTo k ss := by simp [Ne.symm hjk]
      refine ⟨m, hn ▸ hm, by simpa [Function.update_noteq (Ne.symm hjk)] using hc,
        fun ⟨st0, hmem, hk0, hs0⟩ => ?_, fun cpu' v st' h' => ?_⟩
      · rw [hn]
        rcases List.mem_append.1 hmem with hin | hin
        · exact hlost ⟨st0, hin, hk0, hs0⟩
        · obtain rfl := List.mem_singleton.1 hin
          exact absurd hk0 hjk
      · simp only [Function.update_apply] at h'
        split_ifs at h'
        obtain ⟨st0, hp, rfl⟩ := Pc.markStale_eq_loaded h'
        simpa [hn, Ne.symm hjk] using hv _ _ _ hp

theorem run_lossy (present : Nat → Bool) (c : Nat → BitVec 64) (as : List Step) (k : Nat) :
    Lossy c k (run (Sys.init present c) as).2 (run (Sys.init present c) as).1 := by
  have h0 : Lossy c k [] (Sys.init present c) := by
    refine ⟨0, le_rfl, by simp [Sys.init], ?_, fun _ _ _ h => by cases h⟩
    rintro ⟨_, h, _⟩
    cases h
  simpa using run_inv (Lossy c k) (fun _ => True) (fun ss s a h _ => step_lossy c k ss s a h) as _ []
    h0 fun _ _ => trivial

theorem step_loaded (s : Sys) (a : Step) (cpu k : Nat) (v : BitVec 64) (st : Bool)
    (h : s.cpus cpu = .loaded k v st) (ha : a ≠ .store cpu) :
    ∃ st', (step s a).1.cpus cpu = .loaded k v st' ∧ (st = true → st' = true) := by
  rcases step_cases s a with hs | ⟨cpu', e, j, -, -, hidle, -, -, hs⟩ | ⟨cpu', j, w, st'', rfl, -, hs⟩ <;>
    rw [hs]
  · exact ⟨st, h, id⟩
  · have hc : cpu ≠ cpu' := fun he => by rw [he, hidle] at h; cases h
    exact ⟨st, by simp [Function.update_noteq hc, h], id⟩
  · have hc : cpu ≠ cpu' := fun he => ha (he ▸ rfl)
    exact ⟨st || decide (k = j), by simp [Function.update_noteq hc, h, Pc.markStale],
      fun hst => by simp [hst]⟩

theorem run_stale_of_overtaken (s : Sys) (as : List Step) (cpu k : Nat) (v : BitVec 64)
    (h : s.cpus cpu = .loaded k v true) (has : Step.store cpu ∈ as) :
    ∃ st ∈ (run s as).2, st.key = k ∧ st.stale = true := by
  induction as generalizing s with
  | nil => cases has
  | cons a as ih =>
    simp only [run, List.mem_append, Option.mem_toList]
    by_cases ha : a = .store cpu
    · subst ha
      exact ⟨⟨k, true⟩, .inl (by simp [step, h]), rfl, rfl⟩
    · obtain ⟨st', hst', hst⟩ := step_loaded s a cpu k v true h ha
      obtain ⟨st, hm, hk, hs⟩ := ih _ (by rw [hst', hst rfl])
        ((List.mem_cons.1 has).resolve_left fun he => ha he.symm)
      exact ⟨st, .inr hm, hk, hs⟩

theorem run_after_store (s : Sys) (as : List Step) (x y k : Nat) (hxy : x ≠ y)
    (hx : ∃ v st, s.cpus x = .loaded k v st) (hy : ∃ v st, s.cpus y = .loaded k v st)
    (has : Step.store y ∈ as) :
    ∃ st ∈ (run (step s (.store x)).1 as).2, st.key = k ∧ st.stale = true := by
  obtain ⟨v, st, hx⟩ := hx
  obtain ⟨w, st', hy⟩ := hy
  refine run_stale_of_overtaken _ as y k w ?_ has
  simp [step, hx, hy, Function.update_noteq (Ne.symm hxy), Pc.markStale]

/-- Two CPUs loaded from one counter: a run in which both store reports a stale store to
it, whichever stores first and whatever steps come between. -/
theorem run_overtaken (s : Sys) (as : List Step) (cpu cpu' k : Nat) (hc : cpu ≠ cpu')
    (h1 : ∃ v st, s.cpus cpu = .loaded k v st) (h2 : ∃ v st, s.cpus cpu' = .loaded k v st)
    (hs1 : Step.store cpu ∈ as) (hs2 : Step.store cpu' ∈ as) :
    ∃ st ∈ (run s as).2, st.key = k ∧ st.stale = true := by
  induction as generalizing s with
  | nil => cases hs1
  | cons a as ih =>
    simp only [run, List.mem_append, Option.mem_toList]
    have mem_of_ne : ∀ x, Step.store x ∈ a :: as → a ≠ .store x → Step.store x ∈ as :=
      fun x hx ha => (List.mem_cons.1 hx).resolve_left fun he => ha he.symm
    have hne : Step.store cpu ≠ Step.store cpu' := fun he => hc (Step.store.inj he)
    by_cases ha : a = .store cpu
    · subst ha
      obtain ⟨st, hm, hk⟩ := run_after_store s as cpu cpu' k hc h1 h2 (mem_of_ne _ hs2 hne)
      exact ⟨st, .inr hm, hk⟩
    by_cases ha' : a = .store cpu'
    · subst ha'
      obtain ⟨st, hm, hk⟩ := run_after_store s as cpu' cpu k hc.symm h2 h1 (mem_of_ne _ hs1 hne.symm)
      exact ⟨st, .inr hm, hk⟩
    obtain ⟨v, st, h1⟩ := h1
    obtain ⟨v', st', h2⟩ := h2
    obtain ⟨b, hb, -⟩ := step_loaded s a cpu k v st h1 ha
    obtain ⟨b', hb', -⟩ := step_loaded s a cpu' k v' st' h2 ha'
    obtain ⟨st, hm, hk⟩ := ih _ ⟨v, b, hb⟩ ⟨v', b', hb'⟩ (mem_of_ne _ hs1 ha) (mem_of_ne _ hs2 ha')
    exact ⟨st, .inr hm, hk⟩

/-- Over any interleaving from the initial counters, once two handlers on different CPUs
have both loaded the counter of `k` (any steps before, any order of the two loads) and the
run then has both of them store it (in either order, with any steps between), the counter
ends below its initial value plus the stores to it: an increment is lost for good. -/
theorem run_overlap (present : Nat → Bool) (c : Nat → BitVec 64) (pre post : List Step)
    (cpu cpu' k : Nat) (hc : cpu ≠ cpu')
    (h1 : ∃ v st, (run (Sys.init present c) pre).1.cpus cpu = .loaded k v st)
    (h2 : ∃ v st, (run (Sys.init present c) pre).1.cpus cpu' = .loaded k v st)
    (hs1 : Step.store cpu ∈ post) (hs2 : Step.store cpu' ∈ post) :
    ∃ m < storesTo k (run (Sys.init present c) (pre ++ post)).2,
      (run (Sys.init present c) (pre ++ post)).1.totalRuntime k = c k + BitVec.ofNat 64 m := by
  obtain ⟨m, -, hm, hlost, -⟩ := run_lossy present c (pre ++ post) k
  refine ⟨m, hlost ?_, hm⟩
  obtain ⟨st, hst, hk⟩ := run_overtaken _ post cpu cpu' k hc h1 h2 hs1 hs2
  rw [run_append]
  exact ⟨st, List.mem_append_right _ hst, hk⟩

theorem lost_increment :
    let w : Event := .schedWakeup ⟨11, 10, ['a']⟩ ⟨20, 20, ['b']⟩
    let w' : Event := .schedWakeup ⟨12, 10, ['a']⟩ ⟨21, 21, ['b']⟩
    let s := Sys.init (fun _ => true) fun _ => 5
    let pre := [Step.load 0 w, .load 1 w']
    let post := [Step.store 1, .load 2 w, .store 0]
    ∃ m < storesTo 10 (run s (pre ++ post)).2,
      (run s (pre ++ post)).1.totalRuntime 10 = 5 + BitVec.ofNat 64 m := by
  intro w w' s pre post
  exact run_overlap _ _ pre post 0 1 10 (by decide) ⟨_, _, rfl⟩ ⟨_, _, rfl⟩ (by simp [post])
    (by simp [post])

end CxlScheduler.Monitoring.Counters
