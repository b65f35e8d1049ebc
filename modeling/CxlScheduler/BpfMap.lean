import CxlScheduler.SchedExt

set_option autoImplicit false

/-!
# BPF hash maps

A `BPF_MAP_TYPE_HASH` map as an association list. `bpf_map_update_elem` with `BPF_ANY`
replaces the value of a key already present and adds a new key only while the map holds
fewer than `max_entries` keys; otherwise it fails (`-E2BIG`) and changes nothing. Nothing
in the schedulers deletes an entry.
-/
namespace CxlScheduler.BpfHash

variable {β : Type}

def lookupElem : List (Nat × β) → Nat → Option β
  | [], _ => none
  | (k', v) :: es, k => if k = k' then some v else lookupElem es k

/-- The value of key `k` overwritten in place. -/
def replaceElem : List (Nat × β) → Nat → β → List (Nat × β)
  | [], _, _ => []
  | (k', v') :: es, k, v =>
    if k = k' then (k', v) :: replaceElem es k v else (k', v') :: replaceElem es k v

def updateElem (maxEntries : Nat) (m : List (Nat × β)) (k : Nat) (v : β) : List (Nat × β) :=
  if (lookupElem m k).isSome then replaceElem m k v
  else if m.length < maxEntries then m ++ [(k, v)] else m

theorem lookupElem_replaceElem (m : List (Nat × β)) (k j : Nat) (v : β) :
    lookupElem (replaceElem m k v) j =
      if j = k ∧ (lookupElem m k).isSome then some v else lookupElem m j := by
  induction m with
  | nil => simp [lookupElem, replaceElem]
  | cons e es ih =>
    obtain ⟨k', v'⟩ := e
    by_cases hk : k = k'
    · subst hk
      by_cases hj : j = k <;> simp_all [lookupElem, replaceElem]
    · have hk' : k' ≠ k := Ne.symm hk
      by_cases hj : j = k' <;> simp_all [lookupElem, replaceElem]

theorem lookupElem_append_single (m : List (Nat × β)) (k j : Nat) (v : β)
    (hm : lookupElem m k = none) :
    lookupElem (m ++ [(k, v)]) j = if j = k then some v else lookupElem m j := by
  induction m with
  | nil => simp [lookupElem]
  | cons e es ih =>
    obtain ⟨k', v'⟩ := e
    by_cases hk : k = k'
    · subst hk
      simp [lookupElem] at hm
    · have hk' : k' ≠ k := Ne.symm hk
      by_cases hj : j = k' <;> simp_all [lookupElem]

theorem lookupElem_updateElem (n : Nat) (m : List (Nat × β)) (k j : Nat) (v : β) :
    lookupElem (updateElem n m k v) j =
      if j = k ∧ ((lookupElem m k).isSome ∨ m.length < n) then some v else lookupElem m j := by
  unfold updateElem
  split
  · rename_i h
    simp [lookupElem_replaceElem, h]
  · rename_i h
    have hm : lookupElem m k = none := by simpa using h
    split
    · rename_i hn
      simp [lookupElem_append_single m k j v hm, hn]
    · rename_i hn
      by_cases hj : j = k
      · subst hj; simp [hm, hn]
      · simp [hj]

/-! ## Keys and capacity -/

/-- The keys, in the order they were added. -/
def keys (m : List (Nat × β)) : List Nat := m.map Prod.fst

/-- What `bpf_map_update_elem` does to the keys: a key already present stays where it is, a
new key is added at the end while there is room, and is refused once the map is full. -/
def admitKey (maxEntries : Nat) (ks : List Nat) (k : Nat) : List Nat :=
  if k ∈ ks then ks else if ks.length < maxEntries then ks ++ [k] else ks

theorem lookupElem_isSome_iff (m : List (Nat × β)) (k : Nat) :
    (lookupElem m k).isSome ↔ k ∈ keys m := by
  induction m with
  | nil => simp [lookupElem, keys]
  | cons e es ih =>
    by_cases hk : k = e.1 <;> simp_all [lookupElem, keys]

theorem keys_replaceElem (m : List (Nat × β)) (k : Nat) (v : β) : keys (replaceElem m k v) = keys m := by
  induction m with
  | nil => rfl
  | cons e es ih =>
    unfold replaceElem
    split <;> simp_all [keys]

theorem keys_updateElem (n : Nat) (m : List (Nat × β)) (k : Nat) (v : β) :
    keys (updateElem n m k v) = admitKey n (keys m) k := by
  have hlen : (keys m).length = m.length := List.length_map _ _
  simp only [updateElem, admitKey, ← lookupElem_isSome_iff, hlen]
  split_ifs
  · exact keys_replaceElem m k v
  · simp [keys]
  · rfl

theorem admitKey_isPrefix (n : Nat) (ks : List Nat) (k : Nat) : ks <+: admitKey n ks k := by
  unfold admitKey
  split_ifs <;> simp

theorem admitKey_nodup (n : Nat) (ks : List Nat) (k : Nat) (h : ks.Nodup) : (admitKey n ks k).Nodup := by
  unfold admitKey
  split_ifs with hk
  · exact h
  · exact h.append (List.nodup_singleton k) (by simpa using hk)
  · exact h

theorem admitKey_length_le (n : Nat) (ks : List Nat) (k : Nat) (h : ks.length ≤ n) :
    (admitKey n ks k).length ≤ n := by
  unfold admitKey
  split_ifs with _ hlt
  · exact h
  · simpa using hlt
  · exact h

theorem mem_admitKey (n : Nat) (ks : List Nat) (k : Nat) (h : ks.length ≤ n) :
    k ∈ admitKey n ks k ∨ (admitKey n ks k).length = n := by
  unfold admitKey
  split_ifs with hk hlt
  · exact .inl hk
  · exact .inl (List.mem_append_right _ (List.mem_singleton_self k))
  · exact .inr (by omega)

variable (n : Nat)

theorem foldl_admitKey_isPrefix (ks ps : List Nat) : ks <+: ps.foldl (admitKey n) ks := by
  induction ps generalizing ks with
  | nil => exact List.prefix_refl ks
  | cons p ps ih => exact (admitKey_isPrefix n ks p).trans (ih _)

/-- Over any run of updates from a map of at most `n` distinct keys, the keys stay
distinct and at most `n`, and every key updated is in, unless the map is full. -/
theorem foldl_admitKey (ks ps : List Nat) (hnd : ks.Nodup) (hlen : ks.length ≤ n) :
    (ps.foldl (admitKey n) ks).Nodup ∧ (ps.foldl (admitKey n) ks).length ≤ n ∧
      ∀ p ∈ ps, p ∈ ps.foldl (admitKey n) ks ∨ (ps.foldl (admitKey n) ks).length = n := by
  induction ps generalizing ks with
  | nil => simp [hnd, hlen]
  | cons p ps ih =>
    obtain ⟨hnd', hlen', hmem⟩ := ih _ (admitKey_nodup n ks p hnd) (admitKey_length_le n ks p hlen)
    refine ⟨hnd', hlen', fun q hq => ?_⟩
    rcases List.mem_cons.1 hq with rfl | hq
    · have hpre := foldl_admitKey_isPrefix n (admitKey n ks q) ps
      rcases mem_admitKey n ks q hlen with hin | hfull
      · exact .inl (hpre.subset hin)
      · exact .inr (le_antisymm hlen' (hfull.symm.le.trans hpre.length_le))
    · exact hmem q hq

theorem foldl_admitKey_full (ks ps : List Nat) (hfull : n ≤ ks.length) : ps.foldl (admitKey n) ks = ks := by
  induction ps with
  | nil => rfl
  | cons p ps ih =>
    have : admitKey n ks p = ks := by unfold admitKey; split_ifs <;> first | rfl | omega
    rw [List.foldl_cons, this, ih]

end CxlScheduler.BpfHash
