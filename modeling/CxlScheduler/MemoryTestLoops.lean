import CxlScheduler.MemoryTestArgs

set_option autoImplicit false

/-!
# The benchmark threads of `cxl_memory_test.cpp`

Each reader and writer thread copies `block_size` bytes at `offset` of a buffer, then sets
`offset = (offset + block_size) % (buffer_size - block_size)`; the interleave threads also
pick the buffer `buffer_idx % buffers.size()`. `main` hands them the sizes `parse_args`
returned, and nothing checks that the block is smaller than the buffer.

Pass `k` copies at `k * block_size` modulo `buffer_size - block_size` (`offsetAt_eq`), so no
pass touches the last byte of a buffer (`offsetAt_tail_untouched`). The interleave threads
get one buffer for each address of `-p`, and `main` prints that list in a form `-p` reads
back (`parseArgs_printAddrs`); in multi mode, the count of `-c` nodes sets the number of
buffers only when `-c` follows `-m multi` (`parseArgs_cxlNodes_order`).
-/
namespace CxlScheduler.MemoryTest

/-- How many buffers the threads share once `main` has set them up, each of `buffer_size`
bytes, when every mapping and allocation succeeds (on a failure `main` returns before it
starts a thread). -/
def bufferCount (config : TestConfig) : Nat :=
  match config.mode with
  | .cxlInterleave => config.cxlPhysicalAddrs.length
  | .cxlMulti => config.numCxlBuffers.toNat
  | _ => 1

/-- Whether `main` starts the interleave threads rather than the system ones. -/
def interleaved (config : TestConfig) : Bool :=
  config.mode = .cxlInterleave || config.mode = .cxlMulti

/-- The end of a pass; `none` when the modulus is zero, a division by zero. -/
def nextOffset (bufferSize blockSize offset : BitVec 64) : Option (BitVec 64) :=
  if bufferSize - blockSize = 0 then none
  else some ((offset + blockSize) % (bufferSize - blockSize))

/-- The offset pass `k` of a thread copies at; `none` once a pass divided by zero. -/
def offsetAt (bufferSize blockSize : BitVec 64) : Nat → Option (BitVec 64)
  | 0 => some 0
  | k + 1 => (offsetAt bufferSize blockSize k).bind (nextOffset bufferSize blockSize)

/-- What pass `k` of a thread over `n` buffers needs: a nonzero buffer count for the
interleave threads, a modulus `buffer_size - block_size` that neither wraps nor is zero,
and a copy of `[offset, offset + block_size)` inside the buffer. -/
def PassSafe (bufferSize blockSize : BitVec 64) (n : Nat) (interleaved : Bool) (k : Nat) : Prop :=
  (interleaved = true → 0 < n) ∧ blockSize.toNat < bufferSize.toNat ∧
    (offsetAt bufferSize blockSize k).any (fun offset => offset.toNat + blockSize.toNat ≤ bufferSize.toNat)

instance (bufferSize blockSize : BitVec 64) (n : Nat) (interleaved : Bool) (k : Nat) :
    Decidable (PassSafe bufferSize blockSize n interleaved k) :=
  inferInstanceAs (Decidable (_ ∧ _ ∧ _))

theorem nextOffset_lt (bufferSize blockSize offset : BitVec 64)
    (hlt : blockSize.toNat < bufferSize.toNat) (h : offset.toNat + blockSize.toNat ≤ bufferSize.toNat) :
    ∃ offset', nextOffset bufferSize blockSize offset = some offset' ∧
      offset'.toNat + blockSize.toNat < bufferSize.toNat := by
  have hm : (bufferSize - blockSize).toNat = bufferSize.toNat - blockSize.toNat := by bv_omega
  have hs : (offset + blockSize).toNat = offset.toNat + blockSize.toNat := by bv_omega
  have hne : bufferSize - blockSize ≠ 0 := by bv_omega
  refine ⟨_, if_neg hne, ?_⟩
  have := Nat.mod_lt (offset + blockSize).toNat (show 0 < (bufferSize - blockSize).toNat by omega)
  rw [BitVec.toNat_umod]
  omega

theorem offsetAt_bound (bufferSize blockSize : BitVec 64) (hlt : blockSize.toNat < bufferSize.toNat)
    (k : Nat) : ∃ offset, offsetAt bufferSize blockSize k = some offset ∧
      offset.toNat + blockSize.toNat ≤ bufferSize.toNat := by
  induction k with
  | zero => exact ⟨0, rfl, by simpa using hlt.le⟩
  | succ k ih =>
    obtain ⟨offset, hk, hb⟩ := ih
    obtain ⟨offset', hn, hb'⟩ := nextOffset_lt bufferSize blockSize offset hlt hb
    exact ⟨offset', by simp [offsetAt, hk, hn], hb'.le⟩

/-- Every pass of a thread is safe exactly when the block is smaller than the buffer and,
for the interleave threads, there is a buffer. -/
theorem passSafe_iff (bufferSize blockSize : BitVec 64) (n : Nat) (interleaved : Bool) (k : Nat) :
    PassSafe bufferSize blockSize n interleaved k ↔
      (interleaved = true → 0 < n) ∧ blockSize.toNat < bufferSize.toNat := by
  refine ⟨fun h => ⟨h.1, h.2.1⟩, fun ⟨hn, hlt⟩ => ⟨hn, hlt, ?_⟩⟩
  obtain ⟨offset, hk, hb⟩ := offsetAt_bound bufferSize blockSize hlt k
  simpa [hk] using hb

/-- Whatever sizes `-b` and `-s` convert to, `parse_args` returns them; when the block is not
smaller than the buffer, no pass of the system threads is safe. -/
theorem parseArgs_block_unchecked (stof : String → Except ParseEnd FloatValue) (sb ss : String)
    (bufferSize blockSize : BitVec 64) (hb : stoull sb 10 = .ok bufferSize)
    (hs : stoull ss 10 = .ok blockSize) (hle : bufferSize.toNat ≤ blockSize.toNat) (k : Nat) :
    ∃ config, parseArgs stof [('b', sb), ('s', ss)] = .ok config ∧
      ¬ PassSafe config.bufferSize config.blockSize (bufferCount config) (interleaved config) k := by
  refine ⟨_, parseArgs_sizes stof sb ss _ _ hb hs, ?_⟩
  rw [passSafe_iff]
  exact fun h => absurd h.2 (Nat.not_lt.2 hle)

/-- `-b 4096 -s 4096`: the system threads' first pass divides by zero. `-m interleave -p ""`:
no buffer is mapped and the interleave threads take an index modulo zero. -/
theorem parseArgs_unsafe_passes (stof : String → Except ParseEnd FloatValue) :
    let equal : TestConfig := { TestConfig.defaults with bufferSize := 4096, blockSize := 4096 }
    let empty : TestConfig :=
      { TestConfig.defaults with
        mode := .cxlInterleave, enableInterleave := true, cxlPhysicalAddrs := [] }
    parseArgs stof [('b', "4096"), ('s', "4096")] = .ok equal ∧
      offsetAt equal.bufferSize equal.blockSize 1 = none ∧
      ¬ PassSafe equal.bufferSize equal.blockSize (bufferCount equal) (interleaved equal) 0 ∧
      parseArgs stof [('m', "interleave"), ('p', "")] = .ok empty ∧ bufferCount empty = 0 ∧
      ¬ PassSafe empty.bufferSize empty.blockSize (bufferCount empty) (interleaved empty) 0 :=
  ⟨rfl, by decide, (passSafe_iff _ _ _ _ 0).not.2 (by decide), rfl, rfl,
    (passSafe_iff _ _ _ _ 0).not.2 (by decide)⟩

/-! ## The offsets in closed form -/

theorem offsetAt_eq (bufferSize blockSize : BitVec 64) (hlt : blockSize.toNat < bufferSize.toNat)
    (k : Nat) : ∃ offset, offsetAt bufferSize blockSize k = some offset ∧
      offset.toNat = k * blockSize.toNat % (bufferSize.toNat - blockSize.toNat) := by
  have hm : (bufferSize - blockSize).toNat = bufferSize.toNat - blockSize.toNat :=
    BitVec.toNat_sub_of_le (BitVec.le_def.2 hlt.le)
  have hne : bufferSize - blockSize ≠ 0 := fun h => by simp [h] at hm; omega
  induction k with
  | zero => exact ⟨0, rfl, by simp⟩
  | succ k ih =>
    obtain ⟨offset, hk, hv⟩ := ih
    have hlt' : offset.toNat < bufferSize.toNat - blockSize.toNat := hv ▸ Nat.mod_lt _ (by omega)
    have hs : (offset + blockSize).toNat = offset.toNat + blockSize.toNat :=
      BitVec.toNat_add_of_lt (by have := bufferSize.isLt; omega)
    refine ⟨(offset + blockSize) % (bufferSize - blockSize),
      by simp only [offsetAt, hk, Option.some_bind, nextOffset, if_neg hne], ?_⟩
    rw [BitVec.toNat_umod, hs, hm, hv, Nat.mod_add_mod, Nat.succ_mul]

/-- Pass `k` copies at `k * block_size` modulo `buffer_size - block_size`, so no pass of a
thread reaches the last byte of its buffer; when the block size divides the buffer size, no
pass reaches the buffer's last block. -/
theorem offsetAt_tail_untouched (bufferSize blockSize : BitVec 64)
    (hlt : blockSize.toNat < bufferSize.toNat) (k : Nat) :
    ∃ offset, offsetAt bufferSize blockSize k = some offset ∧
      offset.toNat = k * blockSize.toNat % (bufferSize.toNat - blockSize.toNat) ∧
      offset.toNat + blockSize.toNat < bufferSize.toNat ∧
      (blockSize.toNat ∣ bufferSize.toNat →
        offset.toNat + blockSize.toNat ≤ bufferSize.toNat - blockSize.toNat) := by
  obtain ⟨offset, hk, hv⟩ := offsetAt_eq bufferSize blockSize hlt k
  have hm : 0 < bufferSize.toNat - blockSize.toNat := by omega
  have hlt' : offset.toNat < bufferSize.toNat - blockSize.toNat := hv ▸ Nat.mod_lt _ hm
  refine ⟨offset, hk, hv, by omega, fun hdvd => ?_⟩
  have hbm : blockSize.toNat ∣ bufferSize.toNat - blockSize.toNat := Nat.dvd_sub' hdvd dvd_rfl
  have hbo : blockSize.toNat ∣ offset.toNat :=
    hv ▸ (Nat.dvd_mod_iff hbm).2 (Dvd.intro_left k rfl)
  obtain ⟨q, hq⟩ := hbo
  obtain ⟨r, hr⟩ := hbm
  rw [hq, hr] at hlt' ⊢
  have : q < r := Nat.lt_of_mul_lt_mul_left hlt'
  calc blockSize.toNat * q + blockSize.toNat = blockSize.toNat * (q + 1) := by ring
    _ ≤ blockSize.toNat * r := Nat.mul_le_mul_left _ this

theorem offsetAt_tail_untouched_defaults :
    TestConfig.defaults.blockSize.toNat < TestConfig.defaults.bufferSize.toNat ∧
      ∃ offset, offsetAt TestConfig.defaults.bufferSize TestConfig.defaults.blockSize 1 = some offset ∧
        offset.toNat = 1 * TestConfig.defaults.blockSize.toNat %
          (TestConfig.defaults.bufferSize.toNat - TestConfig.defaults.blockSize.toNat) ∧
        offset.toNat + TestConfig.defaults.blockSize.toNat < TestConfig.defaults.bufferSize.toNat ∧
        (TestConfig.defaults.blockSize.toNat ∣ TestConfig.defaults.bufferSize.toNat →
          offset.toNat + TestConfig.defaults.blockSize.toNat ≤
            TestConfig.defaults.bufferSize.toNat - TestConfig.defaults.blockSize.toNat) :=
  ⟨by decide, offsetAt_tail_untouched _ _ (by decide) 1⟩

/-! ## The lists of `-c` and `-p` -/

/-- How `main` prints an address: `"0x" << std::hex << addr`. -/
def showAddr (a : BitVec 64) : String := "0x" ++ (Nat.toDigits 16 a.toNat).asString

theorem stoull_showAddr (a : BitVec 64) : stoull (showAddr a) 16 = .ok a := by
  obtain ⟨d, rest, w, hd, hw, hh, hr⟩ := toDigits_spec 16 a.toNat (by decide) le_rfl
  have hc : (digitValue 16 (Nat.digitChar d)).isSome := by
    rw [digitValue_digitChar 16 d hd le_rfl]
    rfl
  show stoull (String.mk ('0' :: 'x' :: Nat.toDigits 16 a.toNat)) 16 = _
  rw [stoull, hh, readNumber_hex _ _ hc, hr, if_neg (Nat.pos_iff_ne_zero.1 hw)]
  simp only [if_neg (Nat.not_le.2 a.isLt), Bool.false_eq_true, if_false, BitVec.ofNat_toNat,
    BitVec.setWidth_eq]

theorem showAddr_piece (a : BitVec 64) : (showAddr a).toList ≠ [] ∧ ',' ∉ (showAddr a).toList := by
  show '0' :: 'x' :: Nat.toDigits 16 a.toNat ≠ [] ∧ ',' ∉ '0' :: 'x' :: Nat.toDigits 16 a.toNat
  refine ⟨List.cons_ne_nil _ _, List.not_mem_cons_of_ne_of_not_mem (by decide)
    (List.not_mem_cons_of_ne_of_not_mem (by decide) (toDigits_piece 16 _ (by decide) le_rfl).2)⟩

/-- The interleave address list `main` prints: each address as `showAddr` writes it, joined
by commas. -/
def printAddrs (addrs : List (BitVec 64)) : String := String.intercalate "," (addrs.map showAddr)

theorem mapM_stoull (addrs : List (BitVec 64)) :
    (addrs.map showAddr).mapM (stoull · 16) = .ok addrs := by
  induction addrs with
  | nil => rfl
  | cons a as ih =>
    rw [List.map_cons, List.mapM_cons, stoull_showAddr, ih]
    rfl

theorem parseOption_printAddrs (stof : String → Except ParseEnd FloatValue) (config : TestConfig)
    (addrs : List (BitVec 64)) :
    parseOption stof config ('p', printAddrs addrs) = .ok { config with cxlPhysicalAddrs := addrs } := by
  have hpieces : ∀ a ∈ addrs.map showAddr, a.toList ≠ [] ∧ ',' ∉ a.toList := by
    simpa only [List.forall_mem_map] using fun a _ => showAddr_piece a
  simp only [parseOption, printAddrs, commaFields_intercalate _ hpieces, mapM_stoull]
  rfl

/-- `-c` reads back the nodes written with `toString` and commas, but `num_cxl_buffers`
follows them only when `-c` comes after `-m multi`: given before it, the multi-mode threads
get the default two buffers, whatever the number of nodes. -/
theorem parseArgs_cxlNodes_order (stof : String → Except ParseEnd FloatValue) (xs : List Int)
    (hxs : ∀ x ∈ xs, -2 ^ 31 ≤ x ∧ x < 2 ^ 31) :
    let arg := String.intercalate "," (xs.map toString)
    (∃ config, parseArgs stof [('m', "multi"), ('c', arg)] = .ok config ∧ config.cxlNodes = xs ∧
        bufferCount config = xs.length) ∧
      ∃ config, parseArgs stof [('c', arg), ('m', "multi")] = .ok config ∧ config.cxlNodes = xs ∧
        bufferCount config = 2 := by
  intro arg
  have multi : parseArgs stof [('m', "multi"), ('c', arg)] =
      parseOption stof ((applyMode "multi" TestConfig.defaults).getD TestConfig.defaults) ('c', arg) :=
    bind_pure (parseOption stof _ ('c', arg))
  have before : parseArgs stof [('c', arg), ('m', "multi")] =
      parseOption stof TestConfig.defaults ('c', arg) >>= fun c => parseOption stof c ('m', "multi") := by
    simp only [parseArgs, List.foldlM_cons, List.foldlM_nil, bind_pure]
  rw [multi, before, parseOption_cxlNodes stof _ xs hxs, parseOption_cxlNodes stof _ xs hxs]
  exact ⟨⟨_, rfl, rfl, rfl⟩, _, rfl, rfl, rfl⟩

theorem parseArgs_cxlNodes_three :
    (∀ x ∈ [(0 : Int), 1, 2], -2 ^ 31 ≤ x ∧ x < 2 ^ 31) ∧
      ((∃ config, parseArgs (fun _ => .ok (.finite 0)) [('m', "multi"), ('c', "0,1,2")] = .ok config ∧
          config.cxlNodes = [0, 1, 2] ∧ bufferCount config = 3) ∧
        ∃ config, parseArgs (fun _ => .ok (.finite 0)) [('c', "0,1,2"), ('m', "multi")] = .ok config ∧
          config.cxlNodes = [0, 1, 2] ∧ bufferCount config = 2) :=
  ⟨by decide, parseArgs_cxlNodes_order (fun _ => .ok (.finite 0)) [0, 1, 2] (by decide)⟩

/-- The address list `main` prints for the interleave mode, given back to `-p`, gives the
same addresses, and the interleave threads one buffer for each. -/
theorem parseArgs_printAddrs (stof : String → Except ParseEnd FloatValue) (addrs : List (BitVec 64)) :
    ∃ config, parseArgs stof [('m', "interleave"), ('p', printAddrs addrs)] = .ok config ∧
      config.cxlPhysicalAddrs = addrs ∧ bufferCount config = addrs.length :=
  ⟨_, (bind_pure (parseOption stof _ ('p', _))).trans (parseOption_printAddrs stof _ addrs), rfl, rfl⟩

end CxlScheduler.MemoryTest
