import Mathlib.Data.BitVec
import Mathlib.Algebra.Order.Field.Rat
import Mathlib.Tactic.NormNum.Ineq
import Mathlib.Tactic.IntervalCases
import Mathlib.Tactic.Ring
import Mathlib.Data.Nat.Digits

set_option autoImplicit false

/-!
# `parse_args` of `cxl_memory_test.cpp`

`parse_args` folds the options `getopt_long` returns, in order, each with its `optarg`,
into a `TestConfig` that starts from the defaults. The conversions `std::stoull` and
`std::stoi` are modelled after `strtoull` and `strtol`: white space, a sign, an optional
`0x` in base 16, then the longest run of digits; no digit throws `invalid_argument` and a
value out of range throws `out_of_range`. Nothing catches these before `main`'s `try`,
so they end the program, as `exit` does. `std::stof` is a parameter giving the float it
returns, which may be an infinity or NaN.

Of what it returns, `parse_args` checks only the read ratio, with two comparisons that are
both false for NaN: every configuration it returns has a read ratio in `[0, 1]` or NaN
(`parseArgs_ratioChecked`), while `-b` and `-s` store what `std::stoull` converts, with no
relation between them (`parseArgs_sizes`).

The lists of `-c` and `-p` are numbers joined by commas. What `Nat.toDigits` writes,
`readDigits` reads back (`toDigits_spec`), and `commaFields` splits a list joined by
`String.intercalate` back into its pieces (`commaFields_intercalate`), so `-c` stores
exactly the nodes written with `toString` (`parseOption_cxlNodes`).
-/
namespace CxlScheduler.MemoryTest

/-- How `parse_args` ends the program instead of returning. -/
inductive ParseEnd
  | exit (code : Nat)
  | invalidArgument
  | outOfRange
  deriving DecidableEq, Repr

/-- `isspace` in the C locale. -/
def isSpace (c : Char) : Bool :=
  c = ' ' || c = '\t' || c = '\n' || c = '\r' || c = '\x0b' || c = '\x0c'

/-- A digit of `base`, letters standing for 10 to 35. -/
def digitValue (base : Nat) (c : Char) : Option Nat :=
  let d :=
    if c.isDigit then some (c.toNat - '0'.toNat)
    else if 'a' ≤ c ∧ c ≤ 'z' then some (c.toNat - 'a'.toNat + 10)
    else if 'A' ≤ c ∧ c ≤ 'Z' then some (c.toNat - 'A'.toNat + 10)
    else none
  d.filter (· < base)

/-- The value of the longest prefix of digits, with how many digits it has. -/
def readDigits (base : Nat) : List Char → Nat × Nat → Nat × Nat
  | [], acc => acc
  | c :: cs, (v, n) =>
    match digitValue base c with
    | some d => readDigits base cs (v * base + d, n + 1)
    | none => (v, n)

/-- The sign and magnitude `strtoull` and `strtol` read, or `none` when no digit is read. -/
def readNumber (base : Nat) (s : String) : Option (Bool × Nat) :=
  let (neg, cs) : Bool × List Char :=
    match s.toList.dropWhile isSpace with
    | '-' :: cs => (true, cs)
    | '+' :: cs => (false, cs)
    | cs => (false, cs)
  let cs :=
    match base, cs with
    | 16, '0' :: x :: c :: rest =>
      if (x = 'x' ∨ x = 'X') ∧ (digitValue 16 c).isSome then c :: rest else cs
    | _, _ => cs
  let (v, n) := readDigits base cs (0, 0)
  if n = 0 then none else some (neg, v)

/-- `std::stoull(s, nullptr, base)`: a negative number wraps, as `strtoull` does. -/
def stoull (s : String) (base : Nat) : Except ParseEnd (BitVec 64) :=
  match readNumber base s with
  | none => .error .invalidArgument
  | some (neg, v) =>
    if 2 ^ 64 ≤ v then .error .outOfRange
    else .ok (if neg then -BitVec.ofNat 64 v else BitVec.ofNat 64 v)

/-- `std::stoi(s)`: out of range outside `int`. -/
def stoi (s : String) : Except ParseEnd Int :=
  match readNumber 10 s with
  | none => .error .invalidArgument
  | some (neg, v) =>
    let x : Int := if neg then -v else v
    if x < -2 ^ 31 ∨ 2 ^ 31 ≤ x then .error .outOfRange else .ok x

/-- The pieces the `-c` and `-p` loops convert, in order: the text before each comma, and
the text after the last comma when it is not empty. `cur` is the piece read so far,
reversed. -/
def commaFields : List Char → List Char → List String
  | [], cur => if cur = [] then [] else [String.mk cur.reverse]
  | ',' :: cs, cur => String.mk cur.reverse :: commaFields cs []
  | c :: cs, cur => commaFields cs (c :: cur)

inductive MemoryMode
  | systemRam
  | physicalAccess
  | numaAware
  | cxlInterleave
  | cxlNuma
  | cxlMulti
  deriving DecidableEq, Repr

/-- A `float`: a finite value, an infinity, or NaN. -/
inductive FloatValue
  | finite (q : Rat)
  | inf (neg : Bool)
  | nan
  deriving DecidableEq

/-- `x < q` for a `float` against a `double` constant; false for NaN. -/
def FloatValue.lt (x : FloatValue) (q : Rat) : Bool :=
  match x with
  | .finite r => decide (r < q)
  | .inf neg => neg
  | .nan => false

/-- `x > q` for a `float` against a `double` constant; false for NaN. -/
def FloatValue.gt (x : FloatValue) (q : Rat) : Bool :=
  match x with
  | .finite r => decide (q < r)
  | .inf neg => !neg
  | .nan => false

structure TestConfig where
  bufferSize : BitVec 64
  blockSize : BitVec 64
  duration : Int
  numThreads : Int
  readRatio : FloatValue
  mode : MemoryMode
  physicalAddr : BitVec 64
  useNuma : Bool
  numaNode : Int
  enableInterleave : Bool
  cxlNodes : List Int
  numCxlBuffers : Int
  cxlPhysicalAddrs : List (BitVec 64)

/-- The member initialisers of `struct TestConfig`. -/
def TestConfig.defaults : TestConfig :=
  ⟨1024 * 1024 * 1024, 4096, 60, 10, .finite (1 / 2), .systemRam, 0x4080000000, false, -1, false, [0, 1], 2,
    [0x2080000000, 0x2a5c0000000]⟩

/-- The `-m` case; `none` for an invalid mode. -/
def applyMode (arg : String) (config : TestConfig) : Option TestConfig :=
  if arg = "system" then some { config with mode := .systemRam }
  else if arg = "physical" then some { config with mode := .physicalAccess }
  else if arg = "numa" then some { config with mode := .numaAware, useNuma := true }
  else if arg = "interleave" then
    some { config with mode := .cxlInterleave, enableInterleave := true }
  else if arg = "cxl" then some { config with mode := .cxlNuma, useNuma := true, numaNode := 2 }
  else if arg = "multi" then
    some { config with mode := .cxlMulti, useNuma := true, numaNode := 2, enableInterleave := true }
  else none

theorem applyMode_readRatio (arg : String) (config config' : TestConfig)
    (h : applyMode arg config = some config') : config'.readRatio = config.readRatio := by
  unfold applyMode at h
  split_ifs at h <;> cases h <;> rfl

theorem exceptBind_eq_ok {α β : Type} (x : Except ParseEnd α) (f : α → Except ParseEnd β) (b : β) :
    x >>= f = .ok b ↔ ∃ a, x = .ok a ∧ f a = .ok b := by
  cases x <;> simp [bind, Except.bind]

/-- What passes the check of `-r`: a value in `[0, 1]`, or NaN. -/
def RatioChecked (config : TestConfig) : Prop :=
  match config.readRatio with
  | .finite q => 0 ≤ q ∧ q ≤ 1
  | .inf _ => False
  | .nan => True

theorem ratioChecked_iff (config : TestConfig) (r : FloatValue) :
    RatioChecked { config with readRatio := r } ↔ (r.lt 0 || r.gt 1) = false := by
  cases r <;> simp [RatioChecked, FloatValue.lt, FloatValue.gt, not_lt]

theorem defaults_ratioChecked : RatioChecked TestConfig.defaults := by
  simp only [RatioChecked, TestConfig.defaults]
  norm_num

section Parse

variable (stof : String → Except ParseEnd FloatValue)

/-- One iteration of the `getopt_long` loop: the `switch` on the option character, with
its `optarg`. -/
def parseOption (config : TestConfig) : Char × String → Except ParseEnd TestConfig
  | (opt, arg) =>
    match opt with
    | 'b' => return { config with bufferSize := ← stoull arg 10 }
    | 's' => return { config with blockSize := ← stoull arg 10 }
    | 't' => return { config with numThreads := ← stoi arg }
    | 'd' => return { config with duration := ← stoi arg }
    | 'r' => do
      let r ← stof arg
      if r.lt 0 || r.gt 1 then throw (.exit 1) else return { config with readRatio := r }
    | 'm' =>
      match applyMode arg config with
      | some config => return config
      | none => throw (.exit 1)
    | 'a' => return { config with physicalAddr := ← stoull arg 16 }
    | 'n' => return { config with numaNode := ← stoi arg, useNuma := true }
    | 'i' => return { config with enableInterleave := true }
    | 'c' => do
      let nodes ← (commaFields arg.toList []).mapM stoi
      let config := { config with cxlNodes := nodes }
      return if config.mode = .cxlMulti then { config with numCxlBuffers := nodes.length } else config
    | 'p' => do
      let addrs ← (commaFields arg.toList []).mapM (stoull · 16)
      return { config with cxlPhysicalAddrs := addrs }
    | 'h' => throw (.exit 0)
    | _ => throw (.exit 1)

def parseArgs (opts : List (Char × String)) : Except ParseEnd TestConfig :=
  opts.foldlM (parseOption stof) TestConfig.defaults

theorem parseArgs_sizes (sb ss : String) (bufferSize blockSize : BitVec 64)
    (hb : stoull sb 10 = .ok bufferSize) (hs : stoull ss 10 = .ok blockSize) :
    parseArgs stof [('b', sb), ('s', ss)] =
      .ok { TestConfig.defaults with bufferSize := bufferSize, blockSize := blockSize } := by
  simp only [parseArgs, List.foldlM_cons, List.foldlM_nil, parseOption, hb, hs]
  rfl

theorem parseOption_ratioChecked (config config' : TestConfig) (opt : Char × String)
    (h : RatioChecked config) (hok : parseOption stof config opt = .ok config') :
    RatioChecked config' := by
  obtain ⟨opt, arg⟩ := opt
  simp only [parseOption] at hok
  split at hok
  case h_5 => -- `-r`
    obtain ⟨r, -, hr⟩ := (exceptBind_eq_ok _ _ _).1 hok
    split at hr
    · cases hr
    · cases hr
      exact (ratioChecked_iff config r).2 (Bool.eq_false_iff.2 ‹_›)
  case h_6 => -- `-m`
    split at hok
    · cases hok
      rwa [RatioChecked, applyMode_readRatio _ _ _ ‹_›]
    · cases hok
  case h_10 => -- `-c`
    obtain ⟨_, -, hc⟩ := (exceptBind_eq_ok _ _ _).1 hok
    split at hc <;> cases hc <;> exact h
  case h_9 => cases hok; exact h -- `-i`
  case h_12 | h_13 => cases hok -- `-h` and an unknown option exit
  all_goals obtain ⟨_, -, ⟨⟩⟩ := (exceptBind_eq_ok _ _ _).1 hok; exact h

/-- Every configuration `parse_args` returns, whatever the options, has a read ratio in
`[0, 1]` or NaN: both comparisons of the check are false for NaN. -/
theorem parseArgs_ratioChecked (opts : List (Char × String)) (config : TestConfig)
    (hok : parseArgs stof opts = .ok config) : RatioChecked config := by
  suffices ∀ config₀, RatioChecked config₀ → opts.foldlM (parseOption stof) config₀ = .ok config →
      RatioChecked config from this _ defaults_ratioChecked hok
  clear hok
  induction opts with
  | nil => rintro _ h ⟨⟩; exact h
  | cons opt opts ih =>
    intro config₀ h hfold
    obtain ⟨config₁, h₁, hrest⟩ := (exceptBind_eq_ok _ _ _).1 hfold
    exact ih config₁ (parseOption_ratioChecked stof _ _ _ h h₁) hrest

theorem parseArgs_ratioChecked_nan :
    parseArgs (fun _ => .ok .nan) [('r', "nan")] = .ok { TestConfig.defaults with readRatio := .nan } ∧
      RatioChecked { TestConfig.defaults with readRatio := .nan } :=
  ⟨rfl, parseArgs_ratioChecked (fun _ => .ok .nan) [('r', "nan")] _ rfl⟩

end Parse

/-! ## Reading back what is written -/

theorem digitValue_digitChar (base d : Nat) (hd : d < base) (hb : base ≤ 16) :
    digitValue base (Nat.digitChar d) = some d := by
  have h16 : d < 16 := by omega
  suffices digitValue base (Nat.digitChar d) = (some d).filter (· < base) by
    rw [this, Option.filter_some, decide_eq_true hd, if_pos rfl]
  interval_cases d <;> rfl

theorem digitChar_plain (d : Nat) (hd : d < 16) :
    isSpace (Nat.digitChar d) = false ∧ Nat.digitChar d ≠ '-' ∧ Nat.digitChar d ≠ '+' ∧
      Nat.digitChar d ≠ ',' := by
  interval_cases d <;> decide

theorem readDigits_toDigitsCore (base : Nat) (hb : 2 ≤ base) (hb16 : base ≤ 16) :
    ∀ fuel n ds, n < fuel → ∃ w, 0 < w ∧ ∀ v k,
      readDigits base (Nat.toDigitsCore base fuel n ds) (v, k) =
        readDigits base ds (v * base ^ w + n, k + w)
  | 0, n, _, h => absurd h (Nat.not_lt_zero n)
  | fuel + 1, n, ds, h => by
    have hd := digitValue_digitChar base (n % base) (Nat.mod_lt _ (by omega)) hb16
    have hn := Nat.div_add_mod n base
    by_cases h0 : n / base = 0
    · refine ⟨1, Nat.one_pos, fun v k => ?_⟩
      simp only [Nat.toDigitsCore, h0, if_true, readDigits, hd]
      rw [h0] at hn
      congr 2
      rw [pow_one]
      omega
    · have hlt : n / base < fuel := by
        have hpos : 0 < n := Nat.pos_of_ne_zero fun hn0 => h0 (by rw [hn0, Nat.zero_div])
        have := Nat.div_lt_self hpos (show 1 < base by omega)
        omega
      obtain ⟨w, -, ih⟩ :=
        readDigits_toDigitsCore base hb hb16 fuel (n / base) (Nat.digitChar (n % base) :: ds) hlt
      refine ⟨w + 1, Nat.succ_pos w, fun v k => ?_⟩
      simp only [Nat.toDigitsCore, h0, if_false, ih, readDigits, hd]
      congr 2
      calc (v * base ^ w + n / base) * base + n % base
          = v * base ^ (w + 1) + (base * (n / base) + n % base) := by ring
        _ = v * base ^ (w + 1) + n := by rw [hn]

theorem toDigitsCore_head (base : Nat) (hb : 2 ≤ base) :
    ∀ fuel n ds, n < fuel →
      ∃ d rest, d < base ∧ Nat.toDigitsCore base fuel n ds = Nat.digitChar d :: rest
  | 0, n, _, h => absurd h (Nat.not_lt_zero n)
  | fuel + 1, n, ds, h => by
    by_cases h0 : n / base = 0
    · exact ⟨n % base, ds, Nat.mod_lt _ (by omega), by simp only [Nat.toDigitsCore, h0, if_true]⟩
    · have hpos : 0 < n := Nat.pos_of_ne_zero fun hn0 => h0 (by rw [hn0, Nat.zero_div])
      have := Nat.div_lt_self hpos (show 1 < base by omega)
      simp only [Nat.toDigitsCore, h0, if_false]
      exact toDigitsCore_head base hb fuel (n / base) _ (by omega)

theorem toDigits_spec (base n : Nat) (hb : 2 ≤ base) (hb16 : base ≤ 16) :
    ∃ d rest w, d < base ∧ 0 < w ∧ Nat.toDigits base n = Nat.digitChar d :: rest ∧
      readDigits base (Nat.digitChar d :: rest) (0, 0) = (n, w) := by
  obtain ⟨d, rest, hd, hh⟩ := toDigitsCore_head base hb (n + 1) n [] (Nat.lt_succ_self n)
  obtain ⟨w, hw, hr⟩ := readDigits_toDigitsCore base hb hb16 (n + 1) n [] (Nat.lt_succ_self n)
  refine ⟨d, rest, w, hd, hw, hh, ?_⟩
  rw [← hh]
  simpa [readDigits] using hr 0 0

theorem comma_not_mem_toDigitsCore (base : Nat) (hb : 0 < base) (hb16 : base ≤ 16) :
    ∀ fuel n ds, ',' ∉ ds → ',' ∉ Nat.toDigitsCore base fuel n ds
  | 0, _, _, h => h
  | fuel + 1, n, ds, h => by
    have hd := (digitChar_plain (n % base) (by have := Nat.mod_lt n hb; omega)).2.2.2
    have h' : ',' ∉ Nat.digitChar (n % base) :: ds := List.not_mem_cons_of_ne_of_not_mem hd.symm h
    simp only [Nat.toDigitsCore]
    split
    · exact h'
    · exact comma_not_mem_toDigitsCore base hb hb16 fuel _ _ h'

theorem toDigits_piece (base n : Nat) (hb : 2 ≤ base) (hb16 : base ≤ 16) :
    Nat.toDigits base n ≠ [] ∧ ',' ∉ Nat.toDigits base n := by
  obtain ⟨d, rest, -, -, -, hh, -⟩ := toDigits_spec base n hb hb16
  exact ⟨hh ▸ List.cons_ne_nil _ _,
    comma_not_mem_toDigitsCore base (by omega) hb16 (n + 1) n [] (List.not_mem_nil _)⟩

theorem readNumber_unsigned (c : Char) (rest : List Char) (hs : isSpace c = false) (h1 : c ≠ '-')
    (h2 : c ≠ '+') :
    readNumber 10 (String.mk (c :: rest)) =
      if (readDigits 10 (c :: rest) (0, 0)).2 = 0 then none
      else some (false, (readDigits 10 (c :: rest) (0, 0)).1) := by
  have hd : (String.mk (c :: rest)).toList.dropWhile isSpace = c :: rest := by
    simp [String.toList, List.dropWhile, hs]
  unfold readNumber
  rw [hd]
  split
  rename_i heq
  split at heq
  · exact absurd (List.cons.inj ‹_›).1 h1
  · exact absurd (List.cons.inj ‹_›).1 h2
  · cases heq
    rfl

theorem readNumber_minus (c : Char) (rest : List Char) :
    readNumber 10 (String.mk ('-' :: c :: rest)) =
      if (readDigits 10 (c :: rest) (0, 0)).2 = 0 then none
      else some (true, (readDigits 10 (c :: rest) (0, 0)).1) := by
  unfold readNumber
  rw [show (String.mk ('-' :: c :: rest)).toList.dropWhile isSpace = '-' :: c :: rest by
    simp [String.toList, List.dropWhile, isSpace]]
  split
  rename_i heq
  split at heq
  · cases (List.cons.inj ‹_›).2
    cases heq
    rfl
  · exact absurd (List.cons.inj ‹_›).1 (by decide)
  · rename_i hm _
    exact (hm _ rfl).elim

theorem readNumber_hex (c : Char) (rest : List Char) (hc : (digitValue 16 c).isSome) :
    readNumber 16 (String.mk ('0' :: 'x' :: c :: rest)) =
      if (readDigits 16 (c :: rest) (0, 0)).2 = 0 then none
      else some (false, (readDigits 16 (c :: rest) (0, 0)).1) := by
  unfold readNumber
  rw [show (String.mk ('0' :: 'x' :: c :: rest)).toList.dropWhile isSpace = '0' :: 'x' :: c :: rest by
    simp [String.toList, List.dropWhile, isSpace]]
  split
  rename_i heq
  split at heq
  · exact absurd (List.cons.inj ‹_›).1 (by decide)
  · exact absurd (List.cons.inj ‹_›).1 (by decide)
  · cases heq
    simp [hc]

theorem stoi_toString (x : Int) (hx : -2 ^ 31 ≤ x ∧ x < 2 ^ 31) : stoi (toString x) = .ok x := by
  cases x with
  | ofNat m =>
    rw [Int.ofNat_eq_coe] at hx
    obtain ⟨d, rest, w, hd, hw, hh, hr⟩ := toDigits_spec 10 m (by decide) (by decide)
    obtain ⟨hs, h1, h2, -⟩ := digitChar_plain d (by omega)
    show stoi (String.mk (Nat.toDigits 10 m)) = _
    rw [stoi, hh, readNumber_unsigned _ _ hs h1 h2, hr, if_neg (Nat.pos_iff_ne_zero.1 hw)]
    simp only [Bool.false_eq_true, if_false]
    rw [if_neg (by omega)]
    rfl
  | negSucc m =>
    rw [Int.negSucc_eq] at hx
    obtain ⟨d, rest, w, hd, hw, hh, hr⟩ := toDigits_spec 10 (m + 1) (by decide) (by decide)
    show stoi (String.mk ('-' :: Nat.toDigits 10 (m + 1))) = _
    rw [stoi, hh, readNumber_minus, hr, if_neg (Nat.pos_iff_ne_zero.1 hw)]
    simp only [if_true]
    rw [if_neg (by omega)]
    rfl

theorem toString_piece (x : Int) : (toString x).toList ≠ [] ∧ ',' ∉ (toString x).toList := by
  cases x with
  | ofNat m => exact toDigits_piece 10 m (by decide) (by decide)
  | negSucc m =>
    show '-' :: Nat.toDigits 10 (m + 1) ≠ [] ∧ ',' ∉ '-' :: Nat.toDigits 10 (m + 1)
    exact ⟨List.cons_ne_nil _ _,
      List.not_mem_cons_of_ne_of_not_mem (by decide) (toDigits_piece 10 (m + 1) (by decide) (by decide)).2⟩

theorem mapM_stoi (xs : List Int) (hxs : ∀ x ∈ xs, -2 ^ 31 ≤ x ∧ x < 2 ^ 31) :
    (xs.map toString).mapM stoi = .ok xs := by
  induction xs with
  | nil => rfl
  | cons x xs ih =>
    rw [List.forall_mem_cons] at hxs
    rw [List.map_cons, List.mapM_cons, stoi_toString x hxs.1, ih hxs.2]
    rfl

theorem commaFields_append (p rest cur : List Char) (hp : ',' ∉ p) :
    commaFields (p ++ rest) cur = commaFields rest (p.reverse ++ cur) := by
  induction p generalizing cur with
  | nil => rfl
  | cons c p ih =>
    rw [List.mem_cons, not_or] at hp
    rw [List.cons_append, commaFields.eq_3 _ _ _ (Ne.symm hp.1), ih _ hp.2]
    simp

theorem intercalate_go_toList (acc : String) (as : List String) :
    (String.intercalate.go acc "," as).toList = acc.toList ++ as.flatMap (',' :: ·.toList) := by
  induction as generalizing acc with
  | nil => simp [String.intercalate.go]
  | cons a as ih => rw [String.intercalate.go, ih]; simp

theorem commaFields_intercalate (as : List String) (h : ∀ a ∈ as, a.toList ≠ [] ∧ ',' ∉ a.toList) :
    commaFields (String.intercalate "," as).toList [] = as := by
  cases as with
  | nil => rfl
  | cons a as =>
    show commaFields (String.intercalate.go a "," as).toList [] = a :: as
    rw [intercalate_go_toList]
    induction as generalizing a with
    | nil =>
      rw [List.flatMap_nil, List.append_nil, ← List.append_nil a.toList,
        commaFields_append _ _ _ (h a (List.mem_cons_self _ _)).2]
      simpa [commaFields] using (h a (List.mem_cons_self _ _)).1
    | cons b bs ih =>
      rw [List.flatMap_cons, commaFields_append _ _ _ (h a (List.mem_cons_self _ _)).2]
      simp only [List.cons_append, commaFields, List.reverse_append, List.reverse_reverse, List.append_nil,
        List.append_eq, ih b fun x hx => h x (List.mem_cons_of_mem _ hx)]
      rfl

section Lists

variable (stof : String → Except ParseEnd FloatValue)

/-- `-c` with nodes written by `toString` stores them; in multi mode it also sets
`num_cxl_buffers` to their number. -/
theorem parseOption_cxlNodes (config : TestConfig) (xs : List Int)
    (hxs : ∀ x ∈ xs, -2 ^ 31 ≤ x ∧ x < 2 ^ 31) :
    parseOption stof config ('c', String.intercalate "," (xs.map toString)) =
      .ok (if config.mode = .cxlMulti then { config with cxlNodes := xs, numCxlBuffers := xs.length }
        else { config with cxlNodes := xs }) := by
  have hpieces : ∀ a ∈ xs.map toString, a.toList ≠ [] ∧ ',' ∉ a.toList := by
    simpa only [List.forall_mem_map] using fun x _ => toString_piece x
  simp only [parseOption, commaFields_intercalate _ hpieces, mapM_stoi xs hxs]
  rfl

end Lists

end CxlScheduler.MemoryTest
