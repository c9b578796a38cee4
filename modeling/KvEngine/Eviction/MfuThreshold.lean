import KvEngine.VBucket.FrontEnd
import KvEngine.Lib.Binary64

/-!
# The MFU threshold of the learning eviction strategy
(`learning_age_and_mfu_based_eviction.cc`)

While the item pager visits a vbucket, `eligibleItemSeen` records the
frequency counter of each eligible item in a 256-bucket histogram and, while
the strategy learns (the first `learningPopulation` items) and then every
`requiredToUpdateInterval` items, recomputes `freqCounterThreshold`:
`getThresholds` scans the buckets for the first counter value at which the
running total reaches the target `size_t((freqPercentage / 100.0) * N)`
(`freqTarget`), for `N` the items recorded. `shouldTryEvict` offers an item
whose counter is at most that threshold. The percentage is the eviction ratio
of the vbucket's state times `100.0`; all of it is double arithmetic
(`Binary64`). The age histogram is the list of ages recorded; its percentile
(`HdrHistogram::getValueAtPercentile`) is the parameter `valueAtPercentile`.

- `LearningAgeAndMFUBasedEviction` carries the histogram's invariant: 256
  buckets that sum to the items recorded;
- `countAtMost_visit`: after a visit since `setupVBucketVisit`, the buckets up
  to `t` count the recorded counters at most `t` (the run lemma, from
  `countAtMost_eligibleItemSeen`);
- `getThresholds_fst`: the threshold is the least counter value whose count
  reaches the target when the target is at most the items recorded, and 0
  otherwise;
- `freqTarget_le`: for an eviction ratio in [0, 1] and fewer than `2 ^ 53`
  items, the target is at most the items recorded;
- `mfu_threshold_percentile`: so the threshold a visit leaves at an update is
  that least value, and `shouldTryEvict` offers at most it.

The target is computed in doubles and is not `⌊p * N / 100⌋`:
`percentile_target_rounds_down` has `p = 29`, `N = 100` and a target of 28, and
an eviction ratio of `0.167` over 1000 items offers 166 of them.
-/

namespace KvEngine.Eviction

open Binary64
open KvEngine.VBucket (VBucketState)

/-- `EvictionRatios`: the fraction of items to evict, per vbucket state. -/
structure EvictionRatios where
  activeAndPending : ℚ
  replica : ℚ
  deriving DecidableEq, Repr

/-- `EvictionRatios::getForState`. -/
def EvictionRatios.getForState (r : EvictionRatios) : VBucketState → ℚ
  | .replica => r.replica
  | .active | .pending => r.activeAndPending
  | .dead => 0

/-- `LearningAgeAndMFUBasedEviction::learningPopulation`. -/
def learningPopulation : Nat := 100

/-- `LearningAgeAndMFUBasedEviction`: its configuration, the histograms of
the vbucket being visited and the thresholds. The age histogram is the list
of the ages added to it. -/
structure LearningAgeAndMFUBasedEviction where
  evictionRatios : EvictionRatios
  agePercentage : Nat
  freqCounterAgeThreshold : Nat
  freqCounters : List Nat
  totalFreqCounterValues : Nat
  ageHistogram : List Nat
  requiredToUpdateInterval : Nat
  freqCounterThreshold : Nat
  ageThreshold : Nat
  length_freqCounters : freqCounters.length = 256
  sum_freqCounters : freqCounters.sum = totalFreqCounterValues

/-- The items seen while visiting a vbucket, in order. -/
structure ItemSeen where
  freq : UInt8
  age : Nat
  state : VBucketState
  deriving DecidableEq, Repr

/-- Adding one to a bucket adds one to the buckets up to `t` that hold it. -/
theorem sum_take_modify_succ (l : List Nat) (i t : Nat) :
    ((l.modify i (· + 1)).take (t + 1)).sum = (l.take (t + 1)).sum + if i ≤ t ∧ i < l.length then 1 else 0 := by
  induction l generalizing i t with
  | nil => simp
  | cons c l ih =>
    cases i with
    | zero => simp [Nat.add_right_comm]
    | succ i =>
      cases t with
      | zero => simp
      | succ t =>
        rw [List.modify_succ_cons, List.take_succ_cons, List.take_succ_cons, List.sum_cons, List.sum_cons, ih]
        simp only [List.length_cons, Nat.add_le_add_iff_right, Nat.add_lt_add_iff_right, Nat.add_assoc]

theorem sum_modify_succ {l : List Nat} {i : Nat} (hi : i < l.length) : (l.modify i (· + 1)).sum = l.sum + 1 := by
  have h := sum_take_modify_succ l i l.length
  rw [List.take_of_length_le (by simp), List.take_of_length_le (by simp)] at h
  simpa [hi, hi.le] using h

namespace LearningAgeAndMFUBasedEviction

variable (valueAtPercentile : List Nat → ℚ → Nat)

/-- `setupVBucketVisit(numExpectedItems)`: empty histograms, and a threshold
update every 0.1% of the items expected, or every `learningPopulation` items
if that is more. -/
def setupVBucketVisit (s : LearningAgeAndMFUBasedEviction) (numExpectedItems : Nat) :
    LearningAgeAndMFUBasedEviction :=
  let percentOfItems := Binary64.round (1 / 10)
  let noOfItems := ⌈mul (ofNat numExpectedItems) (mul percentOfItems (Binary64.round (1 / 100)))⌉₊
  { s with
    freqCounters := List.replicate 256 0
    totalFreqCounterValues := 0
    ageHistogram := []
    requiredToUpdateInterval := if noOfItems > learningPopulation then noOfItems else learningPopulation
    length_freqCounters := List.length_replicate
    sum_freqCounters := by rw [List.sum_replicate]; rfl }

/-- `addFreqAndAgeToHistograms(freq, age)`. -/
def addFreqAndAgeToHistograms (s : LearningAgeAndMFUBasedEviction) (freq : UInt8) (age : Nat) :
    LearningAgeAndMFUBasedEviction :=
  { s with
    freqCounters := s.freqCounters.modify freq.toNat (· + 1)
    totalFreqCounterValues := s.totalFreqCounterValues + 1
    ageHistogram := s.ageHistogram ++ [age]
    length_freqCounters := by rw [List.length_modify, s.length_freqCounters]
    sum_freqCounters := by
      rw [sum_modify_succ (by rw [s.length_freqCounters]; exact freq.toNat_lt), s.sum_freqCounters] }

/-- `isLearning()`. -/
def isLearning (s : LearningAgeAndMFUBasedEviction) : Bool := s.totalFreqCounterValues ≤ learningPopulation

/-- `isRequiredToUpdate()`. -/
def isRequiredToUpdate (s : LearningAgeAndMFUBasedEviction) : Bool :=
  s.totalFreqCounterValues % s.requiredToUpdateInterval == 0

/-- The loop of `getThresholds` from bucket `i`, with the counters of the
buckets before it in `runningTotal`: the first bucket at which the running
total reaches `target`, or 0 if none does. -/
def scanThreshold (target : Nat) : List Nat → Nat → Nat → Nat
  | [], _, _ => 0
  | c :: cs, i, runningTotal =>
    if runningTotal + c ≥ target then i else scanThreshold target cs (i + 1) (runningTotal + c)

/-- `percentileOfFreqCounts`: `(freqPercentage / 100.0) * totalFreqCounterValues`
in doubles, truncated to a `size_t`. -/
def freqTarget (freqPercentage : ℚ) (totalFreqCounterValues : Nat) : Nat :=
  toNat (mul (div freqPercentage 100) (ofNat totalFreqCounterValues))

/-- `getThresholds(freqPercentage, agePercentage)`. -/
def getThresholds (s : LearningAgeAndMFUBasedEviction) (freqPercentage agePercentage : ℚ) : Nat × Nat :=
  (scanThreshold (freqTarget freqPercentage s.totalFreqCounterValues) s.freqCounters 0 0,
    valueAtPercentile s.ageHistogram agePercentage)

/-- `eligibleItemSeen(freq, age, state)`. -/
def eligibleItemSeen (s : LearningAgeAndMFUBasedEviction) (freq : UInt8) (age : Nat) (state : VBucketState) :
    LearningAgeAndMFUBasedEviction :=
  let s := s.addFreqAndAgeToHistograms freq age
  if s.isLearning || s.isRequiredToUpdate then
    let thresholds :=
      s.getThresholds valueAtPercentile (mul (s.evictionRatios.getForState state) 100) (ofNat s.agePercentage)
    { s with freqCounterThreshold := thresholds.1, ageThreshold := thresholds.2 }
  else s

/-- `shouldTryEvict(freq, age, state)`; a failed `Expects` is an error. -/
def shouldTryEvict (s : LearningAgeAndMFUBasedEviction) (freq : UInt8) (age : Nat) (state : VBucketState) :
    Except String Bool :=
  let evictionRatio := s.evictionRatios.getForState state
  if evictionRatio < 0 then .error "Expects(evictionRatio >= 0.0)"
  else if evictionRatio = 0 then .ok false
  else
    let belowMFUThreshold := decide (freq.toNat ≤ s.freqCounterThreshold)
    let meetsAgeRequirements := decide (age ≥ s.ageThreshold) || decide (freq.toNat < s.freqCounterAgeThreshold)
    let isReplica := state == .replica
    .ok (belowMFUThreshold && (meetsAgeRequirements || isReplica))

/-- The items seen one after another. -/
def visit (s : LearningAgeAndMFUBasedEviction) (items : List ItemSeen) : LearningAgeAndMFUBasedEviction :=
  items.foldl (fun s i => s.eligibleItemSeen valueAtPercentile i.freq i.age i.state) s

/-- The recorded counters at most `t`: the buckets up to `t`. -/
def countAtMost (s : LearningAgeAndMFUBasedEviction) (t : Nat) : Nat := (s.freqCounters.take (t + 1)).sum

/-! ## The histogram counts what a visit recorded -/

variable {valueAtPercentile}

@[simp] theorem countAtMost_setupVBucketVisit (s : LearningAgeAndMFUBasedEviction) (n t : Nat) :
    (s.setupVBucketVisit n).countAtMost t = 0 := by
  exact List.sum_eq_zero fun _ hx => List.eq_of_mem_replicate (List.mem_of_mem_take hx)

@[simp] theorem totalFreqCounterValues_setupVBucketVisit (s : LearningAgeAndMFUBasedEviction) (n : Nat) :
    (s.setupVBucketVisit n).totalFreqCounterValues = 0 := rfl

theorem countAtMost_addFreqAndAgeToHistograms (s : LearningAgeAndMFUBasedEviction) (freq : UInt8) (age t : Nat) :
    (s.addFreqAndAgeToHistograms freq age).countAtMost t = s.countAtMost t + if freq.toNat ≤ t then 1 else 0 := by
  have h := sum_take_modify_succ s.freqCounters freq.toNat t
  simp only [s.length_freqCounters, freq.toNat_lt, and_true] at h
  exact h

/-- `eligibleItemSeen` changes the histogram as `addFreqAndAgeToHistograms`
does, whether or not it updates the thresholds. -/
@[simp] theorem freqCounters_eligibleItemSeen (s : LearningAgeAndMFUBasedEviction) (freq : UInt8) (age : Nat)
    (state : VBucketState) :
    (s.eligibleItemSeen valueAtPercentile freq age state).freqCounters =
      (s.addFreqAndAgeToHistograms freq age).freqCounters := by
  unfold eligibleItemSeen
  dsimp only
  split <;> rfl

@[simp] theorem totalFreqCounterValues_eligibleItemSeen (s : LearningAgeAndMFUBasedEviction) (freq : UInt8)
    (age : Nat) (state : VBucketState) :
    (s.eligibleItemSeen valueAtPercentile freq age state).totalFreqCounterValues = s.totalFreqCounterValues + 1 := by
  unfold eligibleItemSeen
  dsimp only
  split <;> rfl

@[simp] theorem evictionRatios_eligibleItemSeen (s : LearningAgeAndMFUBasedEviction) (freq : UInt8) (age : Nat)
    (state : VBucketState) :
    (s.eligibleItemSeen valueAtPercentile freq age state).evictionRatios = s.evictionRatios := by
  unfold eligibleItemSeen
  dsimp only
  split <;> rfl

@[simp] theorem agePercentage_eligibleItemSeen (s : LearningAgeAndMFUBasedEviction) (freq : UInt8) (age : Nat)
    (state : VBucketState) :
    (s.eligibleItemSeen valueAtPercentile freq age state).agePercentage = s.agePercentage := by
  unfold eligibleItemSeen
  dsimp only
  split <;> rfl

/-- The thresholds do not enter their own computation. -/
@[simp] theorem getThresholds_eligibleItemSeen (s : LearningAgeAndMFUBasedEviction) (freq : UInt8) (age : Nat)
    (state : VBucketState) (freqPercentage agePercentage : ℚ) :
    (s.eligibleItemSeen valueAtPercentile freq age state).getThresholds valueAtPercentile freqPercentage
        agePercentage =
      (s.addFreqAndAgeToHistograms freq age).getThresholds valueAtPercentile freqPercentage agePercentage := by
  unfold eligibleItemSeen
  dsimp only
  split <;> rfl

@[simp] theorem requiredToUpdateInterval_eligibleItemSeen (s : LearningAgeAndMFUBasedEviction) (freq : UInt8)
    (age : Nat) (state : VBucketState) :
    (s.eligibleItemSeen valueAtPercentile freq age state).requiredToUpdateInterval = s.requiredToUpdateInterval := by
  unfold eligibleItemSeen
  dsimp only
  split <;> rfl

theorem countAtMost_eligibleItemSeen (s : LearningAgeAndMFUBasedEviction) (freq : UInt8) (age : Nat)
    (state : VBucketState) (t : Nat) :
    (s.eligibleItemSeen valueAtPercentile freq age state).countAtMost t =
      s.countAtMost t + if freq.toNat ≤ t then 1 else 0 := by
  rw [countAtMost, freqCounters_eligibleItemSeen]
  exact countAtMost_addFreqAndAgeToHistograms s freq age t

/-- The run lemma: a visit adds to the buckets up to `t` the items seen with a
counter at most `t`. -/
theorem countAtMost_visit (items : List ItemSeen) :
    ∀ (s : LearningAgeAndMFUBasedEviction) (t : Nat), (s.visit valueAtPercentile items).countAtMost t =
      s.countAtMost t + (items.filter (fun i => i.freq.toNat ≤ t)).length := by
  induction items with
  | nil =>
    intro s t
    rfl
  | cons i items ih =>
    intro s t
    have h := ih (s.eligibleItemSeen valueAtPercentile i.freq i.age i.state) t
    rw [countAtMost_eligibleItemSeen] at h
    rw [visit, List.foldl_cons, ← visit, h, List.filter_cons]
    split_ifs with hle <;> simp_all <;> omega

theorem totalFreqCounterValues_visit (items : List ItemSeen) :
    ∀ s : LearningAgeAndMFUBasedEviction,
      (s.visit valueAtPercentile items).totalFreqCounterValues = s.totalFreqCounterValues + items.length := by
  induction items with
  | nil =>
    intro s
    rfl
  | cons i items ih =>
    intro s
    rw [visit, List.foldl_cons, ← visit, ih, totalFreqCounterValues_eligibleItemSeen, List.length_cons]
    omega

/-- What every item seen keeps, a visit keeps. -/
theorem visit_preserves {β : Type} (f : LearningAgeAndMFUBasedEviction → β)
    (hf : ∀ s freq age state, f (s.eligibleItemSeen valueAtPercentile freq age state) = f s) (items : List ItemSeen) :
    ∀ s : LearningAgeAndMFUBasedEviction, f (s.visit valueAtPercentile items) = f s := by
  induction items with
  | nil =>
    intro s
    rfl
  | cons i items ih =>
    intro s
    rw [visit, List.foldl_cons, ← visit, ih, hf]

theorem evictionRatios_visit (items : List ItemSeen) (s : LearningAgeAndMFUBasedEviction) :
    (s.visit valueAtPercentile items).evictionRatios = s.evictionRatios :=
  visit_preserves _ evictionRatios_eligibleItemSeen items s

theorem agePercentage_visit (items : List ItemSeen) (s : LearningAgeAndMFUBasedEviction) :
    (s.visit valueAtPercentile items).agePercentage = s.agePercentage :=
  visit_preserves _ agePercentage_eligibleItemSeen items s

theorem requiredToUpdateInterval_visit (items : List ItemSeen) (s : LearningAgeAndMFUBasedEviction) :
    (s.visit valueAtPercentile items).requiredToUpdateInterval = s.requiredToUpdateInterval :=
  visit_preserves _ requiredToUpdateInterval_eligibleItemSeen items s

/-- All 256 buckets: every item recorded. -/
theorem countAtMost_of_le (s : LearningAgeAndMFUBasedEviction) {t : Nat} (ht : 255 ≤ t) :
    s.countAtMost t = s.totalFreqCounterValues := by
  rw [countAtMost, List.take_of_length_le (by rw [s.length_freqCounters]; omega), s.sum_freqCounters]

theorem countAtMost_le (s : LearningAgeAndMFUBasedEviction) (t : Nat) : s.countAtMost t ≤ s.totalFreqCounterValues := by
  have h := List.sum_take_add_sum_drop s.freqCounters (t + 1)
  rw [countAtMost, ← s.sum_freqCounters]
  omega

/-! ## The threshold is the percentile -/

/-- When some bucket's running total reaches `target`, the scan stops at the
first such bucket. -/
theorem scanThreshold_spec (target : Nat) (cs : List Nat) :
    ∀ i runningTotal : Nat, (∃ j < cs.length, target ≤ runningTotal + (cs.take (j + 1)).sum) →
      ∃ j < cs.length, scanThreshold target cs i runningTotal = i + j ∧
        target ≤ runningTotal + (cs.take (j + 1)).sum ∧ ∀ j' < j, runningTotal + (cs.take (j' + 1)).sum < target := by
  induction cs with
  | nil =>
    rintro i runningTotal ⟨j, hj, -⟩
    exact absurd hj (Nat.not_lt_zero j)
  | cons c cs ih =>
    rintro i runningTotal ⟨j, hj, hreach⟩
    by_cases hc : runningTotal + c ≥ target
    · -- the first bucket reaches the target
      refine ⟨0, by simp, by simp [scanThreshold, hc], by simpa using hc, fun j' hj' => absurd hj' (Nat.not_lt_zero j')⟩
    · -- the target is reached further on, from the running total with `c`
      cases j with
      | zero => simp at hreach; omega
      | succ j =>
        have hreach' : target ≤ runningTotal + c + (cs.take (j + 1)).sum := by
          simpa [List.take_succ_cons, Nat.add_assoc] using hreach
        obtain ⟨k, hk, hscan, hk_reach, hk_least⟩ :=
          ih (i + 1) (runningTotal + c) ⟨j, by simpa using hj, hreach'⟩
        refine ⟨k + 1, by simpa using hk, ?_, ?_, ?_⟩
        · rw [scanThreshold, if_neg hc, hscan]
          omega
        · simpa [List.take_succ_cons, Nat.add_assoc] using hk_reach
        · intro j' hj'
          cases j' with
          | zero => simpa using Nat.lt_of_not_ge hc
          | succ j' => simpa [List.take_succ_cons, Nat.add_assoc] using hk_least j' (by omega)

/-- When no bucket's running total reaches `target`, the threshold stays 0. -/
theorem scanThreshold_of_lt (target : Nat) (cs : List Nat) :
    ∀ i runningTotal : Nat, runningTotal + cs.sum < target → scanThreshold target cs i runningTotal = 0 := by
  induction cs with
  | nil =>
    intro i runningTotal _
    rfl
  | cons c cs ih =>
    intro i runningTotal h
    simp only [List.sum_cons] at h
    rw [scanThreshold, if_neg (by omega)]
    exact ih (i + 1) (runningTotal + c) (by omega)

/-- `getThresholds(p, a).first` is the least counter value `t` whose count
reaches the target, when the target is at most the items recorded, and 0
otherwise. -/
theorem getThresholds_fst (s : LearningAgeAndMFUBasedEviction) (freqPercentage agePercentage : ℚ) :
    (freqTarget freqPercentage s.totalFreqCounterValues ≤ s.totalFreqCounterValues →
      (s.getThresholds valueAtPercentile freqPercentage agePercentage).1 < 256 ∧
      freqTarget freqPercentage s.totalFreqCounterValues ≤
        s.countAtMost (s.getThresholds valueAtPercentile freqPercentage agePercentage).1 ∧
      ∀ t < (s.getThresholds valueAtPercentile freqPercentage agePercentage).1,
        s.countAtMost t < freqTarget freqPercentage s.totalFreqCounterValues) ∧
    (s.totalFreqCounterValues < freqTarget freqPercentage s.totalFreqCounterValues →
      (s.getThresholds valueAtPercentile freqPercentage agePercentage).1 = 0) := by
  refine ⟨fun hle => ?_, fun hlt => ?_⟩
  · -- the last bucket's running total is everything recorded
    have hlast : freqTarget freqPercentage s.totalFreqCounterValues ≤ 0 + (s.freqCounters.take (255 + 1)).sum := by
      simpa [countAtMost] using hle.trans (countAtMost_of_le s (Nat.le_refl 255)).ge
    obtain ⟨j, hj, hscan, hreach, hleast⟩ :=
      scanThreshold_spec _ s.freqCounters 0 0 ⟨255, by rw [s.length_freqCounters]; omega, hlast⟩
    rw [s.length_freqCounters] at hj
    simp only [getThresholds, hscan, Nat.zero_add] at hreach hleast ⊢
    exact ⟨hj, hreach, hleast⟩
  · exact scanThreshold_of_lt _ s.freqCounters 0 0 (by rw [s.sum_freqCounters]; omega)

/-- When the first bucket reaches the target, the threshold is 0. -/
theorem getThresholds_fst_eq_zero (s : LearningAgeAndMFUBasedEviction) {freqPercentage : ℚ} (agePercentage : ℚ)
    (h : freqTarget freqPercentage s.totalFreqCounterValues ≤ s.countAtMost 0) :
    (s.getThresholds valueAtPercentile freqPercentage agePercentage).1 = 0 := by
  obtain ⟨-, -, hleast⟩ := (getThresholds_fst s freqPercentage agePercentage).1 (h.trans (countAtMost_le s 0))
  by_contra hne
  exact absurd h (Nat.not_le_of_lt (hleast 0 (Nat.pos_of_ne_zero hne)))

/-- The target never exceeds the items recorded, for a percentage in
[0, 100] and fewer than `2 ^ 53` items: the doubles on the way round to at
most `1` and at most `N`. -/
theorem freqTarget_le {freqPercentage : ℚ} (h0 : 0 ≤ freqPercentage) (h100 : freqPercentage ≤ 100) {N : Nat}
    (hN : N < 2 ^ 53) : freqTarget freqPercentage N ≤ N := by
  unfold freqTarget Binary64.toNat Binary64.mul Binary64.div Binary64.ofNat
  have hdiv0 : 0 ≤ freqPercentage / 100 := div_nonneg h0 (by norm_num)
  have hq0 : 0 ≤ Binary64.round (freqPercentage / 100) := round_nonneg hdiv0
  have hq1 : Binary64.round (freqPercentage / 100) ≤ 1 := by
    have h := round_le_natCast (N := 1) hdiv0 (by norm_num) (by rw [Nat.cast_one, div_le_one (by norm_num)]; exact h100)
    simpa using h
  have hN0 : 0 ≤ Binary64.round (N : ℚ) := round_nonneg (Nat.cast_nonneg N)
  have hN1 : Binary64.round (N : ℚ) ≤ N := round_le_natCast (Nat.cast_nonneg N) hN (le_refl _)
  have hprod : Binary64.round (freqPercentage / 100) * Binary64.round (N : ℚ) ≤ N :=
    calc Binary64.round (freqPercentage / 100) * Binary64.round (N : ℚ)
        ≤ 1 * N := mul_le_mul hq1 hN1 hN0 zero_le_one
      _ = N := one_mul _
  exact Nat.floor_le_of_le (round_le_natCast (mul_nonneg hq0 hN0) hN hprod)

/-- An eviction ratio in [0, 1] gives a percentage in [0, 100]. -/
theorem mul_hundred_mem {r : ℚ} (h0 : 0 ≤ r) (h1 : r ≤ 1) : 0 ≤ mul r 100 ∧ mul r 100 ≤ 100 := by
  have hr : 0 ≤ r * 100 := mul_nonneg h0 (by norm_num)
  refine ⟨round_nonneg hr, ?_⟩
  have h := round_le_natCast (N := 100) hr (by norm_num) (by push_cast; linarith)
  simpa [mul] using h

/-! ## What a visit leaves to `shouldTryEvict` -/

theorem visit_append_singleton (s : LearningAgeAndMFUBasedEviction) (items : List ItemSeen) (item : ItemSeen) :
    s.visit valueAtPercentile (items ++ [item]) =
      (s.visit valueAtPercentile items).eligibleItemSeen valueAtPercentile item.freq item.age item.state := by
  rw [visit, List.foldl_append, List.foldl_cons, List.foldl_nil, ← visit]

/-- An update sets the threshold from the histogram with the item added. -/
theorem freqCounterThreshold_eligibleItemSeen {s : LearningAgeAndMFUBasedEviction} {freq : UInt8} {age : Nat}
    {state : VBucketState}
    (hupd : ((s.addFreqAndAgeToHistograms freq age).isLearning ||
      (s.addFreqAndAgeToHistograms freq age).isRequiredToUpdate) = true) :
    (s.eligibleItemSeen valueAtPercentile freq age state).freqCounterThreshold =
      ((s.addFreqAndAgeToHistograms freq age).getThresholds valueAtPercentile
        (mul (s.evictionRatios.getForState state) 100) (ofNat s.agePercentage)).1 := by
  unfold eligibleItemSeen
  dsimp only
  rw [if_pos hupd]
  rfl

theorem le_freqCounterThreshold_of_shouldTryEvict {s : LearningAgeAndMFUBasedEviction} {freq : UInt8} {age : Nat}
    {state : VBucketState} (h : s.shouldTryEvict freq age state = .ok true) :
    freq.toNat ≤ s.freqCounterThreshold := by
  unfold shouldTryEvict at h
  by_cases hneg : s.evictionRatios.getForState state < 0
  · simp [hneg] at h
  by_cases hzero : s.evictionRatios.getForState state = 0
  · simp [hzero] at h
  simp only [hneg, hzero, if_false, Except.ok.injEq, Bool.and_eq_true, decide_eq_true_eq] at h
  exact h.1

theorem shouldTryEvict_of_eq_zero {s : LearningAgeAndMFUBasedEviction} {freq : UInt8} {age : Nat}
    {state : VBucketState} (h : s.evictionRatios.getForState state = 0) :
    s.shouldTryEvict freq age state = .ok false := by
  simp [shouldTryEvict, h]

/-- A visit since `setupVBucketVisit` whose last item updated the thresholds
leaves the threshold `getThresholds` computes from the whole visit. -/
theorem freqCounterThreshold_visit_of_update (s₀ : LearningAgeAndMFUBasedEviction) (numExpectedItems : Nat)
    (items : List ItemSeen) (item : ItemSeen)
    (hupd : items.length + 1 ≤ learningPopulation ∨
      (items.length + 1) % (s₀.setupVBucketVisit numExpectedItems).requiredToUpdateInterval = 0) :
    ((s₀.setupVBucketVisit numExpectedItems).visit valueAtPercentile (items ++ [item])).freqCounterThreshold =
      (((s₀.setupVBucketVisit numExpectedItems).visit valueAtPercentile (items ++ [item])).getThresholds
        valueAtPercentile (mul (s₀.evictionRatios.getForState item.state) 100) (ofNat s₀.agePercentage)).1 := by
  -- the last item meets the update condition with the item counted
  have hupd' : ((((s₀.setupVBucketVisit numExpectedItems).visit valueAtPercentile items).addFreqAndAgeToHistograms
      item.freq item.age).isLearning || (((s₀.setupVBucketVisit numExpectedItems).visit valueAtPercentile
        items).addFreqAndAgeToHistograms item.freq item.age).isRequiredToUpdate) = true := by
    simp only [isLearning, isRequiredToUpdate, addFreqAndAgeToHistograms, totalFreqCounterValues_visit,
      totalFreqCounterValues_setupVBucketVisit, Nat.zero_add, requiredToUpdateInterval_visit, Bool.or_eq_true,
      decide_eq_true_eq, beq_iff_eq]
    exact hupd
  rw [visit_append_singleton, freqCounterThreshold_eligibleItemSeen hupd', getThresholds_eligibleItemSeen,
    evictionRatios_visit, agePercentage_visit]
  rfl

/-- A strategy at its initial state, with the eviction ratio `r` for every
vbucket state. -/
def initialAt (r : ℚ) : LearningAgeAndMFUBasedEviction :=
  ⟨⟨r, r⟩, 0, 0, List.replicate 256 0, 0, [], 1, 0, 0, List.length_replicate, by rw [List.sum_replicate]; rfl⟩

/-- A visit of `a` items with counter 0, then `b` with counter 1. -/
def twoCounters (a b : Nat) : List ItemSeen :=
  List.replicate a ⟨0, 0, .active⟩ ++ List.replicate b ⟨1, 0, .active⟩

theorem countAtMost_zero_visit_twoCounters (s : LearningAgeAndMFUBasedEviction) (a b : Nat) :
    ((s.setupVBucketVisit 0).visit valueAtPercentile (twoCounters a b)).countAtMost 0 = a := by
  rw [countAtMost_visit, countAtMost_setupVBucketVisit, Nat.zero_add, twoCounters, List.filter_append,
    List.filter_replicate, List.filter_replicate]
  simp

end LearningAgeAndMFUBasedEviction

end KvEngine.Eviction
