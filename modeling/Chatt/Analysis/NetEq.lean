import Chatt.Model.NetEq

/-!
# The jitter buffer's statistics

A histogram sums to one after every observation: what rounding loses is less than one unit a
bucket, and the buckets have room for sixteen times as much.
-/

namespace Chatt.NetEq

open List

variable {buckets : List ℤ} {h : Histogram} {n value : ℕ} {factor left sum inverse : ℤ}

lemma sum_modify (hlt : value < buckets.length) (increment : ℤ) :
    (buckets.modify value (· + increment)).sum = buckets.sum + increment := by
  induction buckets generalizing value with
  | nil => simp at hlt
  | cons bucket rest ih =>
    cases value with
    | zero => simp; ring
    | succ value =>
      rw [modify_succ_cons, sum_cons, sum_cons, ih (Nat.lt_of_succ_lt_succ hlt)]
      ring

/-- The decayed buckets lose less than one unit each. -/
lemma decay_bounds (hnonneg : ∀ b ∈ buckets, 0 ≤ b) (hfactor : 0 ≤ factor) :
    (∀ b ∈ buckets.map fun b => b * factor / 2 ^ 15, 0 ≤ b) ∧
    (buckets.map fun b => b * factor / 2 ^ 15).sum * 32768 ≤ buckets.sum * factor ∧
      buckets.sum * factor ≤ (buckets.map fun b => b * factor / 2 ^ 15).sum * 32768 +
        32767 * buckets.length := by
  induction buckets with
  | nil => simp
  | cons bucket rest ih =>
    obtain ⟨hbucket, hrest⟩ := forall_mem_cons.mp hnonneg
    obtain ⟨hpos, hlow, hhigh⟩ := ih hrest
    have hprod := mul_nonneg hbucket hfactor
    simp only [map_cons, sum_cons, forall_mem_cons, add_mul, length_cons]
      at hpos hlow hhigh ⊢
    refine ⟨⟨by omega, hpos⟩, by omega, by omega⟩

/-- The room `compensate` has. -/
lemma sum_le_room : buckets.sum ≤ 16 * (buckets.map (· / 2 ^ 4)).sum + 15 * buckets.length := by
  induction buckets with
  | nil => simp
  | cons bucket rest ih =>
    simp only [map_cons, sum_cons, length_cons] at ih ⊢
    omega

/-- With enough room, the loop puts back exactly what is missing. -/
lemma compensate_spec (hleft : 0 ≤ left) (hnonneg : ∀ b ∈ buckets, 0 ≤ b)
      (hroom : left ≤ (buckets.map (· / 2 ^ 4)).sum) :
    (∀ b ∈ compensate 1 (-left) buckets, 0 ≤ b) ∧
    (compensate 1 (-left) buckets).sum = buckets.sum + left ∧
      (compensate 1 (-left) buckets).length = buckets.length := by
  induction buckets generalizing left with
  | nil =>
    obtain rfl : left = 0 := le_antisymm (by simpa using hroom) hleft
    simp [compensate]
  | cons bucket rest ih =>
    obtain ⟨hbucket, hrest⟩ := forall_mem_cons.mp hnonneg
    rw [map_cons, sum_cons] at hroom
    simp only [compensate, abs_neg, abs_of_nonneg hleft, one_mul, abs_eq_zero, sum_cons,
      length_cons, forall_mem_cons]
    split_ifs with hdone
    · refine ⟨⟨by omega, hrest⟩, by omega, rfl⟩
    -- the bucket gave all it could
    obtain ⟨hpos, hsum, hlength⟩ :=
      @ih (left - min left (bucket / 2 ^ 4)) (by omega) hrest (by omega)
    rw [show -left + min left (bucket / 2 ^ 4) = -(left - min left (bucket / 2 ^ 4)) by ring]
    exact ⟨⟨by omega, hpos⟩, by omega, congrArg (· + 1) hlength⟩

/-- The distribution of `n` buckets. -/
structure Normalised (n : ℕ) (buckets : List ℤ) : Prop where
  length : buckets.length = n
  nonneg : ∀ b ∈ buckets, 0 ≤ b
  sum : buckets.sum = 2 ^ 30

/-- The end of `Histogram::add`, when no more than a unit a bucket is missing. -/
lemma normalised_repair (hlength : buckets.length = n) (hnonneg : ∀ b ∈ buckets, 0 ≤ b)
      (hsum : buckets.sum - 2 ^ 30 = sum) (hlow : -n ≤ sum)
    (hhigh : sum ≤ 0) (hn : n ≤ 65536) :
    Normalised n (if sum ≠ 0 then compensate (if sum > 0 then -1 else 1) sum buckets
      else buckets) := by
  obtain ⟨left, rfl⟩ : ∃ left, sum = -left := ⟨-sum, by ring⟩
  have hroom := @sum_le_room buckets
  split_ifs with hmissing hsurplus
  · omega
  · obtain ⟨hkept, hrepaired, hcount⟩ := @compensate_spec _ left (by omega) hnonneg (by omega)
    exact ⟨hcount.trans hlength, hkept, by omega⟩
  · exact ⟨hlength, hnonneg, by omega⟩

/-- One observation.  The first one, whose factor is zero, need not find a distribution. -/
lemma normalised_observe (hlength : h.buckets.length = n) (hnonneg : ∀ b ∈ h.buckets, 0 ≤ b)
      (hsum : h.buckets.sum * h.forgetFactor = 2 ^ 30 * h.forgetFactor)
    (hfactor : 0 ≤ h.forgetFactor ∧ h.forgetFactor ≤ 32768) (hn : n ≤ 65536) (hvalue : value < n) :
    Normalised n (h.observe value) := by
  obtain ⟨hpos, hlow, hhigh⟩ := decay_bounds hnonneg hfactor.1
  rw [hsum] at hlow
  have hvalue' : value < (h.buckets.map fun b => b * h.forgetFactor / 2 ^ 15).length := by
    rwa [length_map, hlength]
  refine normalised_repair (by rw [length_modify, length_map, hlength]) ?_
    (congrArg (· - 2 ^ 30) (sum_modify hvalue' _)) (by omega) (by omega) hn
  intro b hb
  obtain ⟨i, hi, rfl⟩ := getElem_of_mem hb
  rw [length_modify] at hi
  have hold := hpos _ (getElem_mem hi)
  rw [getElem_modify]
  split_ifs
  · omega
  · exact hold

lemma normalised_addAll {calls : List (ℤ × ℕ)} (hn : n ≤ 65536) (hinv : Normalised n h.buckets)
    (hcalls : ∀ call ∈ calls, (0 ≤ call.1 ∧ call.1 ≤ 32768) ∧ call.2 < n) :
    Normalised n (h.addAll calls).buckets := by
  induction calls generalizing h with
  | nil => exact hinv
  | cons call calls ih =>
    obtain ⟨⟨hfactor, hvalue⟩, hrest⟩ := forall_mem_cons.mp hcalls
    refine @ih ({ h with forgetFactor := call.1 }.add call.2) ?_ hrest
    exact @normalised_observe { h with forgetFactor := call.1 } _ _ hinv.length hinv.nonneg
      (congrArg (· * call.1) hinv.sum) hfactor hn hvalue

lemma resetBuckets_spec (tempProb : ℕ) :
    (resetBuckets n tempProb).length = n ∧ ∀ b ∈ resetBuckets n tempProb, 0 ≤ b := by
  induction n generalizing tempProb with
  | zero => exact ⟨rfl, by simp [resetBuckets]⟩
  | succ n ih =>
    obtain ⟨hlength, hnonneg⟩ := ih (tempProb / 2)
    exact ⟨congrArg (· + 1) hlength, forall_mem_cons.mpr ⟨Int.natCast_nonneg _, hnonneg⟩⟩

/-- The loop stops at the first index whose tail is small enough. -/
lemma quantileFrom_spec (index : ℕ) (hinverse : 0 ≤ inverse) :
    ∃ k ≤ buckets.length, quantileFrom inverse buckets.sum index buckets = index + k ∧
    (buckets.drop k).sum ≤ inverse ∧ ∀ j < k, inverse < (buckets.drop j).sum := by
  induction buckets generalizing index with
  | nil => exact ⟨0, le_rfl, rfl, hinverse, fun j hj => absurd hj (Nat.not_lt_zero j)⟩
  | cons bucket rest ih =>
    unfold quantileFrom
    split_ifs with hmore
    · obtain ⟨k, hk, hrun, hsmall, hlarge⟩ := ih (index + 1)
      refine ⟨k + 1, Nat.succ_le_succ hk, ?_, hsmall, ?_⟩
      · rw [sum_cons, add_sub_cancel_left, hrun]
        omega
      · intro j hj
        cases j with
        | zero => exact hmore
        | succ j => exact hlarge j (Nat.lt_of_succ_lt_succ hj)
    · exact ⟨0, Nat.zero_le _, rfl, not_lt.mp hmore, fun j hj => absurd hj (Nat.not_lt_zero j)⟩

/-- `quantile` is the least index whose remaining tail is at most `1 - probability`. -/
lemma quantile_isLeast (hinv : Normalised n h.buckets) {probability : ℤ}
      (hprobability : probability ≤ 2 ^ 30) :
    IsLeast {i | i < n ∧ (h.buckets.drop (i + 1)).sum ≤ 2 ^ 30 - probability}
      (h.quantile probability) := by
  obtain ⟨hlength, -, hsum⟩ := hinv
  unfold Histogram.quantile
  cases hbuckets : h.buckets with
  | nil => simp [hbuckets] at hsum
  | cons bucket rest =>
    rw [hbuckets, sum_cons] at hsum
    rw [hbuckets, length_cons] at hlength
    obtain ⟨k, hk, hrun, hsmall, hlarge⟩ :=
      @quantileFrom_spec rest (2 ^ 30 - probability) 0 (by omega)
    show IsLeast _ (quantileFrom _ (2 ^ 30 - bucket) 0 rest)
    rw [← hsum, add_sub_cancel_left, hsum, hrun, Nat.zero_add]
    refine ⟨⟨by omega, hsmall⟩, fun i hi => ?_⟩
    by_contra hlt
    exact absurd hi.2 (not_le.mpr (hlarge i (not_le.mp hlt)))

/-- After the first observation, which finds the factor zero, the buckets are a distribution
whatever the later factors are. -/
theorem histogram_stays_normalised (numBuckets value : ℕ) (base : ℤ) (ramp : Option (ℕ → ℤ))
    (calls : List (ℤ × ℕ)) (hn : numBuckets ≤ 65536) (hvalue : value < numBuckets)
    (hcalls : ∀ call ∈ calls, (0 ≤ call.1 ∧ call.1 ≤ 2 ^ 15) ∧ call.2 < numBuckets) (h : Histogram)
    (hrun : h = ((Histogram.new numBuckets base ramp).add value).addAll calls) :
    (∀ bucket ∈ h.buckets, 0 ≤ bucket) ∧ h.buckets.sum = 2 ^ 30 ∧
      ∀ probability ≤ 2 ^ 30,
        IsLeast {i | i < numBuckets ∧ (h.buckets.drop (i + 1)).sum ≤ 2 ^ 30 - probability}
          (h.quantile probability) := by
  have hnew : (Histogram.new numBuckets base ramp).buckets = resetBuckets numBuckets 0x4002 := by
    rw [Histogram.new, Histogram.reset, length_replicate]
  obtain ⟨hlength, hnonneg⟩ := @resetBuckets_spec numBuckets 0x4002
  rw [← hnew] at hlength hnonneg
  have hfirst : Normalised numBuckets ((Histogram.new numBuckets base ramp).observe value) :=
    normalised_observe hlength hnonneg (mul_zero _) ⟨le_rfl, Int.zero_le_ofNat _⟩ hn hvalue
  have hinv : Normalised numBuckets h.buckets :=
    hrun ▸ @normalised_addAll ((Histogram.new numBuckets base ramp).add value) _ _ hn hfirst hcalls
  exact ⟨hinv.nonneg, hinv.sum, fun _ hprobability => quantile_isLeast hinv hprobability⟩

/-- Two buckets under a factor that is not a whole number of units. -/
theorem histogram_stays_normalised_two :
    (((Histogram.new 2 32745 none).add 0).addAll [(32745, 1)]).buckets.sum = 2 ^ 30 :=
  (histogram_stays_normalised 2 0 32745 none [(32745, 1)] (by decide) (by decide) (by decide) _
    rfl).2.1

end Chatt.NetEq
