import Mathlib

/-!
# The jitter buffer's statistics

The delay histogram of `neteq/histogram.rs`.
-/

namespace Chatt.NetEq

/-- `Histogram`: buckets in Q30, factors in Q15.  With a `start_forget_weight`, `ramp` gives the
factor that the float expression has after a number of observations. -/
structure Histogram where
  buckets : List ℤ
  forgetFactor : ℤ
  baseForgetFactor : ℤ
  addCount : ℕ
  ramp : Option (ℕ → ℤ)

/-- The buckets `Histogram::reset` writes, `temp_prob` halved before each. -/
def resetBuckets : ℕ → ℕ → List ℤ
  | 0, _ => []
  | n + 1, tempProb => (tempProb / 2 * 2 ^ 16 : ℕ) :: resetBuckets n (tempProb / 2)

def Histogram.reset (h : Histogram) : Histogram :=
  { h with buckets := resetBuckets h.buckets.length 0x4002, forgetFactor := 0, addCount := 0 }

def Histogram.new (numBuckets : ℕ) (forgetFactor : ℤ) (ramp : Option (ℕ → ℤ)) : Histogram :=
  Histogram.reset ⟨.replicate numBuckets 0, 0, forgetFactor, 0, ramp⟩

/-- The loop that moves the sum to one, which stops once nothing is left to correct. -/
def compensate (flipSign : ℤ) : ℤ → List ℤ → List ℤ
  | _, [] => []
  | vectorSum, bucket :: rest =>
    let correction := flipSign * min |vectorSum| (bucket / 2 ^ 4)
    (bucket + correction) :: if |vectorSum + correction| = 0 then rest
      else compensate flipSign (vectorSum + correction) rest

/-- The buckets after `Histogram::add`. -/
def Histogram.observe (h : Histogram) (value : ℕ) : List ℤ :=
  let decayed := h.buckets.map fun bucket => bucket * h.forgetFactor / 2 ^ 15
  let increment := (32768 - h.forgetFactor) * 2 ^ 15
  let vectorSum := decayed.sum + increment - 2 ^ 30
  let added := decayed.modify value (· + increment)
  if vectorSum ≠ 0 then compensate (if vectorSum > 0 then -1 else 1) vectorSum added else added

def Histogram.add (h : Histogram) (value : ℕ) : Histogram :=
  { h with
    buckets := h.observe value
    addCount := h.addCount + 1
    forgetFactor := match h.ramp with
      | some ramp =>
        if h.forgetFactor ≠ h.baseForgetFactor then
          max 0 (min (ramp (h.addCount + 1)) h.baseForgetFactor)
        else h.forgetFactor
      | none => h.forgetFactor + (h.baseForgetFactor - h.forgetFactor + 3) / 2 ^ 2 }

/-- Observations, each made under a forgetting factor of its own. -/
def Histogram.addAll (h : Histogram) (calls : List (ℤ × ℕ)) : Histogram :=
  calls.foldl (fun h call => { h with forgetFactor := call.1 }.add call.2) h

/-- The loop of `Histogram::quantile`, over the buckets after `index`. -/
def quantileFrom (inverseProbability : ℤ) : ℤ → ℕ → List ℤ → ℕ
  | _, index, [] => index
  | sum, index, bucket :: rest =>
    if sum > inverseProbability then quantileFrom inverseProbability (sum - bucket) (index + 1) rest
    else index

def Histogram.quantile (h : Histogram) (probability : ℤ) : ℕ :=
  match h.buckets with
  | [] => 0
  | bucket :: rest => quantileFrom (2 ^ 30 - probability) (2 ^ 30 - bucket) 0 rest

end Chatt.NetEq
