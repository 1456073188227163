import Mathlib.Algebra.Order.Ring.Int
import DatawerxMesh.Library.Outcome

/-!
# The retry policy

`pkg/client/retry.go`.  Delays are `int64` nanoseconds, so doubling one may wrap around.
-/

namespace DatawerxMesh.Client

/-- How often to try and how long to wait. -/
structure RetryPolicy where
  maxAttempts : Int
  baseDelay : Int64
  maxDelay : Int64

/-- Four attempts, from 200 ms up to 5 s. -/
def defaultRetryPolicy : RetryPolicy where
  maxAttempts := 4
  baseDelay := 200000000
  maxDelay := 5000000000

namespace RetryPolicy

variable (p : RetryPolicy)

/-- The loop of `backoff` with the iterations that are left. -/
def backoffLoop : Nat → Int64 → Int64
  | 0, d => if 0 < p.maxDelay ∧ p.maxDelay < d then p.maxDelay else d
  | left + 1, d =>
    let d := d * 2
    if 0 < p.maxDelay ∧ p.maxDelay ≤ d then p.maxDelay
    else if d ≤ 0 then p.maxDelay
    else backoffLoop left d

/-- The delay before an attempt. -/
def backoff (attempt : Nat) : Int64 :=
  if p.baseDelay ≤ 0 then 0 else p.backoffLoop attempt p.baseDelay

/-- At least one attempt is made. -/
def attempts : Nat := if p.maxAttempts < 1 then 1 else p.maxAttempts.toNat

end RetryPolicy

/-- Too many requests, or a server error. -/
def isRetryableStatus (code : Int) : Bool := code = 429 ∨ (500 ≤ code ∧ code ≤ 599)

/-- `fullJitter` with the draws of `rng.Int63n`, which panics unless its argument is positive. -/
def fullJitter (d : Int64) (rng : Option (Int64 → Int64)) : Option Int64 :=
  if d ≤ 0 then some 0
  else
    match rng with
    | none => some d
    | some int63n => if d + 1 ≤ 0 then none else some (int63n (d + 1))

theorem toInt_double {d : Int64} (positive : 0 < d.toInt) :
    (d * 2).toInt = 2 * d.toInt ∧ 2 * d.toInt < 2 ^ 63 ∨
      (d * 2).toInt < 0 ∧ 2 ^ 63 ≤ 2 * d.toInt := by
  have bound := d.toInt_lt
  have double : (d * 2).toInt = (2 * d.toInt).bmod (2 ^ 64) := by
    rw [Int64.toInt_mul, mul_comm]
    rfl
  rw [double, Int.bmod_def]
  omega

variable {p : RetryPolicy}

theorem toInt_backoffLoop (cap : 0 < p.maxDelay.toInt) (n : Nat) {d : Int64}
    (positive : 0 < d.toInt) :
    (p.backoffLoop n d).toInt = min p.maxDelay.toInt (d.toInt * 2 ^ n) := by
  induction n generalizing d with
  | zero =>
    rw [RetryPolicy.backoffLoop, pow_zero, mul_one]
    simp only [Int64.lt_iff_toInt_lt]
    split
    · rename_i above
      exact (min_eq_left above.2.le).symm
    · rename_i below
      exact (min_eq_right (not_lt.mp fun above => below ⟨cap, above⟩)).symm
  | succ n ih =>
    have cap_lt := p.maxDelay.toInt_lt
    have grows : 2 * d.toInt ≤ 2 * d.toInt * 2 ^ n :=
      le_mul_of_one_le_right (by omega) (one_le_pow₀ (by decide))
    have power : d.toInt * 2 ^ (n + 1) = 2 * d.toInt * 2 ^ n := by
      rw [pow_succ', mul_left_comm, mul_assoc]
    simp only [RetryPolicy.backoffLoop, Int64.lt_iff_toInt_lt, Int64.le_iff_toInt_le,
      Int64.toInt_zero, power]
    -- the cap is below the first delay that wraps around, so both early returns are right
    obtain ⟨exact_, small⟩ | ⟨wrapped, large⟩ := toInt_double positive
    · split
      · rename_i capped
        exact (min_eq_left (by omega)).symm
      · rw [if_neg (by omega), ih (by omega), exact_]
    · rw [if_neg (by omega), if_pos (by omega), min_eq_left (by omega)]

/-- The delay is the exponential one, computed without wrapping around, up to the cap. -/
theorem backoff_eq_min (p : RetryPolicy) (based : 0 < p.baseDelay) (capped : 0 < p.maxDelay) :
    (∀ n, (p.backoff n).toInt = min p.maxDelay.toInt (p.baseDelay.toInt * 2 ^ n)) ∧
      (∀ m n, m ≤ n → p.backoff m ≤ p.backoff n) ∧ ∀ n, 0 < p.backoff n := by
  have base_pos : 0 < p.baseDelay.toInt := Int64.lt_iff_toInt_lt.mp based
  have cap_pos : 0 < p.maxDelay.toInt := Int64.lt_iff_toInt_lt.mp capped
  have value : ∀ n, (p.backoff n).toInt = min p.maxDelay.toInt (p.baseDelay.toInt * 2 ^ n) := by
    intro n
    rw [RetryPolicy.backoff, if_neg (Int64.not_le.mpr based), toInt_backoffLoop cap_pos n base_pos]
  refine ⟨value, fun m n le => ?_, fun n => ?_⟩
  · rw [Int64.le_iff_toInt_le, value, value]
    exact min_le_min_left _ (mul_le_mul_of_nonneg_left (pow_le_pow_right₀ (by decide) le)
      base_pos.le)
  · rw [Int64.lt_iff_toInt_lt, value]
    exact lt_min cap_pos (mul_pos base_pos (pow_pos (by decide) n))

/-- The default policy waits 200 ms, 400 ms, and so on, and never more than 5 s. -/
theorem backoff_default :
    (∀ n, (defaultRetryPolicy.backoff n).toInt = min 5000000000 (200000000 * 2 ^ n)) ∧
      (∀ m n, m ≤ n → defaultRetryPolicy.backoff m ≤ defaultRetryPolicy.backoff n) ∧
      ∀ n, 0 < defaultRetryPolicy.backoff n :=
  backoff_eq_min defaultRetryPolicy (by decide) (by decide)

end DatawerxMesh.Client
