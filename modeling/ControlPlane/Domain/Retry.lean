import Mathlib.Algebra.Order.Field.Rat
import Mathlib.Tactic.Positivity
import Mathlib.Tactic.Linarith
import Mathlib.Tactic.Ring

/-! # Failure classes and the retry policy

What an attempt's exception says about trying again, and after how long. The
random source is an argument: a draw is a number of the unit interval. -/

namespace ControlPlane

inductive FailureClass where
  | transient | rateLimited | timeout | dependencyUnavailable | workerLost
  | permanent | userError | permissionDenied | unknown
  deriving DecidableEq, Repr

def FailureClass.value : FailureClass → String
  | transient => "TRANSIENT"
  | rateLimited => "RATE_LIMITED"
  | timeout => "TIMEOUT"
  | dependencyUnavailable => "DEPENDENCY_UNAVAILABLE"
  | workerLost => "WORKER_LOST"
  | permanent => "PERMANENT"
  | userError => "USER_ERROR"
  | permissionDenied => "PERMISSION_DENIED"
  | unknown => "UNKNOWN"

/-- `failure_class.value.lower()`. -/
def FailureClass.lower : FailureClass → String
  | transient => "transient"
  | rateLimited => "rate_limited"
  | timeout => "timeout"
  | dependencyUnavailable => "dependency_unavailable"
  | workerLost => "worker_lost"
  | permanent => "permanent"
  | userError => "user_error"
  | permissionDenied => "permission_denied"
  | unknown => "unknown"

/-- An exception: the answers to the `isinstance` questions asked about it, its
attribute `retry_after_s` when that is a number, and its two texts. -/
structure PyException where
  typeName : String
  text : String
  /-- the class attribute `failure_class`, when it is an `AdapterError` -/
  adapterError : Option FailureClass := none
  timeoutError : Bool := false
  connectionError : Bool := false
  /-- a `TypeError`, `ValueError` or `KeyError` -/
  shapeError : Bool := false
  osError : Bool := false
  retryAfterS : Option ℚ := none

def classify (exc : PyException) : FailureClass :=
  match exc.adapterError with
  | some failureClass => failureClass
  | none =>
    if exc.timeoutError then .timeout
    else if exc.connectionError then .dependencyUnavailable
    else if exc.shapeError then .userError
    else if exc.osError then .dependencyUnavailable
    else .unknown

def retryAfterOf (exc : PyException) : Option ℚ := exc.retryAfterS.filter fun s => decide (0 ≤ s)

/-! ## The policy -/

structure RetryPolicy where
  retryable : Bool
  baseS : ℚ := 1
  capS : ℚ := 60
  attemptCap : Option Int := none

def policies : FailureClass → RetryPolicy
  | .transient => { retryable := true, baseS := 1, capS := 60 }
  | .rateLimited => { retryable := true, baseS := 5, capS := 300 }
  | .timeout => { retryable := true, baseS := 2, capS := 120 }
  | .dependencyUnavailable => { retryable := true, baseS := 5, capS := 300 }
  | .workerLost => { retryable := true, baseS := 0, capS := 0 }
  | .permanent => { retryable := false }
  | .userError => { retryable := false }
  | .permissionDenied => { retryable := false }
  | .unknown => { retryable := true, baseS := 2, capS := 60, attemptCap := some 2 }

structure RetryDecision where
  shouldRetry : Bool
  backoffS : ℚ
  reason : String

/-- What `random()` returns. -/
abbrev Draw := { u : ℚ // 0 ≤ u ∧ u ≤ 1 }

def uniform (u : Draw) (a b : ℚ) : ℚ := a + (b - a) * u.1

/-- The draws of one decision, in the order the backoff makes them. -/
structure Draws where
  jitter : Draw
  spread : Draw

def Draw.lowest : Draw := ⟨0, le_refl 0, zero_le_one⟩

def Draws.lowest : Draws := ⟨.lowest, .lowest⟩

def ceilingS (policy : RetryPolicy) (attempt : Int) : ℚ :=
  min policy.capS (policy.baseS * 2 ^ (max 0 (attempt - 1)).toNat)

def backoffS (failureClass : FailureClass) (attempt : Int) (retryAfterS : Option ℚ)
    (rng : Draws) : ℚ :=
  let policy := policies failureClass
  let ceiling := ceilingS policy attempt
  let jittered := if 0 < ceiling then uniform rng.jitter 0 ceiling else 0
  match retryAfterS with
  | some s => s + uniform rng.spread 0 (max 1 policy.baseS)
  | none => jittered

/-- `decide`, under the name the worker imports it by. -/
def decideRetry (failureClass : FailureClass) (attempt maxAttempts : Int)
    (retryAfterS : Option ℚ) (rng : Draws) : RetryDecision :=
  let policy := policies failureClass
  if !policy.retryable then ⟨false, 0, failureClass.lower ++ "_not_retryable"⟩
  else if maxAttempts ≤ attempt then ⟨false, 0, "max_attempts_exhausted"⟩
  else if policy.attemptCap.any fun cap => decide (cap ≤ attempt) then
    ⟨false, 0, failureClass.lower ++ "_attempt_cap_reached"⟩
  else ⟨true, backoffS failureClass attempt retryAfterS rng, "retry_after_" ++ failureClass.lower⟩

/-- A retry is granted to a retryable class, within the task's budget and below the
cap of the class. -/
theorem decideRetry_granted {failureClass : FailureClass} {attempt maxAttempts : Int}
    {retryAfterS : Option ℚ} {rng : Draws}
    (h : (decideRetry failureClass attempt maxAttempts retryAfterS rng).shouldRetry = true) :
    (policies failureClass).retryable = true ∧ attempt < maxAttempts ∧
      (∀ cap, (policies failureClass).attemptCap = some cap → attempt < cap) ∧
      (decideRetry failureClass attempt maxAttempts retryAfterS rng).backoffS =
        backoffS failureClass attempt retryAfterS rng := by
  unfold decideRetry at h ⊢
  dsimp only at h ⊢
  split at h
  · cases h
  rename_i hretryable
  split at h
  · cases h
  rename_i hbudget
  split at h
  · cases h
  rename_i hcap
  rw [if_neg hretryable, if_neg hbudget, if_neg hcap]
  refine ⟨by simpa using hretryable, by omega, fun cap he => ?_, rfl⟩
  simpa [he] using hcap

theorem decideRetry_budget {failureClass : FailureClass} {attempt maxAttempts : Int}
    {retryAfterS : Option ℚ} {rng : Draws}
    (h : (decideRetry failureClass attempt maxAttempts retryAfterS rng).shouldRetry = true) :
    attempt < maxAttempts :=
  (decideRetry_granted h).2.1

theorem uniform_between (u : Draw) {a b : ℚ} (hab : a ≤ b) : a ≤ uniform u a b ∧ uniform u a b ≤ b := by
  obtain ⟨u, h0, h1⟩ := u
  unfold uniform
  have hw : 0 ≤ b - a := by linarith
  constructor
  · have := mul_nonneg hw h0
    linarith
  · have := mul_le_mul_of_nonneg_left h1 hw
    linarith

theorem ceilingS_nonneg (failureClass : FailureClass) (attempt : Int) :
    0 ≤ ceilingS (policies failureClass) attempt := by
  have hpow : (0 : ℚ) ≤ 2 ^ (max 0 (attempt - 1)).toNat := by positivity
  cases failureClass <;> simp [ceilingS, policies]

/-- From the first attempt on, each one doubles the base. -/
theorem ceilingS_eq (policy : RetryPolicy) {attempt : Int} (h : 1 ≤ attempt) :
    ceilingS policy attempt = min policy.capS (policy.baseS * 2 ^ (attempt - 1)) := by
  have hexp : ((max 0 (attempt - 1)).toNat : Int) = attempt - 1 := by omega
  unfold ceilingS
  rw [← zpow_natCast, hexp]

/-- The delay stays under the ceiling of the class. A server's Retry-After is a
floor, with a spread on top of it. -/
theorem backoffS_within (failureClass : FailureClass) {attempt : Int} (h : 1 ≤ attempt)
    (retryAfterS : Option ℚ) (rng : Draws) :
    (retryAfterS = none → 0 ≤ backoffS failureClass attempt retryAfterS rng ∧
        backoffS failureClass attempt retryAfterS rng ≤
          min (policies failureClass).capS ((policies failureClass).baseS * 2 ^ (attempt - 1))) ∧
      ∀ s, retryAfterS = some s → s ≤ backoffS failureClass attempt retryAfterS rng ∧
        backoffS failureClass attempt retryAfterS rng ≤ s + max 1 (policies failureClass).baseS := by
  constructor
  · rintro rfl
    rw [← ceilingS_eq _ h]
    simp only [backoffS]
    split
    · rename_i hpos
      exact uniform_between rng.jitter hpos.le
    · exact ⟨le_refl _, ceilingS_nonneg failureClass attempt⟩
  · rintro s rfl
    obtain ⟨h0, h1⟩ := uniform_between rng.spread
      (zero_le_one.trans (le_max_left 1 (policies failureClass).baseS))
    simp only [backoffS]
    constructor <;> linarith

/-- The delay without a hint is the jitter's share of the ceiling. -/
theorem backoffS_none (failureClass : FailureClass) (attempt : Int) (rng : Draws) :
    backoffS failureClass attempt none rng =
      rng.jitter.1 * ceilingS (policies failureClass) attempt := by
  simp only [backoffS, uniform]
  split
  · ring
  · rename_i hzero
    have heq : ceilingS (policies failureClass) attempt = 0 :=
      le_antisymm (not_lt.mp hzero) (ceilingS_nonneg failureClass attempt)
    simp [heq]

/-- The delay with a hint has no share of the ceiling: the draw made for it is lost. -/
theorem backoffS_some (failureClass : FailureClass) (attempt : Int) (s : ℚ) (rng : Draws) :
    backoffS failureClass attempt (some s) rng =
      s + rng.spread.1 * max 1 (policies failureClass).baseS := by
  simp only [backoffS, uniform]
  ring

def Draw.highest : Draw := ⟨1, zero_le_one, le_refl 1⟩

/-- A hint never shortens the policy's own delay exactly when it is no less than the
class's exponential ceiling at the attempt: the spread on top of it does not grow
with the attempts. -/
theorem retry_after_lengthens_iff (failureClass : FailureClass) {attempt : Int}
    (h : 1 ≤ attempt) (s : ℚ) :
    (∀ rng : Draws, s ≤ backoffS failureClass attempt (some s) rng ∧
        backoffS failureClass attempt none rng ≤ backoffS failureClass attempt (some s) rng) ↔
      min (policies failureClass).capS ((policies failureClass).baseS * 2 ^ (attempt - 1)) ≤ s := by
  rw [← ceilingS_eq _ h]
  constructor
  · intro hall
    -- the longest jitter against the shortest spread
    have hworst := (hall ⟨.highest, .lowest⟩).2
    simpa [backoffS_none, backoffS_some, Draw.highest, Draw.lowest] using hworst
  · intro hceiling rng
    have hfloor : s ≤ backoffS failureClass attempt (some s) rng :=
      ((backoffS_within failureClass h (some s) rng).2 s rfl).1
    have hjitter : backoffS failureClass attempt none rng ≤
        ceilingS (policies failureClass) attempt := by
      rw [backoffS_none]
      exact mul_le_of_le_one_left (ceilingS_nonneg failureClass attempt) rng.jitter.2.2
    exact ⟨hfloor, hjitter.trans (hceiling.trans hfloor)⟩

/-- At the first attempt a throttled caller's ceiling is five seconds. -/
theorem retry_after_lengthens_first :
    (policies .rateLimited).retryable = true ∧
      ∀ rng : Draws, (30 : ℚ) ≤ backoffS .rateLimited 1 (some 30) rng ∧
        backoffS .rateLimited 1 none rng ≤ backoffS .rateLimited 1 (some 30) rng :=
  ⟨rfl, (retry_after_lengthens_iff .rateLimited (le_refl 1) 30).2 (by norm_num [policies])⟩

def Draw.middle : Draw := ⟨2⁻¹, by norm_num, by norm_num⟩

/-- At the fifth attempt the policy alone waits forty seconds; told "after one second",
it waits three and a half. -/
theorem retry_after_shortens :
    (policies .rateLimited).retryable = true ∧
      backoffS .rateLimited 5 none ⟨.middle, .middle⟩ = 40 ∧
      backoffS .rateLimited 5 (some 1) ⟨.middle, .middle⟩ = 7 / 2 ∧
      ¬ backoffS .rateLimited 5 none ⟨.middle, .middle⟩ ≤
        backoffS .rateLimited 5 (some 1) ⟨.middle, .middle⟩ := by
  have hwithout : backoffS .rateLimited 5 none ⟨.middle, .middle⟩ = 40 := by
    rw [backoffS_none, ceilingS_eq _ (by decide)]
    norm_num [policies, Draw.middle]
  have hwith : backoffS .rateLimited 5 (some 1) ⟨.middle, .middle⟩ = 7 / 2 := by
    norm_num [backoffS_some, policies, Draw.middle]
  refine ⟨rfl, hwithout, hwith, ?_⟩
  rw [hwithout, hwith]
  norm_num

end ControlPlane
