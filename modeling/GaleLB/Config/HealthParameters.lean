import Mathlib.Algebra.Group.Nat.Defs
import Mathlib.Data.Int.Notation

/-!
# The health parameters on both sides of the connection

The load balancer configures how often nodes must report and hands its parameters to them.
The number of checks before routing is cut to 32 bits on the way. A node reports with half
the timeout as its period. Nothing enforces the documented minimum of the timeout, so the
period can be zero or negative: the parameters agree exactly when the number of checks fits
32 bits and the timeout is at least two nanoseconds.
-/

namespace GaleLB.Config

/-- `lb.NodeHealth`, with durations in nanoseconds, on a 64-bit platform. -/
structure NodeHealth where
  checksBeforeRouting : UInt64
  checksTimeout : Int64
  blackListAfterFails : Int64
  blackListExpiry : Int64
deriving DecidableEq, Repr

/-- `time.Nanosecond`. -/
def nanosecond : Int64 := 1

/-- `time.Second`. -/
def second : Int64 := 1000000000

/-- The node health of a new configuration. -/
def newNodeHealth : NodeHealth where
  checksBeforeRouting := 3
  checksTimeout := 10 * second
  blackListAfterFails := -1
  blackListExpiry := 60 * second

/-- The response of a load balancer to a node that asks for its configuration. -/
structure ConfigResponse where
  checksBeforeRouting : UInt32
  healthCheckTimeout : Int64
  blackListAfterFails : Int64
  blackListExpiry : Int64
deriving DecidableEq, Repr

/-- `NodeManager.GetConfig`; a duration is its number of nanoseconds. -/
def getConfig (nodeHealth : NodeHealth) : ConfigResponse where
  checksBeforeRouting := nodeHealth.checksBeforeRouting.toUInt32
  healthCheckTimeout := nodeHealth.checksTimeout
  blackListAfterFails := nodeHealth.blackListAfterFails
  blackListExpiry := nodeHealth.blackListExpiry

/-- The duration of the timer of `multiplexHealthStatus`. -/
def timerDuration (nodeHealth : NodeHealth) : Int64 := nodeHealth.checksTimeout

/-- The divisor of the timeout that gives the period. -/
def healthCheckIntervalDivisor : Int64 := 2

/-- The timeout that a node takes from the response. -/
def normalizedTime (executionCfg : ConfigResponse) : Int64 := executionCfg.healthCheckTimeout * nanosecond

/-- The period of a node's reports. -/
def healthPeriod (executionCfg : ConfigResponse) : Int64 :=
  normalizedTime executionCfg / healthCheckIntervalDivisor

/-- The response carries the configured values, and the timer lasts for two periods of the reports. -/
structure ParametersAgree (nodeHealth : NodeHealth) : Prop where
  checksBeforeRouting :
    (getConfig nodeHealth).checksBeforeRouting.toNat = nodeHealth.checksBeforeRouting.toNat
  healthCheckTimeout : (getConfig nodeHealth).healthCheckTimeout = nodeHealth.checksTimeout
  blackListAfterFails : (getConfig nodeHealth).blackListAfterFails = nodeHealth.blackListAfterFails
  blackListExpiry : (getConfig nodeHealth).blackListExpiry = nodeHealth.blackListExpiry
  period_pos : 0 < (healthPeriod (getConfig nodeHealth)).toInt
  two_periods_le : 2 * (healthPeriod (getConfig nodeHealth)).toInt ≤ (timerDuration nodeHealth).toInt

/-- The period is half the configured timeout, rounded towards zero. -/
theorem healthPeriod_getConfig (nodeHealth : NodeHealth) :
    (healthPeriod (getConfig nodeHealth)).toInt = nodeHealth.checksTimeout.toInt.tdiv 2 := by
  unfold healthPeriod normalizedTime nanosecond
  rw [Int64.mul_one, Int64.toInt_div_of_ne_right _ _ (by decide)]
  rfl

/-- The number of checks arrives as configured when it fits 32 bits. -/
theorem checksBeforeRouting_getConfig_iff (nodeHealth : NodeHealth) :
    (getConfig nodeHealth).checksBeforeRouting.toNat = nodeHealth.checksBeforeRouting.toNat ↔
      nodeHealth.checksBeforeRouting.toNat < 2 ^ 32 := by
  unfold getConfig
  dsimp only
  rw [UInt64.toNat_toUInt32]
  exact Nat.mod_eq_iff_lt (by decide)

/-- For every configuration, the parameters agree exactly when the number of checks fits 32 bits and the
timeout is at least two nanoseconds. -/
theorem parametersAgree_iff (nodeHealth : NodeHealth) :
    ParametersAgree nodeHealth ↔
      nodeHealth.checksBeforeRouting.toNat < 2 ^ 32 ∧ 2 ≤ nodeHealth.checksTimeout.toInt := by
  have hperiod := healthPeriod_getConfig nodeHealth
  have hchecks := checksBeforeRouting_getConfig_iff nodeHealth
  constructor
  · intro h
    refine ⟨hchecks.mp h.checksBeforeRouting, ?_⟩
    have hpos := h.period_pos
    rw [hperiod] at hpos
    -- Rounding towards zero, a negative timeout has no positive half.
    rcases Int.lt_or_le nodeHealth.checksTimeout.toInt 0 with hneg | hnonneg
    · have hopposite := Int.neg_tdiv nodeHealth.checksTimeout.toInt 2
      rw [Int.tdiv_eq_ediv_of_nonneg (by omega)] at hopposite
      omega
    · rw [Int.tdiv_eq_ediv_of_nonneg hnonneg] at hpos
      omega
  · rintro ⟨hfits, htimeout⟩
    rw [Int.tdiv_eq_ediv_of_nonneg (by omega)] at hperiod
    refine ⟨hchecks.mpr hfits, rfl, rfl, rfl, ?_, ?_⟩
    · rw [hperiod]
      omega
    · rw [hperiod]
      change _ ≤ nodeHealth.checksTimeout.toInt
      omega

/-- The parameters of a new configuration agree. -/
theorem parametersAgree_newNodeHealth : ParametersAgree newNodeHealth :=
  (parametersAgree_iff newNodeHealth).mpr ⟨by decide, by decide⟩

/-- With a timeout of one nanosecond the period is zero, and `2 ^ 32` checks before routing arrive as none. -/
theorem parameters_disagree :
    (healthPeriod (getConfig { newNodeHealth with checksTimeout := nanosecond })).toInt = 0 ∧
      ¬ ParametersAgree { newNodeHealth with checksTimeout := nanosecond } ∧
      (getConfig { newNodeHealth with checksBeforeRouting := 4294967296 }).checksBeforeRouting = 0 ∧
      ¬ ParametersAgree { newNodeHealth with checksBeforeRouting := 4294967296 } := by
  refine ⟨by decide, ?_, by decide, ?_⟩
  · intro h
    exact absurd h.period_pos (by decide)
  · intro h
    exact absurd h.checksBeforeRouting (by decide)

/-- When the parameters agree, two reports are due in every interval of the length of the timer. -/
theorem ParametersAgree.two_reports_due {nodeHealth : NodeHealth} (h : ParametersAgree nodeHealth) (start : ℤ) :
    ∃ k, start < k * (healthPeriod (getConfig nodeHealth)).toInt ∧
      (k + 1) * (healthPeriod (getConfig nodeHealth)).toInt ≤ start + (timerDuration nodeHealth).toInt := by
  have hpos := h.period_pos
  have htwo := h.two_periods_le
  generalize (healthPeriod (getConfig nodeHealth)).toInt = period at hpos htwo ⊢
  refine ⟨start / period + 1, Int.lt_ediv_add_one_mul_self start hpos, ?_⟩
  have hfloor := Int.ediv_mul_le start (Int.ne_of_gt hpos)
  rw [Int.add_mul, Int.add_mul, Int.one_mul]
  omega

end GaleLB.Config
