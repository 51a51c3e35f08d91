import Mathlib.Algebra.Order.Ring.Rat
import Mathlib.Tactic.NormNum

/-!
# Contracts — Messages

The wire payloads the services exchange (`contracts/python/bellasreef_contracts/messages.py`),
with the fields a modelled function reads.  Identifiers are an arbitrary type `ι`; instants and
durations are rational seconds; a duty is a rational in `[0, 1]`.  The model validators of the
source are fields: a command that expires before it is issued, or an adopted assignment with no
binding, cannot be built.
-/

namespace BellasReef.Contracts

/-- `PwmLevel.duty`: `ge=0.0, le=1.0`. -/
abbrev Duty := {d : ℚ // 0 ≤ d ∧ d ≤ 1}

theorem half_duty : (0 : ℚ) ≤ 1 / 2 ∧ (1 / 2 : ℚ) ≤ 1 := by norm_num

/-- The duty `0`. -/
def Duty.zero : Duty := ⟨0, le_refl 0, zero_le_one⟩

/-- `ActuatorLevel`, discriminated by `kind`. -/
inductive ActuatorLevel where
  | binary (on : Bool)
  | pwm (duty : Duty)
  deriving DecidableEq

/-- `StateReason`. -/
inductive StateReason where
  | commanded
  | safeState
  | interlockLatch
  | manualOverride
  | startup
  deriving DecidableEq, Repr

/-- A command addressed to exactly one actuator. -/
structure ActuatorCommand (ι L : Type) where
  actuatorId : ι
  level : L
  emittedAt : ℚ
  expiresAt : ℚ
  expires_after : emittedAt < expiresAt

/-- `ActuatorCommand.is_expired`. -/
def ActuatorCommand.isExpired {ι L : Type} (c : ActuatorCommand ι L) (now : ℚ) : Bool :=
  decide (c.expiresAt ≤ now)

/-- Last-known state of one actuator. -/
structure ActuatorState (L : Type) where
  level : L
  reason : StateReason
  latched : Bool
  deriving DecidableEq

/-- An operator's decision about one device.  `adopted = false` is the tombstone. -/
structure DeviceAssignment (ι R T B : Type) where
  deviceId : ι
  adopted : Bool
  role : Option R
  driverType : Option T
  binding : Option B
  adopted_means_bound : adopted = true → driverType.isSome ∧ binding.isSome
  deriving DecidableEq

theorem bound_unit (adopted : Bool) :
    adopted = true → (some ()).isSome = true ∧ (some ()).isSome = true :=
  fun _ => ⟨rfl, rfl⟩

end BellasReef.Contracts
