import BellasReef.Contracts.Messages
import Mathlib.Tactic.Linarith

/-!
# HardwareIO — Drivers

What the supervisor knows of a driver (`safety.py`'s `SafetyActuatorDriver`), and the two real
PWM drivers.  They share `snap_duty` (`dimming.py`) and `drive_safe`, which writes duty 0; they
differ in two ways.  The PCA9685 serialises every call on its chip behind one first-come
first-served lock and cannot report its output; an RP1 channel holds no lock, so two calls in
flight write in the order their threads run, and the kernel reports what it was last told.

`Actuator` is a driver together with the safety triple of its registration, which
`InterlockSupervisor.register` requires to be complete.
-/

namespace BellasReef.HardwareIO
open BellasReef.Contracts

/-- A driver, as the supervisor and the command consumer use it. -/
structure Driver (L : Type) where
  /-- `effective_level`; `none` where the driver raises `TypeError`. -/
  effectiveLevel : L → Option L
  /-- What `drive_safe` puts on the hardware. -/
  driveSafe : L
  /-- The driver's calls hold one first-come first-served lock. -/
  locked : Bool
  /-- `read_back`, at the level on the hardware. -/
  readBack : L → Option L

/-- One registered actuator: its driver, and the safety triple of its registration. -/
structure Actuator (L : Type) where
  driver : Driver L
  safeState : L
  maxRuntimeS : ℚ
  heartbeatTimeoutS : ℚ
  maxRuntimeS_pos : 0 < maxRuntimeS
  heartbeatTimeoutS_pos : 0 < heartbeatTimeoutS
  /-- `drive_safe` lands the declared safe state. -/
  drives_safe : driver.driveSafe = safeState

/-! ### Dimming -/

/-- `MIN_USABLE_DUTY`. -/
def minUsableDuty : ℚ := 8 / 100

/-- `snap_duty`: a duty below the usable band is dark. -/
def snapDuty (d : Duty) : Duty :=
  if d.1 < minUsableDuty then Duty.zero else d

/-- A duty below the usable ones is dark. -/
theorem snapDuty_of_lt {d : Duty} (h : d.1 < minUsableDuty) : snapDuty d = Duty.zero :=
  if_pos h

/-- A usable duty stays. -/
theorem snapDuty_of_le {d : Duty} (h : minUsableDuty ≤ d.1) : snapDuty d = d :=
  if_neg (not_lt.mpr h)

/-- No duty inside the undefined band reaches a pin. -/
theorem snapDuty_band (d : Duty) : snapDuty d = Duty.zero ∨ minUsableDuty ≤ (snapDuty d).1 := by
  rcases lt_or_ge d.1 minUsableDuty with h | h
  · exact .inl (snapDuty_of_lt h)
  · exact .inr (by rwa [snapDuty_of_le h])

/-- `effective_level` of both PWM drivers: the snap decision, and a `TypeError` for a level that
is not a PWM one. -/
def pwmEffectiveLevel : ActuatorLevel → Option ActuatorLevel
  | .pwm d => some (.pwm (snapDuty d))
  | .binary _ => none

/-- `Pca9685Channel`: one chip lock, and no read-back. -/
def pca9685Channel : Driver ActuatorLevel where
  effectiveLevel := pwmEffectiveLevel
  driveSafe := .pwm Duty.zero
  locked := true
  readBack := fun _ => none

/-- `PiPwmChannel`: no lock, and the kernel's own record of what it was told. -/
def piPwmChannel : Driver ActuatorLevel where
  effectiveLevel := pwmEffectiveLevel
  driveSafe := .pwm Duty.zero
  locked := false
  readBack := some

/-- `LIGHT_MAX_RUNTIME_S`. -/
def lightMaxRuntimeS : ℚ := 18 * 3600

/-- `LIGHT_HEARTBEAT_TIMEOUT_S`. -/
def lightHeartbeatTimeoutS : ℚ := 30

/-- The two real PWM drivers. -/
inductive PwmDriver where
  | pca9685
  | rp1Pwm
  deriving DecidableEq, Repr

/-- The driver of one channel. -/
def PwmDriver.channel : PwmDriver → Driver ActuatorLevel
  | .pca9685 => pca9685Channel
  | .rp1Pwm => piPwmChannel

/-- `light_registration`: both sources register a channel identically, dark as its safe state. -/
def lightRegistration (d : PwmDriver) : Actuator ActuatorLevel where
  driver := d.channel
  safeState := .pwm Duty.zero
  maxRuntimeS := lightMaxRuntimeS
  heartbeatTimeoutS := lightHeartbeatTimeoutS
  maxRuntimeS_pos := by unfold lightMaxRuntimeS; norm_num
  heartbeatTimeoutS_pos := by unfold lightHeartbeatTimeoutS; norm_num
  drives_safe := by cases d <;> rfl

end BellasReef.HardwareIO
