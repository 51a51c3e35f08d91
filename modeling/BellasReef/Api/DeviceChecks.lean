import BellasReef.Api.Bands
import BellasReef.Api.Devices
import BellasReef.Support.Checks
import BellasReef.Support.Lines

/-!
# Api — DeviceChecks

The CHECK constraints of `devices` (`models.py`).

A check that is unknown lets a row through, and one of them compares a column that may be null with
no guard of its own.  `accepts_exactly`: even so, the constraints together let through what their
plain reading does, and no other row.
-/

namespace BellasReef.Api.DeviceChecks
open BellasReef.Contracts BellasReef.Support BellasReef.Support.Checks
open BellasReef.Api.Bands (sqlOrder)

/-! ### The table -/

/-- A row of `devices`: its id, and the columns that a constraint reads. -/
structure Row (ι χ : Type) where
  deviceId : ι
  kind : String
  sensorType : Option String
  pollIntervalS : Option Double
  actuatorClass : Option String
  controlAuthority : Option String
  failsafeCapable : Option Bool
  transport : Option String
  role : Option String
  safeState : Option ActuatorLevel
  maxRuntimeS : Option Double
  heartbeatTimeoutS : Option Double
  alertMin : Option Double
  alertMax : Option Double
  alertClearMargin : Option Double
  displayName : Option Text
  driverType : Option String
  binding : Option (Binding χ)
  adopted : Bool

/-- Columns that are compared with words. -/
inductive Word where
  | kind
  | driverType
  | actuatorClass
  | controlAuthority
  | transport
  | role
  deriving DecidableEq

/-- Columns that are compared with zero. -/
inductive Number where
  | pollIntervalS
  | maxRuntimeS
  | heartbeatTimeoutS
  | alertMin
  | alertMax
  | alertClearMargin
  deriving DecidableEq

/-- A column that a constraint asks the null-ness of. -/
inductive Column where
  | word (w : Word)
  | number (n : Number)
  | sensorType
  | displayName
  | binding
  | safeState
  | failsafeCapable
  | adopted
  deriving DecidableEq

/-- A condition on values that are not null. -/
inductive Test where
  /-- `w IN (...)`, and `w = ...` of one. -/
  | among (w : Word) (words : List String)
  /-- `n > 0`. -/
  | positive (n : Number)
  /-- `length(btrim(display_name)) > 0`. -/
  | notBlank
  | failsafeCapable
  | adopted
  /-- `alert_min < alert_max`. -/
  | bandOrdered
  /-- `(alert_min + alert_clear_margin) < (alert_max - alert_clear_margin)`. -/
  | zoneReachable

/-- The columns that a comparison reads. -/
def Test.reads : Test → List Column
  | among w _ => [.word w]
  | positive n => [.number n]
  | notBlank => [.displayName]
  | failsafeCapable => [.failsafeCapable]
  | adopted => [.adopted]
  | bandOrdered => [.number .alertMin, .number .alertMax]
  | zoneReachable =>
      [.number .alertMin, .number .alertClearMargin, .number .alertMax]

namespace Row
variable {ι χ : Type}

/-- The word in a column of words. -/
def word (r : Row ι χ) : Word → Option String
  | .kind => some r.kind
  | .driverType => r.driverType
  | .actuatorClass => r.actuatorClass
  | .controlAuthority => r.controlAuthority
  | .transport => r.transport
  | .role => r.role

/-- The number in a column of numbers. -/
def number (r : Row ι χ) : Number → Option Double
  | .pollIntervalS => r.pollIntervalS
  | .maxRuntimeS => r.maxRuntimeS
  | .heartbeatTimeoutS => r.heartbeatTimeoutS
  | .alertMin => r.alertMin
  | .alertMax => r.alertMax
  | .alertClearMargin => r.alertClearMargin

/-- The column is null. -/
def null (r : Row ι χ) : Column → Bool
  | .word w => (r.word w).isNone
  | .number n => (r.number n).isNone
  | .sensorType => r.sensorType.isNone
  | .displayName => r.displayName.isNone
  | .binding => r.binding.isNone
  | .safeState => r.safeState.isNone
  | .failsafeCapable => r.failsafeCapable.isNone
  | .adopted => false

/-- The columns of the band. -/
def band (r : Row ι χ) : Bands.Columns := ⟨r.alertMin, r.alertMax, r.alertClearMargin⟩

/-- What a comparison comes to, of columns that are not null; a sum that is an error fails the
statement, too. -/
def test (r : Row ι χ) : Test → Bool
  | .among w words => (r.word w).any (· ∈ words)
  | .positive n => (r.number n).any fun x => sqlOrder 0 < sqlOrder x
  | .notBlank => r.displayName.any fun name => name.any (· ≠ ' ')
  | .failsafeCapable => r.failsafeCapable = some true
  | .adopted => r.adopted
  | .bandOrdered => r.band.alertBandOrdered
  | .zoneReachable => r.band.clearZoneIsReachable

/-- A row as the constraints see it. -/
def valuation (r : Row ι χ) : Valuation Column Test := ⟨r.null, r.test⟩

end Row

/-! ### The constraints -/

/-- A `CHECK` of the table. -/
abbrev Check := Cond Column Test

/-- `w = v`. -/
def is (w : Word) (v : String) : Check := .test (.among w [v])

/-- `w IN (...)`. -/
def among (w : Word) (words : List String) : Check := .test (.among w words)

/-- `n > 0`. -/
def positive (n : Number) : Check := .test (.positive n)

/-- `w IS DISTINCT FROM v`. -/
def distinct (w : Word) (v : String) : Check := .isDistinct (.word w) (.among w [v])

/-- A device is a sensor or an actuator. -/
def kindValid : Check := among .kind ["sensor", "actuator"]

/-- The driver is one that there is, or there is none. -/
def driverTypeValid : Check :=
  (Cond.isNull (.word .driverType)).or (among .driverType ["pi-pwm", "pca9685", "ds18b20"])

/-- Adopted means bound. -/
def adoptedDevicesAreBound : Check :=
  (Cond.test .adopted).not.or ((Cond.notNull (.word .driverType)).and (.notNull .binding))

/-- A name of spaces is not a name. -/
def displayNameNotBlank : Check := (Cond.isNull .displayName).or (.test .notBlank)

/-- The class is one of two, or there is none. -/
def actuatorClassValid : Check :=
  (Cond.isNull (.word .actuatorClass)).or (among .actuatorClass ["binary", "pwm"])

/-- An actuator declares its class, its authority, whether it fails safe and its transport. -/
def actuatorDeclaresAuthority : Check :=
  (is .kind "actuator").not.or <|
    (Cond.notNull (.word .actuatorClass)).and (.notNull (.word .controlAuthority))
      |>.and (among .controlAuthority ["authoritative", "advisory", "observe_only"])
      |>.and (.notNull .failsafeCapable)
      |>.and (.notNull (.word .transport))
      |>.and (among .transport ["local", "network"])

/-- A sensor declares neither authority nor failsafe. -/
def sensorsCarryNoControlAuthority : Check :=
  (is .kind "sensor").not.or <|
    (Cond.isNull (.word .controlAuthority)).and (.isNull .failsafeCapable)

/-- What the hub has authority over it can make safe: locally, and within bounds. -/
def authoritativeDeclaresFailureBehaviour : Check :=
  (distinct .controlAuthority "authoritative").or <|
    (Cond.isTrue .failsafeCapable .failsafeCapable).and (is .transport "local")
      |>.and (.notNull .safeState)
      |>.and (.notNull (.number .maxRuntimeS)) |>.and (positive .maxRuntimeS)
      |>.and (.notNull (.number .heartbeatTimeoutS)) |>.and (positive .heartbeatTimeoutS)

/-- A device that cannot be commanded declares no safe state. -/
def unenforceableAuthorityDeclaresNoSafeState : Check :=
  ((distinct .controlAuthority "advisory").and (distinct .controlAuthority "observe_only")).or
    (.isNull .safeState)

/-- A sensor declares what it reads, how often, and how it is reached. -/
def sensorDeclaresTypeCadenceAndTransport : Check :=
  (is .kind "sensor").not.or <|
    (Cond.notNull .sensorType).and (.notNull (.number .pollIntervalS))
      |>.and (positive .pollIntervalS)
      |>.and (.notNull (.word .transport))
      |>.and (among .transport ["local", "network"])

/-- An actuator declares what it drives. -/
def actuatorDeclaresRole : Check :=
  (is .kind "actuator").not.or <|
    (Cond.notNull (.word .role)).and (among .role ["light", "heater", "pump", "doser", "outlet"])

/-- Thresholds are a sensor concept. -/
def thresholdsAreSensorOnly : Check :=
  (is .kind "sensor").or <|
    (Cond.isNull (.number .alertMin)).and (.isNull (.number .alertMax))
      |>.and (.isNull (.number .alertClearMargin))

/-- A margin is positive. -/
def clearMarginPositive : Check :=
  (Cond.isNull (.number .alertClearMargin)).or (positive .alertClearMargin)

/-- The lower bound is below the upper. -/
def alertBandOrdered : Check :=
  (Cond.isNull (.number .alertMin)).or (.isNull (.number .alertMax)) |>.or (.test .bandOrdered)

/-- A threshold has a clear point. -/
def thresholdsRequireClearMargin : Check :=
  ((Cond.isNull (.number .alertMin)).and (.isNull (.number .alertMax))).or
    (.notNull (.number .alertClearMargin))

/-- There is a value at which both bounds have cleared. -/
def clearZoneIsReachable : Check :=
  (Cond.isNull (.number .alertMin)).or (.isNull (.number .alertMax))
    |>.or (.isNull (.number .alertClearMargin)) |>.or (.test .zoneReachable)

/-- `Device.__table_args__`. -/
def checks : List Check :=
  [kindValid, driverTypeValid, adoptedDevicesAreBound, displayNameNotBlank, actuatorClassValid,
    actuatorDeclaresAuthority, sensorsCarryNoControlAuthority,
    authoritativeDeclaresFailureBehaviour, unenforceableAuthorityDeclaresNoSafeState,
    sensorDeclaresTypeCadenceAndTransport, actuatorDeclaresRole, thresholdsAreSensorOnly,
    clearMarginPositive, alertBandOrdered, thresholdsRequireClearMargin, clearZoneIsReachable]

/-- A row passes them all. -/
def Row.accepts {ι χ : Type} (r : Row ι χ) : Bool :=
  checks.all fun check => check.passes Test.reads r.valuation

/-! ### What a row is -/

section Spec
variable {ι χ : Type}

/-- A positive number; to Postgres NaN is one. -/
def IsPositive (x : Option Double) : Prop := ∃ y, x = some y ∧ sqlOrder 0 < sqlOrder y

/-- One of these words. -/
def IsAmong (words : List String) (w : Option String) : Prop := ∃ v ∈ words, w = some v

/-- The row of a sensor. -/
structure IsSensor (r : Row ι χ) : Prop where
  kind : r.kind = "sensor"
  sensorType : r.sensorType.isSome = true
  cadence : IsPositive r.pollIntervalS
  transport : IsAmong ["local", "network"] r.transport
  noAuthority : r.controlAuthority = none
  noFailsafe : r.failsafeCapable = none

/-- It is obeyed, and declares how it fails. -/
structure Authoritative (r : Row ι χ) : Prop where
  authority : r.controlAuthority = some "authoritative"
  failsafe : r.failsafeCapable = some true
  transport : r.transport = some "local"
  safeState : r.safeState.isSome = true
  maxRuntime : IsPositive r.maxRuntimeS
  heartbeatTimeout : IsPositive r.heartbeatTimeoutS

/-- It may not be obeyed, and declares no safe state. -/
structure Unenforceable (r : Row ι χ) : Prop where
  authority : IsAmong ["advisory", "observe_only"] r.controlAuthority
  failsafe : r.failsafeCapable.isSome = true
  transport : IsAmong ["local", "network"] r.transport
  noSafeState : r.safeState = none

/-- The row of an actuator. -/
structure IsActuator (r : Row ι χ) : Prop where
  kind : r.kind = "actuator"
  actuatorClass : r.actuatorClass.isSome = true
  role : IsAmong ["light", "heater", "pump", "doser", "outlet"] r.role
  authority : Authoritative r ∨ Unenforceable r
  unwatched : r.alertMin = none ∧ r.alertMax = none ∧ r.alertClearMargin = none

/-- A row as it is meant to be. -/
structure Sound (r : Row ι χ) : Prop where
  kind : IsSensor r ∨ IsActuator r
  actuatorClass : ∀ w, r.actuatorClass = some w → w ∈ ["binary", "pwm"]
  driverType : ∀ w, r.driverType = some w → w ∈ ["pi-pwm", "pca9685", "ds18b20"]
  bound : r.adopted = true → r.driverType.isSome = true ∧ r.binding.isSome = true
  named : ∀ name, r.displayName = some name → ∃ c ∈ name, c ≠ ' '
  band : r.band.accepts = true

end Spec

section Words
variable {words : List String} {w : Option String} {x : Option Double} {v : String}

theorem IsAmong.ne_none (h : IsAmong words w) : w ≠ none := by
  obtain ⟨v, -, rfl⟩ := h
  exact Option.some_ne_none v

theorem IsPositive.ne_none (h : IsPositive x) : x ≠ none := by
  obtain ⟨y, rfl, -⟩ := h
  exact Option.some_ne_none y

@[simp]
theorem isAmong_some : IsAmong words (some v) ↔ v ∈ words := by
  simp [IsAmong]

/-- A word that may be null is one of the words where it is not. -/
theorem isAmong_iff : w = none ∨ IsAmong words w ↔ ∀ v, w = some v → v ∈ words := by
  cases w <;> simp

end Words

/-! ### The plain reading -/

section Plain
variable {ι χ : Type} {r : Row ι χ} {w : Word} {n : Number} {words : List String} {v : String}
  {check : Check}

/-- The plain reading of a check. -/
abbrev Row.Meets (r : Row ι χ) (check : Check) : Prop := check.Holds Test.reads r.valuation

/-- A row meets `w IN (...)` if its word is there and is one of them. -/
@[simp]
theorem meets_among : r.Meets (among w words) ↔ IsAmong words (r.word w) := by
  cases hw : r.word w with
  | none => simp [Row.Meets, among, Cond.Holds, Test.reads, Row.valuation, Row.null, IsAmong, hw]
  | some v =>
      simp [Row.Meets, among, Cond.Holds, Test.reads, Row.valuation, Row.null, Row.test, IsAmong,
        hw]

/-- A row meets `w = v` if its word is there and is `v`. -/
@[simp]
theorem meets_is : r.Meets (is w v) ↔ r.word w = some v := by
  rw [is, ← among, meets_among]
  simp [IsAmong]

/-- A row meets `w IS DISTINCT FROM v` also where its word is null. -/
@[simp]
theorem meets_distinct : r.Meets (distinct w v) ↔ r.word w ≠ some v := by
  change (r.word w).isNone = true ∨ ¬ r.Meets (is w v) ↔ _
  rw [meets_is, or_iff_right_iff_imp, Option.isNone_iff_eq_none]
  intro hnull
  rw [hnull]
  rintro ⟨⟩

/-- A row meets `n > 0` if its number is there and is positive. -/
@[simp]
theorem meets_positive : r.Meets (positive n) ↔ IsPositive (r.number n) := by
  cases hn : r.number n with
  | none =>
      simp [Row.Meets, positive, Cond.Holds, Test.reads, Row.valuation, Row.null, IsPositive, hn]
  | some x =>
      simp [Row.Meets, positive, Cond.Holds, Test.reads, Row.valuation, Row.null, Row.test,
        IsPositive, hn]

@[simp]
theorem null_word : r.valuation.null (.word w) = true ↔ r.word w = none := Option.isNone_iff_eq_none

@[simp]
theorem null_number : r.valuation.null (.number n) = true ↔ r.number n = none :=
  Option.isNone_iff_eq_none

@[simp]
theorem null_sensorType : r.valuation.null .sensorType = true ↔ r.sensorType = none :=
  Option.isNone_iff_eq_none

@[simp]
theorem null_displayName : r.valuation.null .displayName = true ↔ r.displayName = none :=
  Option.isNone_iff_eq_none

@[simp]
theorem null_binding : r.valuation.null .binding = true ↔ r.binding = none :=
  Option.isNone_iff_eq_none

@[simp]
theorem null_safeState : r.valuation.null .safeState = true ↔ r.safeState = none :=
  Option.isNone_iff_eq_none

@[simp]
theorem null_failsafeCapable :
    r.valuation.null .failsafeCapable = true ↔ r.failsafeCapable = none :=
  Option.isNone_iff_eq_none

@[simp]
theorem meets_adopted : r.Meets (.test .adopted) ↔ r.adopted = true := by
  simp [Row.Meets, Cond.Holds, Test.reads, Row.valuation, Row.null, Row.test]

@[simp]
theorem meets_isTrue :
    r.Meets (.isTrue .failsafeCapable .failsafeCapable) ↔ r.failsafeCapable = some true := by
  cases hf : r.failsafeCapable <;>
    simp [Row.Meets, Cond.isTrue, Cond.Holds, Cond.notNull, Test.reads, Row.valuation, Row.null,
      Row.test, hf]

/-! ### What each check says -/

theorem meets_kindValid : r.Meets kindValid ↔ r.kind = "sensor" ∨ r.kind = "actuator" := by
  simp [kindValid, Row.word]

theorem meets_driverTypeValid : r.Meets driverTypeValid ↔
    ∀ w, r.driverType = some w → w ∈ ["pi-pwm", "pca9685", "ds18b20"] := by
  rw [← isAmong_iff]
  simp only [driverTypeValid, Cond.holds_or, Cond.holds_isNull, null_word, meets_among, Row.word]

theorem meets_adoptedDevicesAreBound : r.Meets adoptedDevicesAreBound ↔
    (r.adopted = true → r.driverType.isSome = true ∧ r.binding.isSome = true) := by
  simp [adoptedDevicesAreBound, Row.word, imp_iff_not_or, Option.isSome_iff_ne_none]

theorem meets_displayNameNotBlank : r.Meets displayNameNotBlank ↔
    ∀ name, r.displayName = some name → ∃ c ∈ name, c ≠ ' ' := by
  cases hn : r.displayName <;>
    simp [displayNameNotBlank, Row.Meets, Cond.Holds, Test.reads, Row.valuation, Row.null, Row.test,
      hn]

theorem meets_actuatorClassValid : r.Meets actuatorClassValid ↔
    ∀ w, r.actuatorClass = some w → w ∈ ["binary", "pwm"] := by
  rw [← isAmong_iff]
  simp only [actuatorClassValid, Cond.holds_or, Cond.holds_isNull, null_word, meets_among, Row.word]

/-- An actuator meets it by declaring the four; any other row meets it. -/
theorem meets_actuatorDeclaresAuthority : r.Meets actuatorDeclaresAuthority ↔
    (r.kind = "actuator" → r.actuatorClass.isSome = true ∧
      IsAmong ["authoritative", "advisory", "observe_only"] r.controlAuthority ∧
      r.failsafeCapable.isSome = true ∧ IsAmong ["local", "network"] r.transport) := by
  simp only [actuatorDeclaresAuthority, Cond.holds_or, Cond.holds_and, Cond.holds_not,
    Cond.holds_notNull, meets_is, meets_among, null_word, null_failsafeCapable, Row.word,
    Option.some.injEq, ← imp_iff_not_or, Option.isSome_iff_ne_none]
  refine imp_congr_right fun _ => ⟨?_, ?_⟩
  · rintro ⟨⟨⟨⟨⟨hclass, -⟩, hauthority⟩, hfailsafe⟩, -⟩, htransport⟩
    exact ⟨hclass, hauthority, hfailsafe, htransport⟩
  · rintro ⟨hclass, hauthority, hfailsafe, htransport⟩
    exact ⟨⟨⟨⟨⟨hclass, hauthority.ne_none⟩, hauthority⟩, hfailsafe⟩, htransport.ne_none⟩,
      htransport⟩

theorem meets_sensorsCarryNoControlAuthority : r.Meets sensorsCarryNoControlAuthority ↔
    (r.kind = "sensor" → r.controlAuthority = none ∧ r.failsafeCapable = none) := by
  simp [sensorsCarryNoControlAuthority, Row.word, imp_iff_not_or]

/-- It asks of an authoritative device what `Authoritative` says. -/
theorem meets_authoritativeDeclaresFailureBehaviour :
    r.Meets authoritativeDeclaresFailureBehaviour ↔
      (r.controlAuthority = some "authoritative" → Authoritative r) := by
  simp only [authoritativeDeclaresFailureBehaviour, Cond.holds_or, Cond.holds_and,
    Cond.holds_notNull, meets_distinct, meets_is, meets_isTrue, meets_positive, null_number,
    null_safeState, Row.word, Row.number, ne_eq, ← imp_iff_not_or]
  refine imp_congr_right fun hauthority => ⟨?_, ?_⟩
  · rintro ⟨⟨⟨⟨⟨⟨hfailsafe, hlocal⟩, hstate⟩, -⟩, hmax⟩, -⟩, hbeat⟩
    exact ⟨hauthority, hfailsafe, hlocal, Option.isSome_iff_ne_none.mpr hstate, hmax, hbeat⟩
  · rintro ⟨-, hfailsafe, hlocal, hstate, hmax, hbeat⟩
    exact ⟨⟨⟨⟨⟨⟨hfailsafe, hlocal⟩, Option.isSome_iff_ne_none.mp hstate⟩, hmax.ne_none⟩, hmax⟩,
      hbeat.ne_none⟩, hbeat⟩

/-- It asks of the two other authorities that there be no safe state. -/
theorem meets_unenforceableAuthorityDeclaresNoSafeState :
    r.Meets unenforceableAuthorityDeclaresNoSafeState ↔
      (IsAmong ["advisory", "observe_only"] r.controlAuthority → r.safeState = none) := by
  have hamong : IsAmong ["advisory", "observe_only"] r.controlAuthority ↔
      r.controlAuthority = some "advisory" ∨ r.controlAuthority = some "observe_only" := by
    simp [IsAmong]
  simp only [unenforceableAuthorityDeclaresNoSafeState, Cond.holds_or, Cond.holds_and,
    Cond.holds_isNull, meets_distinct, null_safeState, Row.word, hamong, ne_eq, ← not_or,
    ← imp_iff_not_or]

/-- A sensor meets it by declaring the three; any other row meets it. -/
theorem meets_sensorDeclaresTypeCadenceAndTransport :
    r.Meets sensorDeclaresTypeCadenceAndTransport ↔
      (r.kind = "sensor" → r.sensorType.isSome = true ∧ IsPositive r.pollIntervalS ∧
        IsAmong ["local", "network"] r.transport) := by
  simp only [sensorDeclaresTypeCadenceAndTransport, Cond.holds_or, Cond.holds_and, Cond.holds_not,
    Cond.holds_notNull, meets_is, meets_among, meets_positive, null_word, null_number,
    null_sensorType, Row.word, Row.number, Option.some.injEq, ← imp_iff_not_or,
    Option.isSome_iff_ne_none]
  refine imp_congr_right fun _ => ⟨?_, ?_⟩
  · rintro ⟨⟨⟨⟨htype, -⟩, hpoll⟩, -⟩, htransport⟩
    exact ⟨htype, hpoll, htransport⟩
  · rintro ⟨htype, hpoll, htransport⟩
    exact ⟨⟨⟨⟨htype, hpoll.ne_none⟩, hpoll⟩, htransport.ne_none⟩, htransport⟩

theorem meets_actuatorDeclaresRole : r.Meets actuatorDeclaresRole ↔
    (r.kind = "actuator" → IsAmong ["light", "heater", "pump", "doser", "outlet"] r.role) := by
  simp only [actuatorDeclaresRole, Cond.holds_or, Cond.holds_and, Cond.holds_not,
    Cond.holds_notNull, meets_is, meets_among, null_word, Row.word, Option.some.injEq,
    ← imp_iff_not_or]
  exact imp_congr_right fun _ => and_iff_right_of_imp IsAmong.ne_none

/-- It asks of what is no sensor that it have no thresholds. -/
theorem meets_thresholdsAreSensorOnly : r.Meets thresholdsAreSensorOnly ↔
    (r.kind ≠ "sensor" → r.alertMin = none ∧ r.alertMax = none ∧ r.alertClearMargin = none) := by
  simp [thresholdsAreSensorOnly, Row.word, Row.number, or_iff_not_imp_left, and_assoc]

theorem meets_clearMarginPositive :
    r.Meets clearMarginPositive ↔ r.band.clearMarginPositive = true := by
  cases hm : r.alertClearMargin <;>
    simp [clearMarginPositive, Row.number, Row.band, Bands.Columns.clearMarginPositive, IsPositive,
      hm]

theorem meets_alertBandOrdered : r.Meets alertBandOrdered ↔ r.band.alertBandOrdered = true := by
  cases hlo : r.alertMin <;> cases hhi : r.alertMax <;>
    simp [alertBandOrdered, Row.band, Bands.Columns.alertBandOrdered, Row.Meets, Cond.Holds,
      Test.reads, Row.valuation, Row.null, Row.number, Row.test, hlo, hhi]

theorem meets_thresholdsRequireClearMargin : r.Meets thresholdsRequireClearMargin ↔
    r.band.thresholdsRequireClearMargin = true := by
  simp [thresholdsRequireClearMargin, Row.number, Row.band,
    Bands.Columns.thresholdsRequireClearMargin, Option.isSome_iff_ne_none]

theorem meets_clearZoneIsReachable :
    r.Meets clearZoneIsReachable ↔ r.band.clearZoneIsReachable = true := by
  cases hlo : r.alertMin <;> cases hhi : r.alertMax <;> cases hm : r.alertClearMargin <;>
    simp [clearZoneIsReachable, Row.band, Bands.Columns.clearZoneIsReachable, Row.Meets, Cond.Holds,
      Test.reads, Row.valuation, Row.null, Row.number, Row.test, hlo, hhi, hm]

/-! ### What they say together -/

/-- A sound row of a sensor is one. -/
theorem Sound.sensor (h : Sound r) (hk : r.kind = "sensor") : IsSensor r := by
  obtain hs | ha := h.kind
  · exact hs
  · exact absurd (hk.symm.trans ha.kind) (by decide)

/-- A sound row of an actuator is one. -/
theorem Sound.actuator (h : Sound r) (hk : r.kind = "actuator") : IsActuator r := by
  obtain hs | ha := h.kind
  · exact absurd (hs.kind.symm.trans hk) (by decide)
  · exact ha

/-- Only an actuator has an authority, and it is of this kind. -/
theorem Sound.authority (h : Sound r) (hv : r.controlAuthority = some v) :
    IsActuator r ∧ (v = "authoritative" ∧ Authoritative r ∨
      v ∈ ["advisory", "observe_only"] ∧ Unenforceable r) := by
  obtain hs | ha := h.kind
  · rw [hs.noAuthority] at hv
    cases hv
  · refine ⟨ha, ?_⟩
    obtain hobeyed | hunobeyed := ha.authority
    · rw [hobeyed.authority, Option.some.injEq] at hv
      exact .inl ⟨hv.symm, hobeyed⟩
    · have hamong := hunobeyed.authority
      rw [hv, isAmong_some] at hamong
      exact .inr ⟨hamong, hunobeyed⟩

theorem IsActuator.transport (h : IsActuator r) : IsAmong ["local", "network"] r.transport := by
  obtain hobeyed | hunobeyed := h.authority
  · exact ⟨"local", by decide, hobeyed.transport⟩
  · exact hunobeyed.transport

theorem IsActuator.declares (h : IsActuator r) :
    IsAmong ["authoritative", "advisory", "observe_only"] r.controlAuthority ∧
      r.failsafeCapable.isSome = true := by
  obtain hobeyed | hunobeyed := h.authority
  · exact ⟨⟨"authoritative", by decide, hobeyed.authority⟩, by rw [hobeyed.failsafe]; rfl⟩
  · obtain ⟨v, hv, hauthority⟩ := hunobeyed.authority
    exact ⟨⟨v, List.mem_cons_of_mem _ hv, hauthority⟩, hunobeyed.failsafe⟩

/-- A row that meets every constraint is a sensor or an actuator as it should be. -/
theorem sound_of_meets (h : ∀ check ∈ checks, r.Meets check) : Sound r := by
  simp only [checks, List.forall_mem_cons, meets_kindValid, meets_driverTypeValid,
    meets_adoptedDevicesAreBound, meets_displayNameNotBlank, meets_actuatorClassValid,
    meets_actuatorDeclaresAuthority, meets_sensorsCarryNoControlAuthority,
    meets_authoritativeDeclaresFailureBehaviour, meets_unenforceableAuthorityDeclaresNoSafeState,
    meets_sensorDeclaresTypeCadenceAndTransport, meets_actuatorDeclaresRole,
    meets_thresholdsAreSensorOnly, meets_clearMarginPositive, meets_alertBandOrdered,
    meets_thresholdsRequireClearMargin, meets_clearZoneIsReachable] at h
  obtain ⟨hkind, hdriver, hbound, hname, hclass, hactuator, hsensor, hobeyed, hunobeyed, hcadence,
    hrole, hunwatched, hmargin, hordered, hneeded, hzone, -⟩ := h
  refine ⟨?_, hclass, hdriver, hbound, hname, ?_⟩
  · obtain hk | hk := hkind
    · obtain ⟨htype, hpoll, htransport⟩ := hcadence hk
      obtain ⟨hauthority, hfailsafe⟩ := hsensor hk
      exact .inl ⟨hk, htype, hpoll, htransport, hauthority, hfailsafe⟩
    · obtain ⟨hclassed, ⟨authority, hmem, hauthority⟩, hfailsafe, htransport⟩ := hactuator hk
      have hns : r.kind ≠ "sensor" := by
        rw [hk]
        decide
      refine .inr ⟨hk, hclassed, hrole hk, ?_, hunwatched hns⟩
      obtain rfl | hmem := List.mem_cons.mp hmem
      · exact .inl (hobeyed hauthority)
      · have hamong : IsAmong ["advisory", "observe_only"] r.controlAuthority :=
          ⟨authority, hmem, hauthority⟩
        exact .inr ⟨hamong, hfailsafe, htransport, hunobeyed hamong⟩
  · rw [Bands.Columns.accepts, hmargin, hordered, hneeded, hzone]
    rfl

/-- A sensor or an actuator that is as it should be meets every constraint. -/
theorem meets_of_sound (h : Sound r) : ∀ check ∈ checks, r.Meets check := by
  have hband := h.band
  simp only [Bands.Columns.accepts, Bool.and_eq_true] at hband
  obtain ⟨⟨⟨hmargin, hordered⟩, hneeded⟩, hzone⟩ := hband
  simp only [checks, List.forall_mem_cons, meets_kindValid, meets_driverTypeValid,
    meets_adoptedDevicesAreBound, meets_displayNameNotBlank, meets_actuatorClassValid,
    meets_actuatorDeclaresAuthority, meets_sensorsCarryNoControlAuthority,
    meets_authoritativeDeclaresFailureBehaviour, meets_unenforceableAuthorityDeclaresNoSafeState,
    meets_sensorDeclaresTypeCadenceAndTransport, meets_actuatorDeclaresRole,
    meets_thresholdsAreSensorOnly, meets_clearMarginPositive, meets_alertBandOrdered,
    meets_thresholdsRequireClearMargin, meets_clearZoneIsReachable]
  refine ⟨h.kind.imp IsSensor.kind IsActuator.kind, h.driverType, h.bound, h.named, h.actuatorClass,
    fun hk => ?_, fun hk => ?_, fun hauthority => ?_, ?_, fun hk => ?_,
    fun hk => (h.actuator hk).role, fun hk => ?_, hmargin, hordered, hneeded, hzone,
    fun _ hc => absurd hc List.not_mem_nil⟩
  · have ha := h.actuator hk
    exact ⟨ha.actuatorClass, ha.declares.1, ha.declares.2, ha.transport⟩
  · have hs := h.sensor hk
    exact ⟨hs.noAuthority, hs.noFailsafe⟩
  · obtain ⟨-, ⟨-, hobeyed⟩ | ⟨hmem, -⟩⟩ := h.authority hauthority
    · exact hobeyed
    · exact absurd hmem (by decide)
  · rintro ⟨v, hmem, hauthority⟩
    obtain ⟨-, ⟨rfl, -⟩ | ⟨-, hunobeyed⟩⟩ := h.authority hauthority
    · exact absurd hmem (by decide)
    · exact hunobeyed.noSafeState
  · have hs := h.sensor hk
    exact ⟨hs.sensorType, hs.cadence, hs.transport⟩
  · obtain hs | ha := h.kind
    · exact absurd hs.kind hk
    · exact ha.unwatched

/-! ### Three values -/

/-- The columns that are never null. -/
def known : List Column := [.word .kind, .adopted]

/-- Some columns are never null. -/
theorem null_known : ∀ c ∈ known, r.valuation.null c = false := by
  intro c hc
  obtain rfl | hc := List.mem_cons.mp hc
  · rfl
  · obtain rfl := List.mem_singleton.mp hc
    rfl

/-- One comparison is not guarded: that of the transport, where an authority is declared. -/
theorem decided_of_ne (h : check ∈ checks) :
    check = authoritativeDeclaresFailureBehaviour ∨ check.decided Test.reads known = true := by
  simp only [checks, List.mem_cons, List.not_mem_nil, or_false] at h
  rcases h with rfl | rfl | rfl | rfl | rfl | rfl | rfl | rfl | rfl | rfl | rfl | rfl | rfl | rfl |
    rfl | rfl
  all_goals first | exact .inr rfl | exact .inl rfl

/-- Where the transport is there, the constraint is never unknown. -/
theorem decided_authoritativeDeclaresFailureBehaviour :
    authoritativeDeclaresFailureBehaviour.decided Test.reads (.word .transport :: known) = true :=
  rfl

/-- A row that passes every check is one that meets them: the other checks see to the transport. -/
theorem meets_of_accepts (h : r.accepts = true) : ∀ check ∈ checks, r.Meets check := by
  have hpass := List.all_eq_true.mp h
  have hmeets : ∀ check ∈ checks, check.decided Test.reads known = true → r.Meets check :=
    fun check hmem hd => (Cond.passes_iff_holds null_known hd).mp (hpass check hmem)
  intro check hmem
  obtain rfl | hd := decided_of_ne hmem
  · obtain hk | hk := meets_kindValid.mp (hmeets kindValid (by simp [checks]) rfl)
    · have hsensor := hmeets sensorsCarryNoControlAuthority (by simp [checks]) rfl
      rw [meets_authoritativeDeclaresFailureBehaviour,
        (meets_sensorsCarryNoControlAuthority.mp hsensor hk).1]
      rintro ⟨⟩
    · have hactuator := hmeets actuatorDeclaresAuthority (by simp [checks]) rfl
      obtain ⟨-, -, -, htransport⟩ := meets_actuatorDeclaresAuthority.mp hactuator hk
      refine (Cond.passes_iff_holds (List.forall_mem_cons.mpr ⟨?_, null_known⟩)
        decided_authoritativeDeclaresFailureBehaviour).mp (hpass _ hmem)
      exact Option.isNone_eq_false_iff.mpr (Option.isSome_iff_ne_none.mpr htransport.ne_none)
  · exact hmeets check hmem hd

/-- A row that meets every constraint is accepted. -/
theorem accepts_of_meets (h : ∀ check ∈ checks, r.Meets check) : r.accepts = true :=
  List.all_eq_true.mpr fun check hmem => Cond.passes_of_holds (h check hmem)

/-- **What the table accepts.** -/
theorem accepts_iff_sound : r.accepts = true ↔ Sound r := by
  constructor
  · intro h
    exact sound_of_meets (meets_of_accepts h)
  · intro h
    exact accepts_of_meets (meets_of_sound h)

/-- **Nothing gets through for being unknown.**  The constraints let through just the rows that
their plain reading does, and these are the rows that are as they are meant to be. -/
theorem accepts_exactly :
    (r.accepts = true ↔ ∀ check ∈ checks, r.Meets check) ∧ (r.accepts = true ↔ Sound r) :=
  ⟨⟨meets_of_accepts, accepts_of_meets⟩, accepts_iff_sound⟩

end Plain

end BellasReef.Api.DeviceChecks
