import BellasReef.HardwareIO.Drivers
import BellasReef.HardwareIO.Startup
import BellasReef.Support.IntText
import BellasReef.Support.Lists
import BellasReef.Support.Regex

/-!
# HardwareIO — Factory

The drivers that the registry asks for (`build_from_assignments` in `factory.py`), and their way to
the supervisor (`_build_from_registry` in `app.py`).  What the hub meets on the way is `Bench`.  The
first loop passes over a device whose error is a `KeyError`, a `ValueError` or a `TopologyError`, the
second one over a light that does not open; every other error ends the start.

* `buildAll_spec`: the loop builds each device exactly if it is accepted, whatever the others are.
* `isolated_iff`: each device is registered as its own assignment, bus, chip and `open()` have it,
  unless one of them meets an error that neither loop passes over.
* `isolated_fails`: a light whose bus does not open takes a temperature probe down.
-/

namespace BellasReef.HardwareIO
open BellasReef.Contracts BellasReef.Support

variable {ι κ R : Type}

/-! ### Bindings -/

/-- `DeviceAssignment.binding`. -/
abbrev Binding := List (Text × Text)

/-- What the hub raises where its hardware is asked for. -/
inductive HostFault where
  | osError
  | importError
  deriving DecidableEq, Repr

/-- What the body of the factory's `try` raises. -/
inductive BuildFault where
  | keyError (key : String)
  /-- `int` of a text that is no integer, or pydantic's `ValidationError` of an id. -/
  | valueError
  /-- `TopologyError`: "no RP1 PWM0 chip resolved by identity; refusing to build on a guessed pwmchip
  index (spec dd6a68b)". -/
  | noChip
  /-- `TopologyError`: "unknown driver type". -/
  | unknownDriver (driverType : Option Text)
  | host (e : HostFault)
  deriving DecidableEq, Repr

/-- `except (KeyError, ValueError, TopologyError)`. -/
def BuildFault.caught : BuildFault → Bool
  | .host _ => false
  | _ => true

namespace Binding

/-- `binding.get(key)`. -/
def get (b : Binding) (key : String) : Option Text := b.lookup key.toList

/-- `binding[key]`. -/
def item (b : Binding) (key : String) : Except BuildFault Text :=
  match b.get key with
  | some text => .ok text
  | none => .error (.keyError key)

/-- `int(text)`. -/
def parse (text : Text) : Except BuildFault ℤ :=
  match IntText.int text with
  | some n => .ok n
  | none => .error .valueError

/-- `int(binding["channel"])`. -/
def channel (b : Binding) : Except BuildFault ℤ := b.item "channel" >>= parse

/-- `int(binding.get(key, default))`. -/
def number (b : Binding) (key : String) (default : ℤ) : Except BuildFault ℤ :=
  match b.get key with
  | some text => parse text
  | none => .ok default

/-- `key`: the bus and the address of the chip. -/
def chipKey (b : Binding) : Except BuildFault (ℤ × ℤ) := do
  let busNo ← b.number "bus" 1
  let address ← b.number "address" 0x40
  .ok (busNo, address)

/-- `[0-9a-f]`. -/
def isHex (c : Char) : Bool := c.isDigit || ('a' ≤ c && c ≤ 'f')

/-- So many times. -/
def times (n : ℕ) (r rest : Regex Char) : Regex Char := n.repeat (.seq r) rest

/-- `^[0-9a-f]{2}-[0-9a-f]{12}$`. -/
def romPattern : Regex Char :=
  .seq .start (times 2 (.one isHex) (.seq (.one (· == '-')) (times 12 (.one isHex) .stop)))

/-- `OneWireDevice(device_id=binding["rom"])`. -/
def rom (b : Binding) : Except BuildFault Text := do
  let deviceId ← b.item "rom"
  if romPattern.search List.isEmpty deviceId then .ok deviceId else .error .valueError

end Binding

/-! ### Drivers -/

/-- The driver types that the factory knows. -/
inductive DriverType where
  | ds18b20
  | piPwm
  | pca9685
  deriving DecidableEq, Repr

/-- The driver type that a word is. -/
def driverTypeOf (t : Option Text) : Option DriverType :=
  if t = some "ds18b20".toList then some .ds18b20
  else if t = some "pi-pwm".toList then some .piPwm
  else if t = some "pca9685".toList then some .pca9685
  else none

/-- A `DS18B20`. -/
structure Probe (ι : Type) where
  device : Text
  driverId : ι
  deriving DecidableEq

/-- A `Pca9685Device`, as an object: which one it is, and what it was built with. -/
structure ChipRef where
  serial : ℕ
  busNo : ℤ
  address : ℤ
  deriving DecidableEq, Repr

/-- A `PiPwmChannel` on a chip root `κ`, or a `Pca9685Channel`. -/
inductive PwmChannel (κ : Type) where
  | piPwm (channel : ℤ) (chipRoot : κ)
  | pca9685 (device : ChipRef) (channel : ℤ)
  deriving DecidableEq

/-- `BuiltActuator`. -/
structure BuiltActuator (ι κ : Type) where
  actuatorId : ι
  driver : PwmChannel κ
  registration : Actuator ActuatorLevel

/-- What an assignment comes to. -/
inductive Device (ι κ : Type) where
  | sensor (s : Probe ι)
  | light (b : BuiltActuator ι κ)

/-- What the hub meets.  Each of these is asked for once at most. -/
structure Bench (ι κ : Type) where
  /-- `find_pwm_chip`, which may find nothing. -/
  findPwmChip : Except HostFault (Option κ)
  /-- `open_i2c`, for the chip at an address of a bus. -/
  openI2c : ℤ × ℤ → Except HostFault Unit
  /-- The driver's `open()` raises nothing. -/
  opens : ι → Bool
  /-- `chip_identity_and_facts` for an RP1 channel, with the count of the mux: the instance. -/
  identity : ι → Except HostFault Text

/-! ### The factory -/

/-- The local variables of `build_from_assignments`. -/
structure Factory (ι κ : Type) where
  actuators : List (BuiltActuator ι κ)
  sensors : List (Probe ι)
  /-- `chips`. -/
  chips : List ((ℤ × ℤ) × ChipRef)
  /-- `pwm_chip_root`, once `pwm_chip_resolved`. -/
  pwmChip : Option (Option κ)

namespace Factory

/-- Before the loop. -/
def start : Factory ι κ := ⟨[], [], [], none⟩

/-- The RP1 chip, resolved once. -/
def resolve (e : Bench ι κ) (f : Factory ι κ) : Factory ι κ × Except BuildFault κ :=
  match f.pwmChip with
  | some root => (f, root.elim (.error .noChip) .ok)
  | none =>
      match e.findPwmChip with
      | .error fault => (f, .error (.host fault))
      | .ok root => ({ f with pwmChip := some root }, root.elim (.error .noChip) .ok)

/-- `chips[key]`, with the device that is not in it yet. -/
def chip (e : Bench ι κ) (f : Factory ι κ) (key : ℤ × ℤ) : Factory ι κ × Except BuildFault ChipRef :=
  match f.chips.lookup key with
  | some device => (f, .ok device)
  | none =>
      match e.openI2c key with
      | .error fault => (f, .error (.host fault))
      | .ok () =>
          let device : ChipRef := ⟨f.chips.length, key.1, key.2⟩
          ({ f with chips := (key, device) :: f.chips }, .ok device)

/-- The body of the `try`. -/
def build (e : Bench ι κ) (f : Factory ι κ) (a : DeviceAssignment ι R Text Binding) :
    Factory ι κ × Except BuildFault (Device ι κ) :=
  let binding := a.binding.getD []
  match driverTypeOf a.driverType with
  | some .ds18b20 => (f, binding.rom.map fun rom => .sensor ⟨rom, a.deviceId⟩)
  | some .piPwm =>
      let (f, root) := f.resolve e
      (f, do
        let root ← root
        let channel ← binding.channel
        .ok (.light ⟨a.deviceId, .piPwm channel root, lightRegistration .rp1Pwm⟩))
  | some .pca9685 =>
      match binding.chipKey with
      | .error fault => (f, .error fault)
      | .ok key =>
          let (f, device) := f.chip e key
          (f, do
            let device ← device
            let channel ← binding.channel
            .ok (.light ⟨a.deviceId, .pca9685 device channel, lightRegistration .pca9685⟩))
  | none => (f, .error (.unknownDriver a.driverType))

/-- `append`. -/
def add (f : Factory ι κ) : Device ι κ → Factory ι κ
  | .sensor s => { f with sensors := f.sensors ++ [s] }
  | .light b => { f with actuators := f.actuators ++ [b] }

/-- The loop. -/
def buildAll (e : Bench ι κ) (f : Factory ι κ) :
    List (DeviceAssignment ι R Text Binding) → Factory ι κ × Except BuildFault Unit
  | [] => (f, .ok ())
  | a :: rest =>
      if a.adopted then
        match f.build e a with
        | (f, .ok device) => buildAll e (f.add device) rest
        | (f, .error fault) => if fault.caught then buildAll e f rest else (f, .error fault)
      else buildAll e f rest

end Factory

/-! ### The supervisor -/

/-- `instance`, of the chip's `ChipState`: `hex(address)`, and the bus. -/
def chipInstance (key : ℤ × ℤ) : Text :=
  (if key.2 < 0 then ['-'] else []) ++ '0' :: 'x' :: Nat.toDigits 16 key.2.natAbs ++ '@' ::
    ((if key.1 < 0 then ['-'] else []) ++ Nat.toDigits 10 key.1.natAbs)

/-- `Field(min_length=1, max_length=64)`. -/
def validInstance (text : Text) : Bool := 1 ≤ text.length && text.length ≤ 64

/-- `_publish_actuator_chip_state` raises nothing: the state of the chip is assembled before the
publish, of which every error is caught. -/
def BuiltActuator.stated (e : Bench ι κ) (b : BuiltActuator ι κ) : Bool :=
  match b.driver with
  | .pca9685 device _ => validInstance (chipInstance (device.busNo, device.address))
  | .piPwm _ _ =>
      match e.identity b.actuatorId with
      | .ok text => validInstance text
      | .error _ => false

/-- What ends the start. -/
inductive StartFault where
  | build (fault : BuildFault)
  /-- Out of `_publish_actuator_chip_state`. -/
  | chipState
  /-- `ValueError`: "actuator already registered". -/
  | registered
  deriving DecidableEq, Repr

/-- `HardwareIO.sensors`, the ids of the supervisor's guards, and the lights that are registered. -/
structure Rig (ι κ : Type) where
  sensors : List (Probe ι)
  guards : List ι
  lights : List (BuiltActuator ι κ)

/-- `for built in actuators`. -/
def Rig.bringUp [DecidableEq ι] (e : Bench ι κ) (h : Rig ι κ) :
    List (BuiltActuator ι κ) → Rig ι κ × Except StartFault Unit
  | [] => (h, .ok ())
  | b :: rest =>
      if e.opens b.actuatorId then
        if b.stated e then
          if b.actuatorId ∈ h.guards then (h, .error .registered)
          else Rig.bringUp e ⟨h.sensors, h.guards ++ [b.actuatorId], h.lights ++ [b]⟩ rest
        else (h, .error .chipState)
      else Rig.bringUp e h rest

/-- `_build_from_registry`. -/
def Rig.buildFromRegistry [DecidableEq ι] (e : Bench ι κ) (h : Rig ι κ)
    (assignments : List (DeviceAssignment ι R Text Binding)) : Rig ι κ × Except StartFault Unit :=
  match Factory.start.buildAll e (lastPerDevice assignments) with
  | (_, .error fault) => (h, .error (.build fault))
  | (f, .ok ()) => Rig.bringUp e { h with sensors := h.sensors ++ f.sensors } f.actuators

/-! ### What each device comes to -/

/-- What the factory builds. -/
inductive DeviceKind where
  | sensor
  | light
  deriving DecidableEq, Repr

/-- What is to be built for an assignment, by itself: it is adopted, its driver type is known, its
binding is accepted, and its bus or chip works. -/
def Bench.accepted (e : Bench ι κ) (a : DeviceAssignment ι R Text Binding) : Option DeviceKind :=
  let binding := a.binding.getD []
  if a.adopted then
    match driverTypeOf a.driverType with
    | some .ds18b20 => if binding.rom.isOk then some .sensor else none
    | some .piPwm =>
        match e.findPwmChip with
        | .ok (some _) => if binding.channel.isOk then some .light else none
        | _ => none
    | some .pca9685 =>
        match binding.chipKey with
        | .ok key =>
            if (e.openI2c key).isOk && binding.channel.isOk then some .light else none
        | .error _ => none
    | none => none
  else none

/-- Its bus or chip raises what the factory does not pass over. -/
def Bench.escapes (e : Bench ι κ) (a : DeviceAssignment ι R Text Binding) : Bool :=
  a.adopted && match driverTypeOf a.driverType with
    | some .piPwm => !e.findPwmChip.isOk
    | some .pca9685 =>
        match (a.binding.getD []).chipKey with
        | .ok key => !(e.openI2c key).isOk
        | .error _ => false
    | _ => false

/-- The state of its chip can be assembled. -/
def Bench.stated (e : Bench ι κ) (a : DeviceAssignment ι R Text Binding) : Bool :=
  match driverTypeOf a.driverType with
  | some .piPwm =>
      match e.identity a.deviceId with
      | .ok text => validInstance text
      | .error _ => false
  | some .pca9685 =>
      match (a.binding.getD []).chipKey with
      | .ok key => validInstance (chipInstance key)
      | .error _ => false
  | _ => true

/-- The driver is the one that the assignment describes. -/
def BuiltActuator.IsFor (e : Bench ι κ) (b : BuiltActuator ι κ)
    (a : DeviceAssignment ι R Text Binding) : Prop :=
  b.actuatorId = a.deviceId ∧
    match b.driver with
    | .piPwm channel root =>
        driverTypeOf a.driverType = some .piPwm ∧ e.findPwmChip = .ok (some root) ∧
          (a.binding.getD []).channel = .ok channel
    | .pca9685 device channel =>
        driverTypeOf a.driverType = some .pca9685 ∧
          (a.binding.getD []).chipKey = .ok (device.busNo, device.address) ∧
          (a.binding.getD []).channel = .ok channel

/-- The probe is the one that the assignment describes. -/
def Probe.IsFor (s : Probe ι) (a : DeviceAssignment ι R Text Binding) : Prop :=
  s.driverId = a.deviceId ∧ driverTypeOf a.driverType = some .ds18b20 ∧
    (a.binding.getD []).rom = .ok s.device

/-! ### One device -/

namespace Binding

variable {b : Binding} {fault : BuildFault}

/-- A key that is missing is caught. -/
theorem caught_of_item {key : String} (h : b.item key = .error fault) : fault.caught = true := by
  rw [item] at h
  split at h
  · cases h
  · cases h; rfl

/-- A text that is no number is caught. -/
theorem caught_of_parse {text : Text} (h : parse text = .error fault) : fault.caught = true := by
  rw [parse] at h
  split at h
  · cases h
  · cases h; rfl

/-- **A binding raises nothing that the factory does not pass over.** -/
theorem caught_of_channel (h : b.channel = .error fault) : fault.caught = true := by
  rw [channel] at h
  cases hi : b.item "channel" with
  | error e =>
      rw [hi] at h
      cases h
      exact caught_of_item hi
  | ok text =>
      rw [hi] at h
      exact caught_of_parse h

theorem caught_of_number {key : String} {default : ℤ} (h : b.number key default = .error fault) :
    fault.caught = true := by
  rw [number] at h
  split at h
  · exact caught_of_parse h
  · cases h

/-- What is wrong with the chip's key is caught. -/
theorem caught_of_chipKey (h : b.chipKey = .error fault) : fault.caught = true := by
  rw [chipKey] at h
  cases hb : b.number "bus" 1 with
  | error e =>
      rw [hb] at h
      cases h
      exact caught_of_number hb
  | ok busNo =>
      rw [hb] at h
      cases hk : b.number "address" 0x40 with
      | error e =>
          rw [hk] at h
          cases h
          exact caught_of_number hk
      | ok address =>
          rw [hk] at h
          cases h

/-- What is wrong with a ROM is caught. -/
theorem caught_of_rom (h : b.rom = .error fault) : fault.caught = true := by
  rw [rom] at h
  cases hi : b.item "rom" with
  | error e =>
      rw [hi] at h
      cases h
      exact caught_of_item hi
  | ok text =>
      rw [hi] at h
      change (if romPattern.search List.isEmpty text then _ else _) = _ at h
      split at h
      · cases h
      · cases h; rfl

end Binding

namespace Factory

variable {e : Bench ι κ} {f f' : Factory ι κ} {a : DeviceAssignment ι R Text Binding}
  {key : ℤ × ℤ}

/-- The chip table and the resolved chip are what the hub has to offer. -/
structure Sane (e : Bench ι κ) (f : Factory ι κ) : Prop where
  keys : ∀ x ∈ f.chips, x.1 = (x.2.busNo, x.2.address)
  nodup : (f.chips.map (·.1)).Nodup
  opened : ∀ x ∈ f.chips, e.openI2c x.1 = .ok ()
  resolved : ∀ root, f.pwmChip = some root → e.findPwmChip = .ok root
  used : ∀ b ∈ f.actuators, ∀ device channel, b.driver = .pca9685 device channel →
    ((device.busNo, device.address), device) ∈ f.chips

/-- A bench on which nothing is built. -/
theorem sane_start (e : Bench ι κ) : Sane e start where
  keys := List.forall_mem_nil _
  nodup := List.nodup_nil
  opened := List.forall_mem_nil _
  resolved := by rintro root ⟨⟩
  used := List.forall_mem_nil _

/-- Nothing but the tables has changed. -/
structure Grown (e : Bench ι κ) (f f' : Factory ι κ) : Prop where
  sane : Sane e f'
  actuators : f'.actuators = f.actuators
  sensors : f'.sensors = f.sensors

/-- **The chip is resolved as the hub has it**, for the first device and for all the others. -/
theorem resolve_spec (h : Sane e f) : Grown e f (f.resolve e).1 ∧
    (f.resolve e).2 = match e.findPwmChip with
      | .ok (some root) => .ok root
      | .ok none => .error .noChip
      | .error fault => .error (.host fault) := by
  rw [resolve]
  cases hp : f.pwmChip with
  | some root =>
      rw [h.resolved root hp]
      refine ⟨⟨h, rfl, rfl⟩, ?_⟩
      cases root <;> rfl
  | none =>
      cases hr : e.findPwmChip with
      | error fault => exact ⟨⟨h, rfl, rfl⟩, rfl⟩
      | ok root =>
          refine ⟨⟨⟨h.keys, h.nodup, h.opened, fun r hr' => ?_, h.used⟩, rfl, rfl⟩, ?_⟩
          · obtain rfl := Option.some.inj hr'
            exact hr
          · cases root <;> rfl

/-- **A chip is opened once**, and is the device that the table has from then on. -/
theorem chip_spec (h : Sane e f) (key : ℤ × ℤ) : Grown e f (f.chip e key).1 ∧
    match (f.chip e key).2 with
    | .ok device => (key, device) ∈ (f.chip e key).1.chips ∧ e.openI2c key = .ok ()
    | .error fault => ∃ host, fault = .host host ∧ e.openI2c key = .error host := by
  rw [chip]
  cases hk : f.chips.lookup key with
  | some device =>
      have hmem : (key, device) ∈ f.chips := by
        obtain ⟨before, after, he, -⟩ := List.lookup_eq_some_iff.mp hk
        simp [he]
      exact ⟨⟨h, rfl, rfl⟩, hmem, h.opened _ hmem⟩
  | none =>
      cases ho : e.openI2c key with
      | error fault => exact ⟨⟨h, rfl, rfl⟩, fault, rfl, rfl⟩
      | ok =>
          have hnew : key ∉ f.chips.map (·.1) := by
            intro hmem
            obtain ⟨x, hx, rfl⟩ := List.mem_map.mp hmem
            simpa using List.lookup_eq_none_iff.mp hk x hx
          refine ⟨⟨⟨?_, ?_, ?_, h.resolved, fun b hb device channel hd => ?_⟩, rfl, rfl⟩,
            List.mem_cons_self, rfl⟩
          · exact List.forall_mem_cons.mpr ⟨rfl, h.keys⟩
          · exact List.nodup_cons.mpr ⟨hnew, h.nodup⟩
          · exact List.forall_mem_cons.mpr ⟨ho, h.opened⟩
          · exact List.mem_cons_of_mem _ (h.used b hb device channel hd)

/-- What the body of the `try` is to leave, and to come to. -/
def Fits (e : Bench ι κ) (f : Factory ι κ) (a : DeviceAssignment ι R Text Binding) :
    Except BuildFault (Device ι κ) → Prop
  | .ok (.sensor s) => e.accepted a = some .sensor ∧ e.escapes a = false ∧ s.IsFor a
  | .ok (.light b) => e.accepted a = some .light ∧ e.escapes a = false ∧ b.IsFor e a ∧
      ∀ device channel, b.driver = .pca9685 device channel →
        ((device.busNo, device.address), device) ∈ f.chips
  | .error fault => e.accepted a = none ∧ e.escapes a = !fault.caught

/-- An RP1 channel, on the chip that was resolved. -/
theorem fits_piPwm (ha : a.adopted = true) (ht : driverTypeOf a.driverType = some .piPwm)
    {r : Except BuildFault κ}
    (hr : r = match e.findPwmChip with
      | .ok (some root) => .ok root
      | .ok none => .error .noChip
      | .error fault => .error (.host fault)) :
    Fits e f a (do
      let root ← r
      let channel ← (a.binding.getD []).channel
      .ok (.light ⟨a.deviceId, .piPwm channel root, lightRegistration .rp1Pwm⟩)) := by
  subst hr
  cases hf : e.findPwmChip with
  | error fault =>
      exact ⟨by simp [Bench.accepted, ht, hf],
        by simp [Bench.escapes, ha, ht, hf, Except.isOk, Except.toBool, BuildFault.caught]⟩
  | ok root =>
      have hescapes : e.escapes a = false := by
        simp [Bench.escapes, ht, hf, Except.isOk, Except.toBool]
      cases root with
      | none => exact ⟨by simp [Bench.accepted, ht, hf], hescapes⟩
      | some root =>
          cases hc : (a.binding.getD []).channel with
          | error fault =>
              refine ⟨by simp [Bench.accepted, ht, hf, hc, Except.isOk, Except.toBool], ?_⟩
              rw [hescapes, Binding.caught_of_channel hc]
              rfl
          | ok channel =>
              exact ⟨by simp [Bench.accepted, ha, ht, hf, hc, Except.isOk, Except.toBool], hescapes,
                ⟨rfl, ht, hf, hc⟩, nofun⟩

/-- A channel of the chip that the table has for its bus and address. -/
theorem fits_pca9685 (ha : a.adopted = true) (ht : driverTypeOf a.driverType = some .pca9685)
    (hk : (a.binding.getD []).chipKey = .ok key) {r : Except BuildFault ChipRef}
    (hkeys : ∀ x ∈ f.chips, x.1 = (x.2.busNo, x.2.address))
    (hr : match r with
      | .ok device => (key, device) ∈ f.chips ∧ e.openI2c key = .ok ()
      | .error fault => ∃ host, fault = .host host ∧ e.openI2c key = .error host) :
    Fits e f a (do
      let device ← r
      let channel ← (a.binding.getD []).channel
      .ok (.light ⟨a.deviceId, .pca9685 device channel, lightRegistration .pca9685⟩)) := by
  cases r with
  | error fault =>
      obtain ⟨host, rfl, ho⟩ := hr
      exact ⟨by simp [Bench.accepted, ht, hk, ho, Except.isOk, Except.toBool],
        by simp [Bench.escapes, ha, ht, hk, ho, Except.isOk, Except.toBool, BuildFault.caught]⟩
  | ok device =>
      obtain ⟨hmem, ho⟩ := hr
      have hescapes : e.escapes a = false := by
        simp [Bench.escapes, ht, hk, ho, Except.isOk, Except.toBool]
      have hkey : key = (device.busNo, device.address) := hkeys _ hmem
      cases hc : (a.binding.getD []).channel with
      | error fault =>
          refine ⟨by simp [Bench.accepted, ht, hk, ho, hc, Except.isOk, Except.toBool], ?_⟩
          rw [hescapes, Binding.caught_of_channel hc]
          rfl
      | ok channel =>
          refine ⟨by simp [Bench.accepted, ha, ht, hk, ho, hc, Except.isOk, Except.toBool], hescapes,
            ⟨rfl, ht, hkey ▸ hk, hc⟩, fun d c hd => ?_⟩
          cases hd
          exact hkey ▸ hmem

/-- **The body of the `try`** comes to what the assignment is to come to by itself. -/
theorem build_spec (h : Sane e f) (ha : a.adopted = true) :
    Grown e f (f.build e a).1 ∧ Fits e (f.build e a).1 a (f.build e a).2 := by
  rw [build]
  cases ht : driverTypeOf a.driverType with
  | none =>
      exact ⟨⟨h, rfl, rfl⟩, by simp [Bench.accepted, ht], by simp [Bench.escapes, ht,
        BuildFault.caught]⟩
  | some t =>
      cases t with
      | ds18b20 =>
          refine ⟨⟨h, rfl, rfl⟩, ?_⟩
          cases hr : (a.binding.getD []).rom with
          | error fault =>
              exact ⟨by simp [Bench.accepted, ht, hr, Except.isOk, Except.toBool],
                by simp [Bench.escapes, ht, Binding.caught_of_rom hr]⟩
          | ok rom =>
              exact ⟨by simp [Bench.accepted, ha, ht, hr, Except.isOk, Except.toBool],
                by simp [Bench.escapes, ht], rfl, ht, hr⟩
      | piPwm =>
          obtain ⟨hgrown, hroot⟩ := resolve_spec h
          exact ⟨hgrown, fits_piPwm ha ht hroot⟩
      | pca9685 =>
          cases hk : (a.binding.getD []).chipKey with
          | error fault =>
              exact ⟨⟨h, rfl, rfl⟩, by simp [Bench.accepted, ht, hk],
                by simp [Bench.escapes, ht, hk, Binding.caught_of_chipKey hk]⟩
          | ok key =>
              obtain ⟨hgrown, hdevice⟩ := chip_spec h key
              exact ⟨hgrown, fits_pca9685 ha ht hk hgrown.sane.keys hdevice⟩

/-! ### The loop -/

variable {l : List (DeviceAssignment ι R Text Binding)}

/-- What has been built keeps its chips in the table. -/
theorem Sane.add {device : Device ι κ} (h : Sane e f)
    (hd : ∀ b, device = .light b → ∀ chip channel, b.driver = .pca9685 chip channel →
      ((chip.busNo, chip.address), chip) ∈ f.chips) : Sane e (f.add device) := by
  cases device with
  | sensor s => exact ⟨h.keys, h.nodup, h.opened, h.resolved, h.used⟩
  | light b =>
      refine ⟨h.keys, h.nodup, h.opened, h.resolved, fun b' hb' chip channel hc => ?_⟩
      obtain hb' | hb' := List.mem_append.mp hb'
      · exact h.used b' hb' chip channel hc
      · obtain rfl := List.mem_singleton.mp hb'
        exact hd b' rfl chip channel hc

/-- What the loop has come to, of the assignments behind it. -/
structure Built (e : Bench ι κ) (f f' : Factory ι κ)
    (l : List (DeviceAssignment ι R Text Binding)) : Prop where
  sane : Sane e f'
  actuators : ∃ lights, f'.actuators = f.actuators ++ lights ∧
    List.Forall₂ (·.IsFor e ·) lights (l.filter (e.accepted · = some .light))
  sensors : ∃ probes, f'.sensors = f.sensors ++ probes ∧
    List.Forall₂ Probe.IsFor probes (l.filter (e.accepted · = some .sensor))

/-- An assignment that nothing is built for. -/
theorem Built.skip (h : Built e f f' l) (ha : e.accepted a = none) : Built e f f' (a :: l) := by
  refine ⟨h.sane, ?_, ?_⟩
  · rw [List.filter_cons_of_neg (by simp [ha])]
    exact h.actuators
  · rw [List.filter_cons_of_neg (by simp [ha])]
    exact h.sensors

/-- What has changed in the tables only is built on as before. -/
theorem Built.of_grown {f₁ : Factory ι κ} (hg : Grown e f f₁) (h : Built e f₁ f' l) :
    Built e f f' l :=
  ⟨h.sane, hg.actuators ▸ h.actuators, hg.sensors ▸ h.sensors⟩

/-- An assignment that a device is built for. -/
theorem Built.cons {f₁ : Factory ι κ} {device : Device ι κ} (hg : Grown e f f₁)
    (hd : Fits e f₁ a (.ok device)) (h : Built e (f₁.add device) f' l) : Built e f f' (a :: l) := by
  obtain ⟨lights, hlights, hfor⟩ := h.actuators
  obtain ⟨probes, hprobes, hsfor⟩ := h.sensors
  cases device with
  | sensor s =>
      obtain ⟨hkind, -, hs⟩ := hd
      refine ⟨h.sane, ⟨lights, ?_, ?_⟩, ⟨s :: probes, ?_, ?_⟩⟩
      · rw [hlights, add, hg.actuators]
      · rw [List.filter_cons_of_neg (by simp [hkind])]
        exact hfor
      · simp [hprobes, add, hg.sensors]
      · rw [List.filter_cons_of_pos (by simp [hkind])]
        exact .cons hs hsfor
  | light b =>
      obtain ⟨hkind, -, hb, -⟩ := hd
      refine ⟨h.sane, ⟨b :: lights, ?_, ?_⟩, ⟨probes, ?_, ?_⟩⟩
      · simp [hlights, add, hg.actuators]
      · rw [List.filter_cons_of_pos (by simp [hkind])]
        exact .cons hb hfor
      · rw [hprobes, add, hg.sensors]
      · rw [List.filter_cons_of_neg (by simp [hkind])]
        exact hsfor

/-- **The loop** builds what is to be built, unless a bus or the chip raises what it does not pass
over. -/
theorem buildAll_spec (h : Sane e f) :
    (l.any e.escapes = true ∧ ∃ fault, (f.buildAll e l).2 = .error fault) ∨
      l.any e.escapes = false ∧ (f.buildAll e l).2 = .ok () ∧ Built e f (f.buildAll e l).1 l := by
  induction l generalizing f with
  | nil =>
      exact .inr ⟨rfl, rfl, h, ⟨[], by simp [buildAll], .nil⟩, ⟨[], by simp [buildAll], .nil⟩⟩
  | cons a l ih =>
      rw [buildAll, List.any_cons]
      cases ha : a.adopted with
      | false =>
          have hnone : e.accepted a = none := by simp [Bench.accepted, ha]
          have hesc : e.escapes a = false := by simp [Bench.escapes, ha]
          rw [if_neg Bool.false_ne_true, hesc, Bool.false_or]
          obtain hbad | ⟨hany, hok, hbuilt⟩ := ih h
          · exact .inl hbad
          · exact .inr ⟨hany, hok, hbuilt.skip hnone⟩
      | true =>
          obtain ⟨hgrown, hfits⟩ := build_spec h ha
          rw [if_pos rfl]
          generalize f.build e a = r at hgrown hfits
          obtain ⟨f₁, r⟩ := r
          cases r with
          | ok device =>
              have hesc : e.escapes a = false := by
                cases device with
                | sensor s => exact hfits.2.1
                | light b => exact hfits.2.1
              have hadd : Sane e (f₁.add device) := by
                refine hgrown.sane.add fun b hb => ?_
                subst hb
                exact hfits.2.2.2
              rw [hesc, Bool.false_or]
              obtain hbad | ⟨hany, hok, hbuilt⟩ := ih hadd
              · exact .inl hbad
              · exact .inr ⟨hany, hok, hbuilt.cons hgrown hfits⟩
          | error fault =>
              obtain ⟨hnone, hesc⟩ := hfits
              cases hc : fault.caught with
              | false => exact .inl ⟨by simp [hesc, hc], fault, by simp [hc]⟩
              | true =>
                  simp only [hesc, hc, Bool.not_true, Bool.false_or, if_true]
                  obtain hbad | ⟨hany, hok, hbuilt⟩ := ih hgrown.sane
                  · exact .inl hbad
                  · exact .inr ⟨hany, hok, (hbuilt.of_grown hgrown).skip hnone⟩

end Factory

/-! ### The supervisor's loop -/

/-- A light that opens and then is not let through. -/
def BuiltActuator.Hindered (e : Bench ι κ) (guards : List ι) (b : BuiltActuator ι κ) : Prop :=
  e.opens b.actuatorId = true ∧ (b.stated e = false ∨ b.actuatorId ∈ guards)

variable [DecidableEq ι] {e : Bench ι κ} {h : Rig ι κ}

/-- **The second loop** registers what opens, unless one of these is not let through. -/
theorem bringUp_spec {bs : List (BuiltActuator ι κ)}
    (hnodup : (bs.map BuiltActuator.actuatorId).Nodup) :
    ((∃ b ∈ bs, b.Hindered e h.guards) ∧ ∃ fault, (h.bringUp e bs).2 = .error fault) ∨
      (∀ b ∈ bs, ¬b.Hindered e h.guards) ∧ ∃ guards, h.bringUp e bs =
        (⟨h.sensors, guards, h.lights ++ bs.filter (e.opens ·.actuatorId)⟩, .ok ()) := by
  induction bs generalizing h with
  | nil => exact .inr ⟨List.forall_mem_nil _, h.guards, by simp [Rig.bringUp]⟩
  | cons b bs ih =>
      obtain ⟨hb, hnodup⟩ := List.nodup_cons.mp hnodup
      rw [Rig.bringUp]
      cases ho : e.opens b.actuatorId with
      | false =>
          rw [if_neg Bool.false_ne_true]
          have hfree : ¬b.Hindered e h.guards := by simp [BuiltActuator.Hindered, ho]
          obtain ⟨⟨b', hb', hh⟩, hbad⟩ | ⟨hok, guards, heq⟩ := ih hnodup (h := h)
          · exact .inl ⟨⟨b', List.mem_cons_of_mem _ hb', hh⟩, hbad⟩
          · refine .inr ⟨List.forall_mem_cons.mpr ⟨hfree, hok⟩, guards, ?_⟩
            rw [heq, List.filter_cons_of_neg (by simp [ho])]
      | true =>
          rw [if_pos rfl]
          cases hs : b.stated e with
          | false =>
              exact .inl ⟨⟨b, List.mem_cons_self, ho, .inl hs⟩, .chipState, by simp⟩
          | true =>
              rw [if_pos rfl]
              by_cases hg : b.actuatorId ∈ h.guards
              · rw [if_pos hg]
                exact .inl ⟨⟨b, List.mem_cons_self, ho, .inr hg⟩, .registered, rfl⟩
              · rw [if_neg hg]
                have hfree : ¬b.Hindered e h.guards := by
                  rintro ⟨-, hh | hh⟩
                  · simp [hs] at hh
                  · exact hg hh
                -- no other light of the list has the id that is new to the supervisor
                have hsame : ∀ b' ∈ bs, b'.Hindered e (h.guards ++ [b.actuatorId]) ↔
                    b'.Hindered e h.guards := by
                  intro b' hb'
                  have hne : b'.actuatorId ≠ b.actuatorId := fun he =>
                    hb (he ▸ List.mem_map_of_mem hb')
                  simp [BuiltActuator.Hindered, hne]
                obtain ⟨⟨b', hb', hh⟩, hbad⟩ | ⟨hok, guards, heq⟩ :=
                  ih hnodup (h := ⟨h.sensors, h.guards ++ [b.actuatorId], h.lights ++ [b]⟩)
                · exact .inl ⟨⟨b', List.mem_cons_of_mem _ hb', (hsame b' hb').mp hh⟩, hbad⟩
                · refine .inr ⟨List.forall_mem_cons.mpr ⟨hfree, fun b' hb' hh => ?_⟩, guards, ?_⟩
                  · exact hok b' hb' ((hsame b' hb').mpr hh)
                  · rw [heq, List.filter_cons_of_pos (by simp [ho])]
                    simp

/-! ### The whole start -/

/-- What is to be built of a device, by its last assignment. -/
def Bench.expected (e : Bench ι κ) (assignments : List (DeviceAssignment ι R Text Binding))
    (deviceId : ι) : Option DeviceKind :=
  (last DeviceAssignment.deviceId deviceId assignments).bind e.accepted

/-- **No device takes another down**: the start comes to its end, each device is there once if it is
to be, and lights on one chip share its device. -/
def Isolated (e : Bench ι κ) (guards : List ι)
    (assignments : List (DeviceAssignment ι R Text Binding)) : Prop :=
  ∃ h, Rig.buildFromRegistry e ⟨[], guards, []⟩ assignments = (h, .ok ()) ∧
    (∀ d, (h.sensors.map Probe.driverId).count d =
      if e.expected assignments d = some .sensor then 1 else 0) ∧
    (∀ d, (h.lights.map BuiltActuator.actuatorId).count d =
      if e.expected assignments d = some .light ∧ e.opens d = true then 1 else 0) ∧
    (∀ s ∈ h.sensors, ∃ a, last DeviceAssignment.deviceId s.driverId assignments = some a ∧
      s.IsFor a) ∧
    (∀ b ∈ h.lights, ∃ a, last DeviceAssignment.deviceId b.actuatorId assignments = some a ∧
      b.IsFor e a) ∧
    ∀ b ∈ h.lights, ∀ b' ∈ h.lights, ∀ chip chip' channel channel',
      b.driver = .pca9685 chip channel → b'.driver = .pca9685 chip' channel' →
      chip.busNo = chip'.busNo → chip.address = chip'.address → chip = chip'

/-- No device's hardware raises what the two loops do not pass over. -/
def Unhindered (e : Bench ι κ) (guards : List ι)
    (assignments : List (DeviceAssignment ι R Text Binding)) : Prop :=
  ∀ d a, last DeviceAssignment.deviceId d assignments = some a →
    e.escapes a = false ∧
      (e.accepted a = some .light → e.opens d = true → e.stated a = true ∧ d ∉ guards)

variable {guards : List ι} {assignments : List (DeviceAssignment ι R Text Binding)}
  {a : DeviceAssignment ι R Text Binding} {d : ι}

omit [DecidableEq ι] in
/-- The state of a light's chip is what its assignment has it to be. -/
theorem stated_of_isFor {b : BuiltActuator ι κ} (h : b.IsFor e a) : b.stated e = e.stated a := by
  obtain ⟨hid, h⟩ := h
  rw [BuiltActuator.stated, Bench.stated]
  cases hd : b.driver with
  | piPwm channel root =>
      rw [hd] at h
      simp only [h.1, hid]
  | pca9685 device channel =>
      rw [hd] at h
      simp only [h.1, h.2.1]

/-- The last assignment of each device. -/
theorem mem_lastPerDevice_iff :
    a ∈ lastPerDevice assignments ↔
      last DeviceAssignment.deviceId a.deviceId assignments = some a := by
  rw [← last_lastPerDevice, last_eq_some_iff nodup_lastPerDevice]
  exact (and_iff_left rfl).symm

/-- What is expected of a device is what comes of an assignment that is left of it. -/
theorem expected_eq_some_iff {kind : DeviceKind} :
    e.expected assignments d = some kind ↔
      d ∈ ((lastPerDevice assignments).filter (e.accepted · = some kind)).map
        DeviceAssignment.deviceId := by
  rw [Bench.expected, Option.bind_eq_some_iff, List.mem_map]
  constructor
  · rintro ⟨a, ha, hk⟩
    obtain ⟨-, rfl⟩ := mem_of_last ha
    exact ⟨a, List.mem_filter.mpr ⟨mem_lastPerDevice_iff.mpr ha, by simpa using hk⟩, rfl⟩
  · rintro ⟨a, ha, rfl⟩
    obtain ⟨ha, hk⟩ := List.mem_filter.mp ha
    exact ⟨a, mem_lastPerDevice_iff.mp ha, by simpa using hk⟩

/-- A device that is in a list without repeats is there once. -/
theorem nodup_accepted (kind : DeviceKind) :
    (((lastPerDevice assignments).filter (e.accepted · = some kind)).map
      DeviceAssignment.deviceId).Nodup :=
  nodup_lastPerDevice.sublist (List.filter_sublist.map _)

/-- Each light that was built is the light of its device's last assignment. -/
theorem last_of_light {bs : List (BuiltActuator ι κ)} {b : BuiltActuator ι κ}
    (hfor : List.Forall₂ (·.IsFor e ·) bs
      ((lastPerDevice assignments).filter (e.accepted · = some .light))) (hb : b ∈ bs) :
    ∃ a, last DeviceAssignment.deviceId b.actuatorId assignments = some a ∧ b.IsFor e a ∧
      e.accepted a = some .light := by
  obtain ⟨a, ha, hab⟩ := exists_of_forall₂ hfor hb
  obtain ⟨ha, hk⟩ := List.mem_filter.mp ha
  exact ⟨a, hab.1 ▸ mem_lastPerDevice_iff.mp ha, hab, by simpa using hk⟩

/-- Where no bus and no chip raises, a device hinders the start by a light that was built. -/
theorem unhindered_iff {bs : List (BuiltActuator ι κ)}
    (hany : (lastPerDevice assignments).any e.escapes = false)
    (hfor : List.Forall₂ (·.IsFor e ·) bs
      ((lastPerDevice assignments).filter (e.accepted · = some .light))) :
    Unhindered e guards assignments ↔ ∀ b ∈ bs, ¬b.Hindered e guards := by
  constructor
  · rintro hun b hb ⟨ho, hh⟩
    obtain ⟨a, ha, hab, hk⟩ := last_of_light hfor hb
    obtain ⟨hs, hg⟩ := (hun _ a ha).2 hk ho
    obtain hh | hh := hh
    · rw [stated_of_isFor hab, hs] at hh
      cases hh
    · exact hg hh
  · intro hfree d a ha
    obtain ⟨-, rfl⟩ := mem_of_last ha
    have ha := mem_lastPerDevice_iff.mpr ha
    refine ⟨by simpa using List.any_eq_false.mp hany a ha, fun hk ho => ?_⟩
    have hmem : a ∈ (lastPerDevice assignments).filter (e.accepted · = some .light) :=
      List.mem_filter.mpr ⟨ha, by simpa using hk⟩
    obtain ⟨b, hb, hab⟩ := exists_of_forall₂ hfor.flip hmem
    have hnot := hfree b hb
    rw [BuiltActuator.Hindered, hab.1, stated_of_isFor hab] at hnot
    simpa [ho] using hnot

/-- The start comes to its end and has done what it should, or it raises and a device hinders it. -/
theorem start_spec :
    (Isolated e guards assignments ∧ Unhindered e guards assignments) ∨
      ¬Unhindered e guards assignments ∧
        ∃ fault, (Rig.buildFromRegistry e ⟨[], guards, []⟩ assignments).2 = .error fault := by
  have hstart := Factory.buildAll_spec (l := lastPerDevice assignments) (Factory.sane_start e)
  simp only [Isolated, Rig.buildFromRegistry]
  generalize Factory.start.buildAll e (lastPerDevice assignments) = r at hstart
  obtain ⟨f, r⟩ := r
  obtain ⟨hany, fault, rfl⟩ | ⟨hany, rfl, hbuilt⟩ := hstart
  · -- a bus or the chip raises
    refine .inr ⟨fun hun => ?_, .build fault, rfl⟩
    obtain ⟨a, ha, hesc⟩ := List.any_eq_true.mp hany
    rw [(hun _ a (mem_lastPerDevice_iff.mp ha)).1] at hesc
    cases hesc
  · obtain ⟨lights, hlights, hfor⟩ := hbuilt.actuators
    obtain ⟨probes, hprobes, hpfor⟩ := hbuilt.sensors
    simp only [Factory.start, List.nil_append] at hlights hprobes
    subst hlights hprobes
    have hlightIds := map_eq_of_forall₂ hfor fun _ _ hb => hb.1
    have hprobeIds := map_eq_of_forall₂ hpfor fun _ _ hs => hs.1
    have hnodup : (f.actuators.map BuiltActuator.actuatorId).Nodup := by
      rw [hlightIds]
      exact nodup_accepted .light
    rw [unhindered_iff hany hfor]
    obtain ⟨⟨b, hb, hh⟩, fault, hbad⟩ | ⟨hfree, guards', hup⟩ :=
      bringUp_spec (e := e) (h := ⟨[] ++ f.sensors, guards, []⟩) hnodup
    · -- a light opens and is not let through
      exact .inr ⟨fun hfree => hfree b hb hh, fault, hbad⟩
    · refine .inl ⟨⟨_, hup, fun d => ?_, fun d => ?_, fun s hs => ?_, fun b hb => ?_, ?_⟩, hfree⟩
      · rw [List.nil_append, hprobeIds, (nodup_accepted .sensor).count]
        simp only [expected_eq_some_iff]
      · have hids : (f.actuators.filter (e.opens ·.actuatorId)).map BuiltActuator.actuatorId =
            (f.actuators.map BuiltActuator.actuatorId).filter e.opens := (List.filter_map).symm
        simp only [List.nil_append]
        rw [hids, (hnodup.filter _).count, hlightIds]
        simp only [List.mem_filter, expected_eq_some_iff]
      · rw [List.nil_append] at hs
        obtain ⟨a, ha, hsa⟩ := exists_of_forall₂ hpfor hs
        exact ⟨a, hsa.1 ▸ mem_lastPerDevice_iff.mp (List.mem_filter.mp ha).1, hsa⟩
      · obtain ⟨a, ha, hab, -⟩ := last_of_light hfor (List.mem_filter.mp hb).1
        exact ⟨a, ha, hab⟩
      · -- the table has one device for a key
        intro b hb b' hb' chip chip' channel channel' hc hc' hbus haddress
        have hmem := hbuilt.sane.used b (List.mem_filter.mp hb).1 chip channel hc
        have hmem' := hbuilt.sane.used b' (List.mem_filter.mp hb').1 chip' channel' hc'
        rw [← hbus, ← haddress] at hmem'
        exact (Prod.mk.inj (List.inj_on_of_nodup_map hbuilt.sane.nodup hmem hmem' rfl)).2

/-- **Exactly the hardware that raises past the filters** takes other devices down. -/
theorem isolated_iff : Isolated e guards assignments ↔ Unhindered e guards assignments := by
  obtain ⟨hiso, hun⟩ | ⟨hun, fault, hbad⟩ :
      (Isolated e guards assignments ∧ _) ∨ _ := start_spec
  · exact iff_of_true hiso hun
  · refine iff_of_false (fun hiso => ?_) hun
    obtain ⟨h, heq, -⟩ := hiso
    rw [heq] at hbad
    cases hbad

/-- A hub without an I²C bus, on which everything else works. -/
def noBus : Bench ℕ Unit where
  findPwmChip := .ok (some ())
  openI2c := fun _ => .error .osError
  opens := fun _ => true
  identity := fun _ => .ok "1f00098000.pwm".toList

/-- A light on the bus that is not there, and a probe. -/
def lightAndProbe : List (DeviceAssignment ℕ Unit Text Binding) :=
  [⟨0, true, none, some "pca9685".toList, some [("channel".toList, "0".toList)], by simp⟩,
    ⟨1, true, none, some "ds18b20".toList, some [("rom".toList, "28-0000075d1b2c".toList)], by simp⟩]

/-- The light takes the probe down. -/
theorem isolated_fails : ¬∀ (e : Bench ℕ Unit)
    (assignments : List (DeviceAssignment ℕ Unit Text Binding)), Isolated e [] assignments := by
  intro h
  obtain ⟨hub, heq, -⟩ := h noBus lightAndProbe
  have hbad : (Rig.buildFromRegistry noBus ⟨[], [], []⟩ lightAndProbe).2 =
      .error (.build (.host .osError)) := by decide +kernel
  rw [heq] at hbad
  cases hbad

end BellasReef.HardwareIO
