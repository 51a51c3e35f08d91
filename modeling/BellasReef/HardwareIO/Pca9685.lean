import BellasReef.HardwareIO.PwmOutputs
import BellasReef.HardwareIO.Uncancellable
import BellasReef.Support.Mutex
import Mathlib.Data.List.GetD

/-!
# HardwareIO — Pca9685

One chip and the calls of its channels' `open`, `apply` and `drive_safe` (`drivers/pca9685.py`), in
any interleaving.  A call waits for `_init_lock` or for `_lock`, and then for a thread that runs a
program of bus transactions; `threads` has the programs for themselves, as no `await` can stop one.
A read answers anything, and a block that fails may have had some of its bytes.  What the bytes do
to the registers is the chip's: of its datasheet, `Chip.Lawful` has what the driver relies on.

* `Pca9685Device.inv_run`: the holder of `_lock` is the call whose thread is on the bus, and the
  flag is not set while the holder of `_init_lock` initialises the chip.
* `one_chip`: in every run, what the calls have on the bus is contiguous, and no initialise is on
  its way once an `open` has returned.  Where every block is whole (`Pca9685Device.Whole`), each
  channel's registers have the counts of the last duty that was written to it, or are full off if
  that was before the last `all_off`.
* `all_off_in_one_register`: `all_off` is before the driver turns auto-increment on, and all its
  bytes go to one register of a chip that is found without it.  So it darkens no channel; at
  power-on they are off before it (`Registers.AllOff`).
-/

namespace BellasReef.HardwareIO
open BellasReef.Contracts BellasReef.Support

/-! ### Registers -/

/-- `_MODE1` and its bits. -/
def mode1 : ℕ := 0x00
def m1Restart : ℕ := 0x80
def m1Ai : ℕ := 0x20
def m1Sleep : ℕ := 0x10
def m1AllCall : ℕ := 0x01

/-- `_MODE2` and its bits. -/
def mode2 : ℕ := 0x01
def m2Invrt : ℕ := 0x10
def m2OutDrv : ℕ := 0x04

/-- The registers of the first channel, those of all channels at once, and the prescaler. -/
def led0OnL : ℕ := 0x06
def allLedOnL : ℕ := 0xFA
def preScale : ℕ := 0xFE

/-- `_CHANNELS`. -/
def channels : ℕ := 16

/-- `OPEN_DRAIN` and `INVRT_ON`. -/
def openDrain : Bool := false
def invrtOn : Bool := false

/-- `PCA9685_OSC_HZ`. -/
def pca9685OscHz : ℕ := 26770000

/-- `PCA9685_PRE_SCALE`. -/
def pca9685PreScale : ℕ := (roundEven (pca9685OscHz / (4096 * 500))).toNat - 1

/-- `x & ~bits`. -/
def clearBits (x bits : ℕ) : ℕ := x ^^^ (x &&& bits)

/-- A register the driver writes on its own: `_MODE1`, `_MODE2` or `_PRE_SCALE`. -/
def IsConfig (register : ℕ) : Prop := register = mode1 ∨ register = mode2 ∨ register = preScale

/-- A register of a channel. -/
def OfChannel (register : ℕ) : Prop :=
  led0OnL ≤ register ∧ register < led0OnL + 4 * channels

/-- A register of `ALL_LED`. -/
def OfAllLed (register : ℕ) : Prop := allLedOnL ≤ register ∧ register < allLedOnL + 4

/-- What the chip's registers hold. -/
abbrev Registers := ℕ → ℕ

namespace Registers

/-- A byte to a register; those of `ALL_LED` are every channel's. -/
def write (g : Registers) (register value : ℕ) : Registers := fun r =>
  if allLedOnL ≤ register ∧ register < allLedOnL + 4 ∧ led0OnL ≤ r ∧ r < led0OnL + 4 * channels ∧
      (r - led0OnL) % 4 = register - allLedOnL ∨ r = register then value
  else g r

/-- A block, byte after byte, to a register and those after it. -/
def writeBlock (g : Registers) (register : ℕ) : List ℕ → Registers
  | [] => g
  | b :: bs => writeBlock (g.write register b) (register + 1) bs

/-- A block, byte after byte, to one register. -/
def writeHeld (g : Registers) (register : ℕ) (data : List ℕ) : Registers :=
  data.foldl (fun g b => g.write register b) g

/-- The `(on_count, off_count)` of a channel. -/
def channelCounts (g : Registers) (channel : ℕ) : Counts :=
  let base := led0OnL + 4 * channel
  (g base + (g (base + 1)) <<< 8, g (base + 2) + (g (base + 3)) <<< 8)

/-- `_M1_AI` is set. -/
def AutoIncrement (g : Registers) : Prop := g mode1 &&& m1Ai ≠ 0

instance (g : Registers) : Decidable g.AutoIncrement := inferInstanceAs (Decidable (_ ≠ _))

/-- Every channel has its full-off bit, as at power-on. -/
def AllOff (g : Registers) : Prop := ∀ channel < channels, IsFullOff (g.channelCounts channel)

instance (g : Registers) : Decidable g.AllOff :=
  inferInstanceAs (Decidable (∀ channel < channels, _))

end Registers

/-- What a byte, or a block, to a register leaves in the registers. -/
structure Chip where
  byte : Registers → ℕ → ℕ → Registers
  block : Registers → ℕ → List ℕ → Registers

/-- **The datasheet**, of the channels' registers. -/
structure Chip.Lawful (c : Chip) : Prop where
  /-- The configuration is in registers of its own. -/
  byte : ∀ g a v r, IsConfig a → OfChannel r → c.byte g a v r = g r
  /-- With no byte taken, nothing is written. -/
  nothing : ∀ g a, c.block g a [] = g
  /-- With auto-increment on, each byte is to the register after the last one's. -/
  block : ∀ (g : Registers) a data, g.AutoIncrement →
    ((∀ i < data.length, OfChannel (a + i)) ∨ ∀ i < data.length, OfAllLed (a + i)) →
    ∀ r, OfChannel r → c.block g a data r = g.writeBlock a data r
  /-- With auto-increment off, all of them are to one register. -/
  held : ∀ (g : Registers) a data, ¬g.AutoIncrement → OfChannel a ∨ OfAllLed a →
    ∀ r, OfChannel r → c.block g a data r = g.writeHeld a data r

/-! ### Programs -/

/-- What a program of the driver raises. -/
inductive BusError where
  /-- The bus's `OSError`. -/
  | osError
  /-- "PRE_SCALE readback is {read_back}, expected 12". -/
  | readBack (value : ℕ)
  /-- "channel {channel} out of range 0-15". -/
  | outOfRange (channel : ℕ)
  deriving DecidableEq, Repr

/-- The transactions of a thread, in order. -/
inductive BusProgram where
  | ret
  | raise (e : BusError)
  | read (register : ℕ) (k : ℕ → BusProgram)
  | writeByte (register value : ℕ) (rest : BusProgram)
  | writeBlock (register : ℕ) (data : List ℕ) (rest : BusProgram)

namespace BusProgram

/-- `all_off`. -/
def allOff (rest : BusProgram) : BusProgram := .writeBlock allLedOnL [0, 0, 0, full] rest

/-- `_initialise_sync`. -/
def initialiseSync : BusProgram :=
  allOff <| .read mode1 fun m1 =>
    .writeByte mode1 (clearBits m1 m1Restart ||| m1Sleep) <|
    .writeByte preScale pca9685PreScale <| .read preScale fun readBack =>
    if readBack ≠ pca9685PreScale then .raise (.readBack readBack)
    else .read mode2 fun m2 =>
      let m2 := if openDrain then clearBits m2 m2OutDrv else m2 ||| m2OutDrv
      let m2 := if invrtOn then m2 ||| m2Invrt else clearBits m2 m2Invrt
      let awake := clearBits m1 m1Sleep ||| m1Ai ||| m1AllCall
      .writeByte mode2 m2 <| .writeByte mode1 awake <| .writeByte mode1 (awake ||| m1Restart) .ret

/-- `write_channel`. -/
def writeChannel (channel : ℕ) (duty : Duty) : BusProgram :=
  if channel < channels then
    let c := dutyToCounts duty
    .writeBlock (led0OnL + 4 * channel)
      [c.1 &&& 0xFF, (c.1 >>> 8) &&& 0xFF, c.2 &&& 0xFF, (c.2 >>> 8) &&& 0xFF] .ret
  else .raise (.outOfRange channel)

/-- The transaction that is next, failed after `taken` bytes, and the registers after it. -/
def fails (c : Chip) (taken : ℕ) (g : Registers) : BusProgram → Option (BusProgram × Registers)
  | .ret | .raise _ => none
  | .read _ _ => some (.raise .osError, g)
  | .writeByte r v _ => some (.raise .osError, if taken = 0 then g else c.byte g r v)
  | .writeBlock r data _ => some (.raise .osError, c.block g r (data.take taken))

/-- The transaction that is next, done, and the registers after it.  A read reads `value`. -/
def lands (c : Chip) (value : ℕ) (g : Registers) : BusProgram → Option (BusProgram × Registers)
  | .ret | .raise _ => none
  | .read _ k => some (k value, g)
  | .writeByte r v rest => some (rest, c.byte g r v)
  | .writeBlock r data rest => some (rest, c.block g r data)

/-- A block is next. -/
def IsBlock : BusProgram → Prop
  | .writeBlock _ _ _ => True
  | _ => False

instance : DecidablePred IsBlock
  | .ret => .isFalse id
  | .raise _ => .isFalse id
  | .read _ _ => .isFalse id
  | .writeByte _ _ _ => .isFalse id
  | .writeBlock _ _ _ => .isTrue trivial

/-- A block to all channels is next. -/
def IsAllLed : BusProgram → Prop
  | .writeBlock register _ _ => register = allLedOnL
  | _ => False

instance : DecidablePred IsAllLed
  | .ret => .isFalse id
  | .raise _ => .isFalse id
  | .read _ _ => .isFalse id
  | .writeByte _ _ _ => .isFalse id
  | .writeBlock _ _ _ => inferInstanceAs (Decidable (_ = _))

/-- How the program has ended. -/
def outcome : BusProgram → Option (Except BusError Unit)
  | .ret => some (.ok ())
  | .raise e => some (.error e)
  | _ => none

end BusProgram

/-! ### Calls -/

/-- What a caller asks of one of the channels. -/
inductive ChannelRequest where
  | «open» (channel : ℕ)
  | apply (channel : ℕ) (level : ActuatorLevel)
  | driveSafe (channel : ℕ)
  deriving DecidableEq

namespace ChannelRequest

/-- The request is an open. -/
def isOpen : ChannelRequest → Bool
  | .open _ => true
  | _ => false

/-- `isinstance(level, PwmLevel)`, where there is one. -/
def accepted : ChannelRequest → Bool
  | .apply _ (.binary _) => false
  | _ => true

/-- What the request offloads, if it comes to that. -/
def program : ChannelRequest → BusProgram
  | .open _ => .initialiseSync
  | .apply channel (.pwm duty) => .writeChannel channel duty
  | .apply _ (.binary _) => .ret
  | .driveSafe channel => .writeChannel channel Duty.zero

end ChannelRequest

/-- How a call ends. -/
inductive CallEnd where
  | returned
  /-- What its thread raised. -/
  | raised (e : BusError)
  /-- "is a PWM channel; got BinaryLevel". -/
  | typeError
  | cancelled
  deriving DecidableEq, Repr

/-- Where a call is. -/
inductive CallStage (μ : Type) where
  /-- At the `async with` of its first lock. -/
  | entering
  /-- `open`, with `_init_lock`, at the `async with` of `_lock`. -/
  | locking
  /-- At the `await` of `to_thread_uncancellable`, with `_lock`. -/
  | offloaded (o : Offload BusError μ)
  | done (e : CallEnd)

/-- How the call has ended. -/
def CallStage.ending {μ : Type} : CallStage μ → Option CallEnd
  | .done e => some e
  | _ => none

theorem CallStage.eq_done_of_ending {μ : Type} {st : CallStage μ} {e : CallEnd}
    (h : st.ending = some e) : st = .done e := by
  cases st <;> simp_all [ending]

/-- What the end of the `await` is to the call. -/
def OffloadEnd.toCallEnd {μ : Type} : OffloadEnd BusError μ → CallEnd
  | .returned => .returned
  | .raised e => .raised e
  | .cancelled _ => .cancelled

/-- A request and where it is. -/
abbrev ChipCall (μ : Type) := ChannelRequest × CallStage μ

/-- The chip, its `Pca9685Device`, the calls and their threads. -/
structure Pca9685Device (κ μ : Type) where
  registers : Registers
  initialised : Bool
  lock : Option κ
  initLock : Option κ
  calls : κ → Option (ChipCall μ)
  threads : κ → Option BusProgram

/-- A step of a call, of its thread, or of who cancels it. -/
inductive ChipAction (κ μ : Type) where
  | request (k : κ) (r : ChannelRequest)
  /-- A cancellation is thrown where the call waits for a lock. -/
  | interrupted (k : κ)
  /-- The call gets the lock it waits for.  `pending` is a cancellation not thrown yet. -/
  | acquires (k : κ) (pending : Option μ)
  | lands (k : κ) (value : ℕ)
  /-- The transaction that is next fails when `taken` of its bytes are written. -/
  | fails (k : κ) (taken : ℕ)
  /-- The thread is at its end. -/
  | ends (k : κ)
  /-- A step of `to_thread_uncancellable` that is not its thread's. -/
  | offload (k : κ) (a : OffloadAction BusError μ)

namespace Pca9685Device

variable {κ μ : Type} [DecidableEq κ]

/-- The registers as they are found, and no calls. -/
def start (g : Registers) : Pca9685Device κ μ :=
  ⟨g, false, none, none, fun _ => none, fun _ => none⟩

/-- Call `k` is now at `st`. -/
def setCall (s : Pca9685Device κ μ) (k : κ) (r : ChannelRequest) (st : CallStage μ) :
    Pca9685Device κ μ :=
  { s with calls := Function.update s.calls k (some (r, st)) }

/-- The thread of call `k` has `p` still to do. -/
def setThread (s : Pca9685Device κ μ) (k : κ) (p : Option BusProgram) : Pca9685Device κ μ :=
  { s with threads := Function.update s.threads k p }

/-- Inside `async with self._lock`: the thread is started. -/
def startThread (s : Pca9685Device κ μ) (k : κ) (r : ChannelRequest) (pending : Option μ) :
    Pca9685Device κ μ :=
  { ((s.setCall k r (.offloaded (.start pending))).setThread k (some r.program)) with
    lock := some k }

/-- The call gets the lock it waits for, if that is free, and goes on to its next `await`. -/
def acquire (s : Pca9685Device κ μ) (k : κ) (pending : Option μ) : Option (Pca9685Device κ μ) :=
  match s.calls k with
  | some (r, .entering) =>
      if r.isOpen then
        if s.initLock.isSome then none
        else if s.initialised then some (s.setCall k r (.done .returned))
        else some { (s.setCall k r .locking) with initLock := some k }
      else if s.lock.isSome then none
      else some (s.startThread k r pending)
  | some (r, .locking) => if s.lock.isSome then none else some (s.startThread k r pending)
  | _ => none

/-- The end of the call, from the end of the `await`: the locks are released, and `open` sets the
flag if `initialise` returned. -/
def finish (s : Pca9685Device κ μ) (k : κ) (r : ChannelRequest) (e : CallEnd) :
    Pca9685Device κ μ :=
  { (s.setCall k r (.done e)) with
    lock := none
    initLock := if r.isOpen then none else s.initLock
    initialised := s.initialised || (r.isOpen && e = .returned) }

/-- The call, wherever its `await` is now. -/
def settle (s : Pca9685Device κ μ) (k : κ) (r : ChannelRequest) (o : Offload BusError μ) :
    Pca9685Device κ μ :=
  match o.waiter with
  | .suspended _ _ => s.setCall k r (.offloaded o)
  | .ended e => s.finish k r e.toCallEnd

/-- The thread is at its end, and its future has the outcome. -/
def endThread (s : Pca9685Device κ μ) (k : κ) (o : Except BusError Unit) : Pca9685Device κ μ :=
  let s := s.setThread k none
  match s.calls k with
  | some (r, .offloaded w) => s.setCall k r (.offloaded ((w.step (.threadEnds o)).getD w))
  | _ => s

@[simp]
theorem startThread_threads (s : Pca9685Device κ μ) (k : κ) (r : ChannelRequest)
    (pending : Option μ) :
    (s.startThread k r pending).threads = Function.update s.threads k (some r.program) := rfl

@[simp]
theorem settle_threads (s : Pca9685Device κ μ) (k : κ) (r : ChannelRequest)
    (o : Offload BusError μ) : (s.settle k r o).threads = s.threads := by
  rw [settle]
  split <;> rfl

@[simp]
theorem settle_registers (s : Pca9685Device κ μ) (k : κ) (r : ChannelRequest)
    (o : Offload BusError μ) : (s.settle k r o).registers = s.registers := by
  rw [settle]
  split <;> rfl

@[simp]
theorem endThread_threads (s : Pca9685Device κ μ) (k : κ) (o : Except BusError Unit) :
    (s.endThread k o).threads = Function.update s.threads k none := by
  simp only [endThread]
  split <;> rfl

@[simp]
theorem endThread_registers (s : Pca9685Device κ μ) (k : κ) (o : Except BusError Unit) :
    (s.endThread k o).registers = s.registers := by
  simp only [endThread]
  split <;> rfl

/-- One step. -/
def step (c : Chip) (s : Pca9685Device κ μ) : ChipAction κ μ → Option (Pca9685Device κ μ)
  | .request k r =>
      match s.calls k with
      | some _ => none
      | none => some (s.setCall k r (if r.accepted then .entering else .done .typeError))
  | .interrupted k =>
      match s.calls k with
      | some (r, .entering) => some (s.setCall k r (.done .cancelled))
      | some (r, .locking) => some { (s.setCall k r (.done .cancelled)) with initLock := none }
      | _ => none
  | .acquires k pending => s.acquire k pending
  | .lands k value => do
      let p ← s.threads k
      let q ← p.lands c value s.registers
      some { (s.setThread k (some q.1)) with registers := q.2 }
  | .fails k taken => do
      let p ← s.threads k
      let q ← p.fails c taken s.registers
      some { (s.setThread k (some q.1)) with registers := q.2 }
  | .ends k => do
      let p ← s.threads k
      let o ← p.outcome
      some (s.endThread k o)
  | .offload k a =>
      match a, s.calls k with
      | .threadEnds _, _ => none
      | _, some (r, .offloaded o) => (o.step a).map (s.settle k r)
      | _, _ => none

/-- A block is written as a whole: a chip that takes it increments the register by itself, unless it
is an `all_off` that finds the registers `spared`; and one that fails it has had nothing of it. -/
def Whole (s : Pca9685Device κ μ) (spared : Registers → Prop) : ChipAction κ μ → Prop
  | .lands k _ => ∀ p ∈ s.threads k, p.IsBlock →
      s.registers.AutoIncrement ∨ p.IsAllLed ∧ spared s.registers
  | .fails k taken => ∀ p ∈ s.threads k, p.IsBlock → taken = 0
  | _ => True

instance (spared : Registers → Prop) [DecidablePred spared] (s : Pca9685Device κ μ) :
    DecidablePred (s.Whole spared)
  | .request _ _ => inferInstanceAs (Decidable True)
  | .interrupted _ => inferInstanceAs (Decidable True)
  | .acquires _ _ => inferInstanceAs (Decidable True)
  | .lands k _ => inferInstanceAs (Decidable (∀ p ∈ s.threads k, p.IsBlock →
      s.registers.AutoIncrement ∨ p.IsAllLed ∧ spared s.registers))
  | .fails k taken => inferInstanceAs (Decidable (∀ p ∈ s.threads k, p.IsBlock → taken = 0))
  | .ends _ => inferInstanceAs (Decidable True)
  | .offload _ _ => inferInstanceAs (Decidable True)

end Pca9685Device

/-- A chip and its calls. -/
def chipCalls (c : Chip) (κ μ : Type) [DecidableEq κ] :
    Machine (Pca9685Device κ μ) (ChipAction κ μ) :=
  ⟨Pca9685Device.step c⟩

/-! ### Notes -/

/-- What the channels were told, of the transactions that landed. -/
structure Outputs where
  /-- An `all_off` has landed. -/
  darkened : Bool
  /-- The last duty that was written to the channel after the last `all_off`. -/
  written : ℕ → Option Duty

namespace Outputs

/-- `all_off` has landed. -/
def allOff (_ : Outputs) : Outputs := ⟨true, fun _ => none⟩

/-- A duty is noted for its channel. -/
def write (n : Outputs) (channel : ℕ) (duty : Duty) : Outputs :=
  { n with written := Function.update n.written channel (some duty) }

/-- A block of the request has landed. -/
def block (n : Outputs) : ChannelRequest → Outputs
  | .open _ => n.allOff
  | .apply channel (.pwm duty) => n.write channel duty
  | .apply _ (.binary _) => n
  | .driveSafe channel => n.write channel Duty.zero

/-- The request's transaction that the program had next has landed. -/
def landed (n : Outputs) (r : ChannelRequest) : BusProgram → Outputs
  | .writeBlock _ _ _ => n.block r
  | _ => n

/-- The registers have what the channels were told, and the others are `off` since an `all_off`. -/
def Shown (n : Outputs) (off : Counts → Prop) (g : Registers) : Prop :=
  ∀ channel < channels,
    match n.written channel with
    | some duty => g.channelCounts channel = dutyToCounts duty
    | none => n.darkened = true → off (g.channelCounts channel)

end Outputs

/-- What has come to pass on the bus. -/
structure BusNotes (κ : Type) where
  /-- Whose transactions they were, in order. -/
  trace : List κ
  outputs : Outputs

/-- The notes of a bus that nothing has been on. -/
def BusNotes.start {κ : Type} : BusNotes κ := ⟨[], false, fun _ => none⟩

namespace Pca9685Device

/-- What a step adds to the notes. -/
def note {κ μ : Type} (s : Pca9685Device κ μ) (a : ChipAction κ μ) (_ : Pca9685Device κ μ)
    (n : BusNotes κ) : BusNotes κ :=
  match a with
  | .lands k _ =>
      match s.calls k, s.threads k with
      | some (r, _), some p => ⟨n.trace ++ [k], n.outputs.landed r p⟩
      | _, _ => n
  | .fails k _ => { n with trace := n.trace ++ [k] }
  | _ => n

end Pca9685Device

/-- A chip and its calls, with the notes. -/
abbrev notedChipCalls (c : Chip) (κ μ : Type) [DecidableEq κ] :
    Machine (Pca9685Device κ μ × BusNotes κ) (ChipAction κ μ) :=
  (chipCalls c κ μ).ghost Pca9685Device.note

/-! ### Steps -/

namespace Pca9685Device

variable {κ μ : Type} [DecidableEq κ]

/-- What the steps do. -/
inductive Moves (c : Chip) (s : Pca9685Device κ μ) :
    ChipAction κ μ → Pca9685Device κ μ → Prop where
  | asked {k : κ} {r : ChannelRequest} {st : CallStage μ} (hc : s.calls k = none)
      (hst : st = .entering ∨ st = .done .typeError) : Moves c s (.request k r) (s.setCall k r st)
  | gaveUp {k : κ} {r : ChannelRequest} (hc : s.calls k = some (r, .entering)) :
      Moves c s (.interrupted k) (s.setCall k r (.done .cancelled))
  | gaveUpLocking {k : κ} {r : ChannelRequest} (hc : s.calls k = some (r, .locking)) :
      Moves c s (.interrupted k) { (s.setCall k r (.done .cancelled)) with initLock := none }
  | found {k : κ} {r : ChannelRequest} {pending : Option μ} (hc : s.calls k = some (r, .entering))
      (hi : s.initialised = true) :
      Moves c s (.acquires k pending) (s.setCall k r (.done .returned))
  | locks {k : κ} {r : ChannelRequest} {pending : Option μ} (hc : s.calls k = some (r, .entering))
      (hr : r.isOpen = true) (hfree : s.initLock = none) (hi : s.initialised = false) :
      Moves c s (.acquires k pending) { (s.setCall k r .locking) with initLock := some k }
  | starts {k : κ} {r : ChannelRequest} {st : CallStage μ} {pending : Option μ}
      (hc : s.calls k = some (r, st)) (hst : st = .entering ∧ r.isOpen = false ∨ st = .locking)
      (hfree : s.lock = none) : Moves c s (.acquires k pending) (s.startThread k r pending)
  | lands {k : κ} {value : ℕ} {p : BusProgram} {q : BusProgram × Registers}
      (hp : s.threads k = some p) (hq : p.lands c value s.registers = some q) :
      Moves c s (.lands k value) { (s.setThread k (some q.1)) with registers := q.2 }
  | fails {k : κ} {taken : ℕ} {p : BusProgram} {q : BusProgram × Registers}
      (hp : s.threads k = some p) (hq : p.fails c taken s.registers = some q) :
      Moves c s (.fails k taken) { (s.setThread k (some q.1)) with registers := q.2 }
  | ends {k : κ} {p : BusProgram} {o : Except BusError Unit} (hp : s.threads k = some p)
      (ho : p.outcome = some o) : Moves c s (.ends k) (s.endThread k o)
  | goesOn {k : κ} {r : ChannelRequest} {o o' : Offload BusError μ} {a : OffloadAction BusError μ}
      (hc : s.calls k = some (r, .offloaded o)) (ha : ∀ x, a ≠ .threadEnds x)
      (ho : o.step a = some o') : Moves c s (.offload k a) (s.settle k r o')

theorem acquire_moves {c : Chip} {s s' : Pca9685Device κ μ} {k : κ} {pending : Option μ}
    (h : s.acquire k pending = some s') : Moves c s (.acquires k pending) s' := by
  rw [acquire] at h
  split at h
  · next r hc =>
      split at h
      · next hr =>
          split at h
          · cases h
          · next hfree =>
              split at h
              · next hi => cases h; exact .found hc hi
              · next hi => cases h; exact .locks hc hr (by simpa using hfree) (by simpa using hi)
      · next hr =>
          split at h
          · cases h
          · next hfree =>
              cases h
              exact .starts hc (.inl ⟨rfl, by simpa using hr⟩) (by simpa using hfree)
  · next r hc =>
      split at h
      · cases h
      · next hfree => cases h; exact .starts hc (.inr rfl) (by simpa using hfree)
  · cases h

/-- **Every step** is one of these. -/
theorem step_moves {c : Chip} {s s' : Pca9685Device κ μ} {a : ChipAction κ μ}
    (h : s.step c a = some s') : Moves c s a s' := by
  cases a with
  | request k r =>
      simp only [step] at h
      split at h
      · cases h
      · next hc => cases h; exact .asked hc (by split <;> simp)
  | interrupted k =>
      simp only [step] at h
      split at h
      · next r hc => cases h; exact .gaveUp hc
      · next r hc => cases h; exact .gaveUpLocking hc
      · cases h
  | acquires k pending => exact acquire_moves h
  | lands k value =>
      obtain ⟨p, hp, h⟩ := Option.bind_eq_some_iff.mp h
      obtain ⟨q, hq, h⟩ := Option.bind_eq_some_iff.mp h
      cases h
      exact .lands hp hq
  | fails k taken =>
      obtain ⟨p, hp, h⟩ := Option.bind_eq_some_iff.mp h
      obtain ⟨q, hq, h⟩ := Option.bind_eq_some_iff.mp h
      cases h
      exact .fails hp hq
  | ends k =>
      obtain ⟨p, hp, h⟩ := Option.bind_eq_some_iff.mp h
      obtain ⟨o, ho, h⟩ := Option.bind_eq_some_iff.mp h
      cases h
      exact .ends hp ho
  | offload k a =>
      simp only [step] at h
      split at h
      · cases h
      · next ha hc =>
          obtain ⟨o', ho, rfl⟩ := Option.map_eq_some_iff.mp h
          exact .goesOn hc (fun x e => ha x e) ho
      · cases h

end Pca9685Device

/-! ### Locks -/

namespace BusProgram

/-- No transaction of the program is to a channel's registers. -/
def Calm : BusProgram → Prop
  | .ret | .raise _ => True
  | .read _ k => ∀ v, (k v).Calm
  | .writeByte r _ rest => IsConfig r ∧ rest.Calm
  | .writeBlock _ _ _ => False

end BusProgram

namespace Pca9685Device

variable {κ μ : Type}

/-- The call holds `_lock`. -/
def OnBus : Option (ChipCall μ) → Prop
  | some (_, .offloaded _) => True
  | _ => False

/-- The call holds `_init_lock`. -/
def Initialising : Option (ChipCall μ) → Prop
  | some (_, .locking) => True
  | some (r, .offloaded _) => r.isOpen
  | _ => False

/-- A call, its thread and the flag.  The thread is started with the `await` and ends before it. -/
def CallOk (initialised : Bool) : Option (ChipCall μ) → Option BusProgram → Prop
  | none, t => t = none
  | some (_, .entering), t => t = none
  | some (r, .locking), t => r.isOpen ∧ t = none
  | some (r, .offloaded o), t =>
      o.Sound ∧ (∃ w c, o.waiter = .suspended w c) ∧
        match t with
        | some p => o.thread = none ∧ (p = r.program ∨ p.Calm)
        | none => o.thread.isSome
  | some (r, .done e), t => t = none ∧ (r.isOpen → e = .returned → initialised = true)

/-- Who holds which lock, and what for. -/
structure Inv (s : Pca9685Device κ μ) : Prop where
  lock : Held s.lock OnBus s.calls
  initLock : Held s.initLock Initialising s.calls
  fresh : s.initLock.isSome → s.initialised = false
  calls : ∀ k, CallOk s.initialised (s.calls k) (s.threads k)

variable {s s' : Pca9685Device κ μ} {k : κ} {r : ChannelRequest} {c : Option (ChipCall μ)}
  {t : Option BusProgram} {p : BusProgram}

/-- The flag matters to a call only in so far as it is set. -/
theorem CallOk.mono {i j : Bool} (h : CallOk i c t) (hij : i = true → j = true) : CallOk j c t := by
  rcases c with _ | ⟨r, _ | _ | o | e⟩
  · exact h
  · exact h
  · exact h
  · exact h
  · exact ⟨h.1, fun hr he => hij (h.2 hr he)⟩

/-- A thread on the bus is that of a call that has not ended. -/
theorem CallOk.of_thread {i : Bool} (h : CallOk i c (some p)) :
    ∃ r o, c = some (r, .offloaded o) ∧ o.Sound ∧ (∃ w c, o.waiter = .suspended w c) ∧
      o.thread = none ∧ (p = r.program ∨ p.Calm) := by
  rcases c with _ | ⟨r, _ | _ | o | e⟩
  · cases h
  · cases h
  · cases h.2
  · exact ⟨r, o, rfl, h⟩
  · cases h.1

/-- The thread goes on. -/
theorem CallOk.calm {i : Bool} {q : BusProgram} (h : CallOk i c (some p)) (hq : q.Calm) :
    CallOk i c (some q) := by
  obtain ⟨r, o, rfl, hs, hw, ht, -⟩ := h.of_thread
  exact ⟨hs, hw, ht, .inr hq⟩

variable [DecidableEq κ]

/-- One call and its thread have changed. -/
theorem calls_update (k : κ) {i j : Bool} (h : ∀ k, CallOk i (s.calls k) (s.threads k))
    (hij : i = true → j = true) (hk : CallOk j c t) (l : κ) :
    CallOk j (Function.update s.calls k c l) (Function.update s.threads k t l) := by
  by_cases hl : l = k
  · subst hl
    rwa [Function.update_self, Function.update_self]
  · rw [Function.update_of_ne hl, Function.update_of_ne hl]
    exact (h l).mono hij

/-- A call goes on with the locks it has. -/
theorem Inv.setCall {st : CallStage μ} (h : Inv s) (hbus : OnBus (some (r, st)) ↔ OnBus (s.calls k))
    (hinit : Initialising (some (r, st)) ↔ Initialising (s.calls k))
    (hk : CallOk s.initialised (some (r, st)) (s.threads k)) : Inv (s.setCall k r st) := by
  refine ⟨h.lock.keep hbus, h.initLock.keep hinit, h.fresh, fun l => ?_⟩
  have hl := calls_update k h.calls id hk l
  rwa [Function.update_eq_self] at hl

/-- A thread goes on with its program. -/
theorem Inv.setThread {q : BusProgram} (h : Inv s) (hp : s.threads k = some p) (hq : q.Calm) :
    Inv (s.setThread k (some q)) := by
  refine ⟨h.lock, h.initLock, h.fresh, fun l => ?_⟩
  have hk := h.calls k
  rw [hp] at hk
  have hl := calls_update k h.calls id (hk.calm hq) l
  rwa [Function.update_eq_self] at hl

/-- A call that holds what locks it needs gets `_lock`, and starts its thread. -/
theorem Inv.startThread {pending : Option μ} (h : Inv s) (hfree : s.lock = none)
    (hinit : r.isOpen ↔ Initialising (s.calls k)) :
    Inv (s.startThread k r pending) := by
  have hlock := h.lock
  rw [hfree] at hlock
  refine ⟨hlock.take trivial, h.initLock.keep hinit, h.fresh, fun l => ?_⟩
  have hk : CallOk s.initialised (some (r, .offloaded (.start pending))) (some r.program) :=
    ⟨Offload.sound_start pending, ⟨_, _, rfl⟩, rfl, .inl rfl⟩
  exact calls_update k h.calls id hk l

/-- **The end of the `await`**: the locks are released, and the thread has ended before. -/
theorem Inv.finish {o : Offload BusError μ} {e : CallEnd} (h : Inv s)
    (hc : s.calls k = some (r, .offloaded o)) (ht : s.threads k = none) :
    Inv (s.finish k r e) := by
  refine ⟨h.lock.release (k := k) (by rw [hc]; trivial) id, ?_, ?_, fun l => ?_⟩
  · simp only [Pca9685Device.finish]
    split
    · next hr => exact h.initLock.release (k := k) (by rw [hc]; exact hr) id
    · next hr => exact h.initLock.keep (by rw [hc]; exact iff_of_false id hr)
  · -- only the holder of `_init_lock` sets the flag, and it releases the lock
    simp only [Pca9685Device.finish]
    split
    · exact nofun
    · next hr => intro hs; simp [h.fresh hs, hr]
  · have hk : CallOk (s.initialised || (r.isOpen && e = .returned)) 
        (some (r, (.done e : CallStage μ))) (s.threads k) := ⟨ht, fun hr he => by simp [hr, he]⟩
    have hl := calls_update k h.calls (fun hi => by simp [hi]) hk l
    rwa [Function.update_eq_self] at hl

/-- The coroutine has gone on: the call waits for its thread again, or ends after it. -/
theorem Inv.settle {o o' : Offload BusError μ} {a : OffloadAction BusError μ} (h : Inv s)
    (hc : s.calls k = some (r, .offloaded o)) (ha : ∀ x, a ≠ .threadEnds x)
    (ho : o.step a = some o') : Inv (s.settle k r o') := by
  have hk := h.calls k
  rw [hc] at hk
  obtain ⟨hs, -, ht⟩ := hk
  have hs' := Offload.sound_step hs ho
  have hthread := Offload.thread_step ha ho
  rw [Pca9685Device.settle]
  split
  · next w c hw =>
      refine h.setCall (by rw [hc]; exact .rfl) (by rw [hc]; exact .rfl) ⟨hs', ⟨w, c, hw⟩, ?_⟩
      rwa [hthread]
  · next e hw =>
      refine h.finish hc ?_
      have hended := Offload.end_thread hs' hw
      cases htk : s.threads k with
      | none => rfl
      | some p =>
          rw [htk] at ht
          rw [hthread, ht.1] at hended
          cases hended

/-- The thread ends while its call waits for it. -/
theorem endThread_eq {o o' : Offload BusError μ} {x : Except BusError Unit}
    (hc : s.calls k = some (r, .offloaded o)) (ho : o.step (.threadEnds x) = some o') :
    s.endThread k x = (s.setThread k none).setCall k r (.offloaded o') := by
  have hc' : (s.setThread k none).calls k = some (r, .offloaded o) := hc
  simp [Pca9685Device.endThread, hc', ho]

/-- The thread has ended, and its call still waits for it. -/
theorem Inv.endThread {x : Except BusError Unit} (h : Inv s) (hp : s.threads k = some p) :
    Inv (s.endThread k x) := by
  have hk := h.calls k
  rw [hp] at hk
  obtain ⟨r, o, hc, hs, ⟨w, v, hw⟩, ht, -⟩ := hk.of_thread
  have ho := Offload.step_threadEnds ht x
  rw [endThread_eq hc ho]
  refine ⟨h.lock.keep (by rw [hc]; exact .rfl), h.initLock.keep (by rw [hc]; exact .rfl), h.fresh,
    fun l => ?_⟩
  have hk' : CallOk s.initialised (some (r, .offloaded { o with thread := some x })) none :=
    ⟨Offload.sound_step hs ho, ⟨w, v, hw⟩, rfl⟩
  exact calls_update k h.calls id hk' l

end Pca9685Device

/-! ### Programs on the registers -/

namespace Registers

variable {g g' : Registers} {ch ch' r v : ℕ}

/-- The registers of a channel are its own. -/
theorem ofChannel (hch : ch < channels) {i : ℕ} (hi : i < 4) :
    OfChannel (led0OnL + 4 * ch + i) := by
  simp only [OfChannel, led0OnL, channels] at hch ⊢
  omega

/-- A channel's counts are in the channels' registers. -/
theorem channelCounts_congr (hch : ch < channels) (h : ∀ r, OfChannel r → g' r = g r) :
    g'.channelCounts ch = g.channelCounts ch := by
  have hreg : ∀ i < 4, g' (led0OnL + 4 * ch + i) = g (led0OnL + 4 * ch + i) :=
    fun i hi => h _ (ofChannel hch hi)
  simp only [channelCounts]
  rw [hreg 1 (by omega), hreg 2 (by omega), hreg 3 (by omega)]
  rw [show g' (led0OnL + 4 * ch) = g (led0OnL + 4 * ch) from hreg 0 (by omega)]

/-- A block below the `ALL_LED` registers. -/
theorem writeBlock_apply {data : List ℕ} (h : r + data.length ≤ allLedOnL) (q : ℕ) :
    g.writeBlock r data q = if r ≤ q then data.getD (q - r) (g q) else g q := by
  induction data generalizing g r with
  | nil => simp [writeBlock]
  | cons b bs ih =>
      rw [List.length_cons] at h
      have hb : g.write r b q = if q = r then b else g q := by
        simp [write, show ¬allLedOnL ≤ r by omega]
      rw [writeBlock, ih (by omega), hb]
      rcases lt_trichotomy q r with hq | rfl | hq
      · rw [if_neg (by omega), if_neg (by omega), if_neg (by omega)]
      · simp
      · rw [if_neg (show ¬q = r by omega), if_pos (show r + 1 ≤ q by omega), if_pos hq.le,
          show q - r = (q - (r + 1)) + 1 by omega, List.getD_cons_succ]

/-- The block of a channel. -/
theorem channelCounts_writeBlock (hch : ch < channels) (ch' : ℕ) (a b c d : ℕ) :
    (g.writeBlock (led0OnL + 4 * ch) [a, b, c, d]).channelCounts ch' =
      if ch' = ch then (a + b <<< 8, c + d <<< 8) else g.channelCounts ch' := by
  have hblock : led0OnL + 4 * ch + [a, b, c, d].length ≤ allLedOnL := by
    simp only [led0OnL, allLedOnL, channels, List.length_cons, List.length_nil] at hch ⊢
    omega
  -- a register of another channel is before the block or past its end
  have hother : ch' ≠ ch → ∀ i < 4, g.writeBlock (led0OnL + 4 * ch) [a, b, c, d]
      (led0OnL + 4 * ch' + i) = g (led0OnL + 4 * ch' + i) := by
    intro hne i hi
    rw [writeBlock_apply hblock]
    split
    · refine List.getD_eq_default _ _ ?_
      simp only [List.length_cons, List.length_nil]
      omega
    · rfl
  split
  · next h =>
      subst h
      simp [channelCounts, writeBlock_apply hblock]
  · next h =>
      simp only [channelCounts]
      rw [hother h 1 (by omega), hother h 2 (by omega), hother h 3 (by omega)]
      exact congrArg (fun n => (n + _, _)) (hother h 0 (by omega))

/-- `all_off`'s block, without auto-increment: no off count is written. -/
theorem channelCounts_held (hch : ch < channels) :
    ((g.writeHeld allLedOnL [0, 0, 0, full]).channelCounts ch).2 = (g.channelCounts ch).2 := by
  have hbyte : ∀ (h : Registers) (v : ℕ), ∀ j < 4, j ≠ 0 →
      h.write allLedOnL v (led0OnL + 4 * ch + j) = h (led0OnL + 4 * ch + j) := by
    intro h v j hj hne
    refine if_neg ?_
    simp only [led0OnL, allLedOnL, channels] at hch ⊢
    omega
  simp only [channelCounts, writeHeld, List.foldl_cons, List.foldl_nil]
  rw [hbyte _ _ 2, hbyte _ _ 2, hbyte _ _ 2, hbyte _ _ 2, hbyte _ _ 3, hbyte _ _ 3, hbyte _ _ 3,
    hbyte _ _ 3] <;> decide

/-- `all_off`'s block. -/
theorem channelCounts_allOff (hch : ch < channels) :
    (g.writeBlock allLedOnL [0, 0, 0, full]).channelCounts ch = fullOff := by
  have hbyte : ∀ i < 4, ∀ (h : Registers) (v : ℕ), ∀ j < 4,
      h.write (allLedOnL + i) v (led0OnL + 4 * ch + j) =
        if j = i then v else h (led0OnL + 4 * ch + j) := by
    intro i hi h v j hj
    simp only [write, led0OnL, allLedOnL, channels] at hch ⊢
    congr 1
    apply propext
    omega
  have hblock : ∀ j < 4, g.writeBlock allLedOnL [0, 0, 0, full] (led0OnL + 4 * ch + j) =
      if j = 3 then full else 0 := by
    intro j hj
    change ((((g.write (allLedOnL + 0) 0).write (allLedOnL + 1) 0).write (allLedOnL + 2) 0).write
      (allLedOnL + 3) full) _ = _
    rw [hbyte 3 (by omega) _ _ j hj, hbyte 2 (by omega) _ _ j hj, hbyte 1 (by omega) _ _ j hj,
      hbyte 0 (by omega) _ _ j hj]
    split_ifs <;> first | rfl | omega
  simp only [channelCounts]
  rw [hblock 1 (by omega), hblock 2 (by omega), hblock 3 (by omega),
    show g.writeBlock allLedOnL [0, 0, 0, full] (led0OnL + 4 * ch) = 0 from hblock 0 (by omega)]
  rfl

end Registers

/-- A count of two bytes is read back. -/
theorem bytes_eq {n : ℕ} (h : n < 2 ^ 16) :
    (n &&& 0xFF) + ((n >>> 8) &&& 0xFF) <<< 8 = n := by
  have hmask : ∀ m : ℕ, m &&& 0xFF = m % 2 ^ 8 := fun m => Nat.and_two_pow_sub_one_eq_mod m 8
  rw [hmask, hmask, Nat.shiftRight_eq_div_pow, Nat.shiftLeft_eq]
  omega

theorem dutyToCounts_lt (d : Duty) : (dutyToCounts d).1 < 2 ^ 16 ∧ (dutyToCounts d).2 < 2 ^ 16 := by
  obtain h | h := lt_or_ge d.1 minUsableDuty
  · rw [dutyToCounts_dark h]
    decide
  · obtain hon | ⟨n, -, hle, hn⟩ := dutyToCounts_lit h
    · rw [hon]
      decide
    · rw [hn]
      exact ⟨by norm_num, by simp only; omega⟩

namespace BusProgram

variable {c : Chip} {p : BusProgram} {g : Registers} {value taken : ℕ}
  {q : BusProgram × Registers}

theorem eq_raise_of_fails (h : p.fails c taken g = some q) : ∃ e, q.1 = .raise e := by
  cases p with
  | ret => cases h
  | raise e => cases h
  | read r k => cases h; exact ⟨_, rfl⟩
  | writeByte r v rest => cases h; exact ⟨_, rfl⟩
  | writeBlock r data rest => cases h; exact ⟨_, rfl⟩

theorem calm_of_fails (h : p.fails c taken g = some q) : q.1.Calm := by
  obtain ⟨e, he⟩ := eq_raise_of_fails h
  rw [he]
  trivial

/-- Past `all_off`, the configuration is in the registers of the chip. -/
theorem initialiseSync_eq : ∃ rest, initialiseSync = allOff rest ∧ rest.Calm := by
  refine ⟨_, rfl, fun m1 => ⟨.inl rfl, .inr (.inr rfl), fun readBack => ?_⟩⟩
  by_cases hb : readBack ≠ pca9685PreScale
  · simp only [if_pos hb, Calm]
  · simp only [if_neg hb, Calm]
    exact fun m2 => ⟨.inr (.inl rfl), .inl rfl, .inl rfl, trivial⟩

/-- `write_channel` is a block, if the channel is one of the chip's. -/
theorem writeChannel_eq (ch : ℕ) (d : Duty) :
    writeChannel ch d = .raise (.outOfRange ch) ∨ ch < channels ∧
      ∃ b₀ b₁ b₂ b₃, writeChannel ch d = .writeBlock (led0OnL + 4 * ch) [b₀, b₁, b₂, b₃] .ret ∧
        (b₀ + b₁ <<< 8, b₂ + b₃ <<< 8) = dutyToCounts d := by
  rw [writeChannel]
  split
  · next hch =>
      obtain ⟨hon, hoff⟩ := dutyToCounts_lt d
      exact .inr ⟨hch, _, _, _, _, rfl, by rw [bytes_eq hon, bytes_eq hoff]⟩
  · exact .inl rfl

/-- No request begins with a byte. -/
theorem program_ne_writeByte (r : ChannelRequest) {a v : ℕ} {rest : BusProgram} :
    .writeByte a v rest ≠ r.program := by
  have hwrite : ∀ ch d, .writeByte a v rest ≠ writeChannel ch d := by
    intro ch d
    rw [writeChannel]
    split <;> simp
  match r with
  | .open _ => simp [ChannelRequest.program, initialiseSync, allOff]
  | .apply ch (.pwm d) => exact hwrite ch d
  | .apply _ (.binary _) => simp [ChannelRequest.program]
  | .driveSafe ch => exact hwrite ch Duty.zero

/-- After a transaction, no block is to come. -/
theorem calm_of_lands {r : ChannelRequest} (hp : p = r.program ∨ p.Calm)
    (h : p.lands c value g = some q) : q.1.Calm := by
  obtain rfl | hp := hp
  · have hwrite : ∀ ch d, (writeChannel ch d).lands c value g = some q → q.1.Calm := by
      intro ch d h
      obtain he | ⟨-, _, _, _, _, he, -⟩ := writeChannel_eq ch d
      · rw [he] at h
        cases h
      · rw [he] at h
        cases h
        trivial
    match r with
    | .open _ =>
        obtain ⟨rest, he, hrest⟩ := initialiseSync_eq
        simp only [ChannelRequest.program, he] at h
        cases h
        exact hrest
    | .apply ch (.pwm d) => exact hwrite ch d h
    | .apply ch (.binary _) => cases h
    | .driveSafe ch => exact hwrite ch Duty.zero h
  · cases p with
    | ret => cases h
    | raise e => cases h
    | read r k => cases h; exact hp value
    | writeByte r v rest => cases h; exact hp.2
    | writeBlock r data rest => cases hp

/-- A transaction outside the channels' registers. -/
theorem lands_calm (hc : c.Lawful) (hp : p.Calm) (h : p.lands c value g = some q) :
    ∀ ch < channels, q.2.channelCounts ch = g.channelCounts ch := by
  intro ch hch
  cases p with
  | ret => cases h
  | raise e => cases h
  | read r k => cases h; rfl
  | writeByte r v rest =>
      cases h
      exact Registers.channelCounts_congr hch fun reg hreg => hc.byte g r v reg hp.1 hreg
  | writeBlock r data rest => cases hp

/-- `write_channel`'s only transaction. -/
theorem lands_writeChannel {ch : ℕ} {d : Duty} (hc : c.Lawful) (hai : g.AutoIncrement)
    (h : (writeChannel ch d).lands c value g = some q) :
    (∃ r data, writeChannel ch d = .writeBlock r data .ret) ∧ ∀ ch' < channels,
      q.2.channelCounts ch' = if ch' = ch then dutyToCounts d else g.channelCounts ch' := by
  obtain he | ⟨hch, b₀, b₁, b₂, b₃, he, hcounts⟩ := writeChannel_eq ch d
  · rw [he] at h
    cases h
  · rw [he] at h ⊢
    cases h
    refine ⟨⟨_, _, rfl⟩, fun ch' hch' => ?_⟩
    have hblock : ∀ r, OfChannel r → c.block g (led0OnL + 4 * ch) [b₀, b₁, b₂, b₃] r =
        g.writeBlock (led0OnL + 4 * ch) [b₀, b₁, b₂, b₃] r :=
      hc.block g _ _ hai (.inl fun i hi => Registers.ofChannel hch hi)
    rw [Registers.channelCounts_congr hch' hblock, Registers.channelCounts_writeBlock hch, hcounts]

/-- `all_off`'s block. -/
theorem block_allOff (hc : c.Lawful) (hai : g.AutoIncrement) :
    ∀ ch < channels, (c.block g allLedOnL [0, 0, 0, full]).channelCounts ch = fullOff := by
  intro ch hch
  have hblock : ∀ r, OfChannel r → c.block g allLedOnL [0, 0, 0, full] r =
      g.writeBlock allLedOnL [0, 0, 0, full] r :=
    hc.block g _ _ hai (.inr fun i hi => ⟨Nat.le_add_right _ _, Nat.add_lt_add_left hi _⟩)
  rw [Registers.channelCounts_congr hch hblock, Registers.channelCounts_allOff hch]

/-- `all_off`'s block, on a chip without auto-increment: what was off is off. -/
theorem block_allOff_held (hc : c.Lawful) (hai : ¬g.AutoIncrement) (hoff : g.AllOff) :
    (c.block g allLedOnL [0, 0, 0, full]).AllOff := by
  intro ch hch
  have hblock : ∀ r, OfChannel r → c.block g allLedOnL [0, 0, 0, full] r =
      g.writeHeld allLedOnL [0, 0, 0, full] r :=
    hc.held g _ _ hai (.inr ⟨le_rfl, Nat.lt_add_of_pos_right (by decide)⟩)
  rw [Registers.channelCounts_congr hch hblock, IsFullOff, Registers.channelCounts_held hch]
  exact hoff ch hch

/-- A transaction that fails, unless it is a block that has begun. -/
theorem fails_channelCounts {r : ChannelRequest} (hc : c.Lawful) (hp : p = r.program ∨ p.Calm)
    (htaken : p.IsBlock → taken = 0) (h : p.fails c taken g = some q) :
    ∀ ch < channels, q.2.channelCounts ch = g.channelCounts ch := by
  intro ch hch
  cases p with
  | ret => cases h
  | raise e => cases h
  | read r k => cases h; rfl
  | writeByte a v rest =>
      cases h
      obtain hp | hp := hp
      · -- no request's program begins with a byte
        exact absurd hp (program_ne_writeByte r)
      · refine Registers.channelCounts_congr hch fun reg hreg => ?_
        dsimp only
        split
        · rfl
        · exact hc.byte g a v reg hp.1 hreg
  | writeBlock a data rest =>
      cases h
      rw [htaken trivial, List.take_zero, hc.nothing]

end BusProgram

/-- Where `all_off` has auto-increment, or finds the registers spared, it leaves every channel
off. -/
def Chip.Spares (c : Chip) (spared : Registers → Prop) (off : Counts → Prop) : Prop :=
  ∀ g : Registers, g.AutoIncrement ∨ spared g → ∀ ch < channels,
    off ((c.block g allLedOnL [0, 0, 0, full]).channelCounts ch)

/-- A chip that has every channel off keeps it so. -/
theorem Chip.Lawful.spares_allOff {c : Chip} (hc : c.Lawful) :
    c.Spares Registers.AllOff IsFullOff := by
  intro g h ch hch
  by_cases hai : g.AutoIncrement
  · rw [BusProgram.block_allOff hc hai ch hch]
    rfl
  · exact BusProgram.block_allOff_held hc hai (h.resolve_left hai) ch hch

/-- With auto-increment throughout, `all_off` leaves the counts of a channel that is off. -/
theorem Chip.Lawful.spares_none {c : Chip} (hc : c.Lawful) :
    c.Spares (fun _ => False) (· = fullOff) :=
  fun _ h => BusProgram.block_allOff hc (h.resolve_right id)

namespace Outputs

variable {n : Outputs} {off : Counts → Prop} {g g' : Registers} {ch : ℕ} {d : Duty}

theorem shown_start : (⟨false, fun _ => none⟩ : Outputs).Shown off g := fun _ _ h => nomatch h

theorem Shown.same (h : n.Shown off g)
    (hg : ∀ ch < channels, g'.channelCounts ch = g.channelCounts ch) : n.Shown off g' := by
  intro ch hch
  have hn := h ch hch
  rwa [← hg ch hch] at hn

theorem shown_allOff (n : Outputs) (hg : ∀ ch < channels, off (g.channelCounts ch)) :
    n.allOff.Shown off g :=
  fun ch hch _ => hg ch hch

theorem darkened_landed (r : ChannelRequest) (p : BusProgram) (h : n.darkened = true) :
    (n.landed r p).darkened = true := by
  cases p with
  | writeBlock reg data rest =>
      match r with
      | .open _ => rfl
      | .apply _ (.pwm _) => exact h
      | .apply _ (.binary _) => exact h
      | .driveSafe _ => exact h
  | ret => exact h
  | raise e => exact h
  | read reg k => exact h
  | writeByte reg v rest => exact h

theorem Shown.write (h : n.Shown off g) (hg : ∀ ch' < channels, g'.channelCounts ch' =
    if ch' = ch then dutyToCounts d else g.channelCounts ch') : (n.write ch d).Shown off g' := by
  intro ch' hch'
  have hn := h ch' hch'
  have hcounts := hg ch' hch'
  by_cases he : ch' = ch
  · subst he
    simpa [Outputs.write] using hcounts
  · rw [if_neg he] at hcounts
    simpa [Outputs.write, hcounts, he] using hn

end Outputs

/-- **What a transaction of a call leaves**: channels that are as before, or as the request is to
have them. -/
theorem lands_spec {c : Chip} {r : ChannelRequest} {p : BusProgram} {g : Registers} {value : ℕ}
    {q : BusProgram × Registers} {n : Outputs} {off : Counts → Prop} {spared : Registers → Prop}
    (hc : c.Lawful) (hspared : c.Spares spared off) (hp : p = r.program ∨ p.Calm)
    (hai : p.IsBlock → g.AutoIncrement ∨ p.IsAllLed ∧ spared g)
    (h : p.lands c value g = some q) (hn : n.Shown off g) : (n.landed r p).Shown off q.2 := by
  obtain rfl | hp := hp
  · have hwrite : ∀ ch d, ((BusProgram.writeChannel ch d).IsBlock → g.AutoIncrement ∨
          (BusProgram.writeChannel ch d).IsAllLed ∧ spared g) →
        (BusProgram.writeChannel ch d).lands c value g = some q →
        (∃ reg data, BusProgram.writeChannel ch d = .writeBlock reg data .ret) ∧
          (n.write ch d).Shown off q.2 := by
      intro ch d hai h
      -- a channel's registers are below those of all channels
      have hinc : g.AutoIncrement := by
        obtain he | ⟨hch, _, _, _, _, he, -⟩ := BusProgram.writeChannel_eq ch d
        · rw [he] at h
          cases h
        · rw [he] at hai
          refine (hai trivial).resolve_right fun hall => ?_
          have hreg : led0OnL + 4 * ch = allLedOnL := hall.1
          simp only [led0OnL, allLedOnL, channels] at hreg hch
          omega
      obtain ⟨he, hg⟩ := BusProgram.lands_writeChannel hc hinc h
      exact ⟨he, hn.write hg⟩
    match r with
    | .open _ =>
        obtain ⟨rest, he, -⟩ := BusProgram.initialiseSync_eq
        simp only [ChannelRequest.program, he] at h hai ⊢
        cases h
        exact n.shown_allOff (hspared g ((hai trivial).imp_right And.right))
    | .apply ch (.pwm d) =>
        obtain ⟨⟨reg, data, he⟩, hshown⟩ := hwrite ch d hai h
        simp only [ChannelRequest.program, he]
        exact hshown
    | .apply ch (.binary _) => cases h
    | .driveSafe ch =>
        obtain ⟨⟨reg, data, he⟩, hshown⟩ := hwrite ch Duty.zero hai h
        simp only [ChannelRequest.program, he]
        exact hshown
  · have hg := BusProgram.lands_calm hc hp h
    cases p with
    | writeBlock => cases hp
    | ret => exact hn.same hg
    | raise => exact hn.same hg
    | read => exact hn.same hg
    | writeByte => exact hn.same hg

/-! ### Runs -/

namespace Pca9685Device

variable {κ μ : Type} {c : Chip} {s s' : Pca9685Device κ μ} {n : BusNotes κ}
  {a : ChipAction κ μ} {k : κ} {off : Counts → Prop} {spared : Registers → Prop}

/-- Nobody has called yet. -/
theorem inv_start (g : Registers) : Inv (start g : Pca9685Device κ μ) :=
  ⟨fun _ => iff_of_false nofun id, fun _ => iff_of_false nofun id, nofun, fun _ => rfl⟩

/-- The call has come to its thread. -/
def Started : Option (ChipCall μ) → Prop
  | some (_, .offloaded _) => True
  | some (_, .done _) => True
  | _ => False

/-- The locks, and what they are for. -/
structure Noted (s : Pca9685Device κ μ) (n : BusNotes κ) : Prop where
  inv : Inv s
  contiguous : Contiguous n.trace
  last : ∀ k, (s.threads k).isSome → k ∈ n.trace → n.trace.getLast? = some k
  started : ∀ k ∈ n.trace, Started (s.calls k)

/-- Nothing was written yet. -/
theorem noted_start (g : Registers) : Noted (start g : Pca9685Device κ μ) .start :=
  ⟨inv_start g, contiguous_nil, nofun, nofun⟩

/-- A thread on the bus has the lock. -/
theorem Inv.onBus (h : Inv s) (hk : (s.threads k).isSome) : OnBus (s.calls k) := by
  obtain ⟨p, hp⟩ := Option.isSome_iff_exists.mp hk
  have hcall := h.calls k
  rw [hp] at hcall
  obtain ⟨r, o, hc, -⟩ := hcall.of_thread
  rw [hc]
  trivial

/-- There is one thread on the bus. -/
theorem Inv.one_thread {j k : κ} (h : Inv s) (hj : (s.threads j).isSome)
    (hk : (s.threads k).isSome) : j = k :=
  h.lock.unique (h.onBus hj) (h.onBus hk)

/-- A transaction of the thread that is on the bus. -/
theorem Noted.transacted {m : Outputs} (h : Noted s n) (hi : Inv s') (hp : (s.threads k).isSome)
    (hthreads : ∀ j, (s'.threads j).isSome → (s.threads j).isSome) (hcalls : s'.calls = s.calls) :
    Noted s' ⟨n.trace ++ [k], m⟩ := by
  refine ⟨hi, h.contiguous.snoc (h.last k hp), fun j hj _ => ?_, fun j hj => ?_⟩
  · rw [h.inv.one_thread (hthreads j hj) hp]
    simp
  · rw [hcalls]
    obtain hj | hj := List.mem_append.mp hj
    · exact h.started j hj
    · obtain rfl := List.mem_singleton.mp hj
      have honbus := h.inv.onBus hp
      revert honbus
      rcases s.calls j with _ | ⟨r, _ | _ | _ | _⟩ <;> simp [OnBus, Started]

/-- A step that nothing comes of on the bus. -/
theorem Noted.quiet (h : Noted s n) (hi : Inv s')
    (hthreads : ∀ j, (s'.threads j).isSome → (s.threads j).isSome ∨ ¬Started (s.calls j))
    (hcalls : ∀ j, Started (s.calls j) → Started (s'.calls j)) : Noted s' n := by
  refine ⟨hi, h.contiguous, fun j hj hmem => ?_, fun j hj => hcalls j (h.started j hj)⟩
  obtain hj | hnew := hthreads j hj
  · exact h.last j hj hmem
  · exact absurd (h.started j hmem) hnew

variable [DecidableEq κ]

/-- **Every step keeps the locks.** -/
theorem inv_step (h : Inv s) (hs : s.step c a = some s') : Inv s' := by
  cases step_moves hs with
  | @asked k r st hc hst =>
      have ht := h.calls k
      rw [hc] at ht
      obtain rfl | rfl := hst
      · exact h.setCall (by rw [hc]; exact .rfl) (by rw [hc]; exact .rfl) ht
      · exact h.setCall (by rw [hc]; exact .rfl) (by rw [hc]; exact .rfl) ⟨ht, nofun⟩
  | @gaveUp k r hc =>
      have ht := h.calls k
      rw [hc] at ht
      exact h.setCall (by rw [hc]; exact .rfl) (by rw [hc]; exact .rfl) ⟨ht, nofun⟩
  | @gaveUpLocking k r hc =>
      have ht := h.calls k
      rw [hc] at ht
      refine ⟨h.lock.keep (by rw [hc]; exact .rfl), h.initLock.release (by rw [hc]; trivial) id,
        nofun, fun l => ?_⟩
      have hk : CallOk s.initialised (some (r, (.done .cancelled : CallStage μ))) (s.threads k) :=
        ⟨ht.2, nofun⟩
      have hl := calls_update k h.calls id hk l
      rwa [Function.update_eq_self] at hl
  | @found k r pending hc hi =>
      have ht := h.calls k
      rw [hc] at ht
      exact h.setCall (by rw [hc]; exact .rfl) (by rw [hc]; exact .rfl) ⟨ht, fun _ _ => hi⟩
  | @locks k r pending hc hr hfree hi =>
      have ht := h.calls k
      rw [hc] at ht
      have hlock := h.initLock
      rw [hfree] at hlock
      refine ⟨h.lock.keep (by rw [hc]; exact .rfl), hlock.take trivial, fun _ => hi, fun l => ?_⟩
      have hk : CallOk s.initialised (some (r, (.locking : CallStage μ))) (s.threads k) := ⟨hr, ht⟩
      have hl := calls_update k h.calls id hk l
      rwa [Function.update_eq_self] at hl
  | @starts k r st pending hc hst hfree =>
      have ht := h.calls k
      rw [hc] at ht
      refine h.startThread hfree ?_
      rw [hc]
      obtain ⟨rfl, hr⟩ | rfl := hst
      · exact iff_of_false (by simp [hr]) id
      · exact iff_of_true ht.1 trivial
  | @lands k value p q hp hq =>
      have hk := h.calls k
      rw [hp] at hk
      obtain ⟨r, o, -, -, -, -, hprog⟩ := hk.of_thread
      have hthread := h.setThread hp (BusProgram.calm_of_lands hprog hq)
      exact ⟨hthread.lock, hthread.initLock, hthread.fresh, hthread.calls⟩
  | fails hp hq =>
      have hthread := h.setThread hp (BusProgram.calm_of_fails hq)
      exact ⟨hthread.lock, hthread.initLock, hthread.fresh, hthread.calls⟩
  | ends hp ho => exact h.endThread hp
  | goesOn hc ha ho => exact h.settle hc ha ho

theorem started_update {f : κ → Option (ChipCall μ)} {c : Option (ChipCall μ)}
    (hk : Started (f k) → Started c) (j : κ) (hj : Started (f j)) :
    Started (Function.update f k c j) := by
  by_cases he : j = k
  · subst he
    rw [Function.update_self]
    exact hk hj
  · rwa [Function.update_of_ne he]

/-- A thread that goes on, or ends, was there before. -/
theorem threads_update {t : Option BusProgram} (hk : (s.threads k).isSome) (j : κ)
    (hj : (Function.update s.threads k t j).isSome) : (s.threads j).isSome := by
  by_cases he : j = k
  · exact he ▸ hk
  · rwa [Function.update_of_ne he] at hj

/-- **Step.**  What was noted is what was written. -/
theorem noted_step (h : Noted s n) (hs : s.step c a = some s') : Noted s' (s.note a s' n) := by
  have hi := inv_step h.inv hs
  cases step_moves hs with
  | asked hc hst =>
      exact h.quiet hi (fun _ => .inl) (started_update (by rw [hc]; exact False.elim))
  | gaveUp hc =>
      exact h.quiet hi (fun _ => .inl) (started_update (by rw [hc]; exact False.elim))
  | gaveUpLocking hc =>
      exact h.quiet hi (fun _ => .inl) (started_update (by rw [hc]; exact False.elim))
  | found hc _ =>
      exact h.quiet hi (fun _ => .inl) (started_update (by rw [hc]; exact False.elim))
  | locks hc _ _ _ =>
      exact h.quiet hi (fun _ => .inl) (started_update (by rw [hc]; exact False.elim))
  | @starts k r st pending hc hst hfree =>
      have hnew : ¬Started (s.calls k) := by
        rw [hc]
        obtain ⟨rfl, -⟩ | rfl := hst <;> exact id
      refine h.quiet hi (fun j hj => ?_) (started_update fun _ => trivial)
      by_cases he : j = k
      · exact .inr (he ▸ hnew)
      · exact .inl (by rwa [startThread_threads, Function.update_of_ne he] at hj)
  | @lands k value p q hp hq =>
      have hk := h.inv.calls k
      rw [hp] at hk
      obtain ⟨r, o, hc, -⟩ := hk.of_thread
      have hsome : (s.threads k).isSome := by simp [hp]
      have hnote : s.note (.lands k value) { (s.setThread k (some q.1)) with registers := q.2 } n =
          ⟨n.trace ++ [k], n.outputs.landed r p⟩ := by
        simp only [note, hc, hp]
      rw [hnote]
      exact h.transacted hi hsome (threads_update hsome) rfl
  | @fails k taken p q hp hq =>
      have hsome : (s.threads k).isSome := by simp [hp]
      exact h.transacted hi hsome (threads_update hsome) rfl
  | @ends k p o hp ho =>
      have hsome : (s.threads k).isSome := by simp [hp]
      refine h.quiet hi (fun j hj => .inl ?_) (fun j hj => ?_)
      · rw [endThread_threads] at hj
        exact threads_update hsome j hj
      · simp only [endThread]
        split
        · exact started_update (fun _ => by trivial) j hj
        · exact hj
  | @goesOn k r o o' a hc ha ho =>
      refine h.quiet hi (fun j hj => .inl ?_) (fun j hj => ?_)
      · rwa [settle_threads] at hj
      · rw [settle]
        split
        · exact started_update (fun _ => by trivial) j hj
        · exact started_update (fun _ => by trivial) j hj

/-- **The registers are as the channels were told**, if each block is whole or spared. -/
theorem shown_step (hc : c.Lawful) (hspared : c.Spares spared off) (hw : s.Whole spared a)
    (hn : Noted s n) (h : n.outputs.Shown off s.registers) (hs : s.step c a = some s') :
    (s.note a s' n).outputs.Shown off s'.registers := by
  cases step_moves hs with
  | @lands k value p q hp hq =>
      have hk := hn.inv.calls k
      rw [hp] at hk
      obtain ⟨r, o, hcall, -, -, -, hprog⟩ := hk.of_thread
      simp only [note, hcall, hp]
      exact lands_spec hc hspared hprog (hw p hp) hq h
  | @fails k taken p q hp hq =>
      have hk := hn.inv.calls k
      rw [hp] at hk
      obtain ⟨r, o, -, -, -, -, hprog⟩ := hk.of_thread
      exact h.same (BusProgram.fails_channelCounts hc hprog (hw p hp) hq)
  | @ends k p o hp ho => rwa [endThread_registers]
  | @goesOn k r o o' a hcall ha ho => rwa [settle_registers]
  | asked => exact h
  | gaveUp => exact h
  | gaveUpLocking => exact h
  | found => exact h
  | locks => exact h
  | starts => exact h

/-! ### Initialised -/

/-- An `open` that has come past its first transaction without an error has darkened the chip. -/
def CallDark (darkened : Bool) : Option (ChipCall μ) → Option BusProgram → Prop
  | some (.open _, .offloaded o), t =>
      (∀ p, t = some p → p = .initialiseSync ∨ (∃ e, p = .raise e) ∨ darkened = true) ∧
        (o.thread = some (.ok ()) → darkened = true)
  | _, _ => True

/-- The flag is not set before the chip was darkened. -/
structure Darkened (s : Pca9685Device κ μ) (darkened : Bool) : Prop where
  initialised : s.initialised = true → darkened = true
  calls : ∀ k, CallDark darkened (s.calls k) (s.threads k)

omit [DecidableEq κ] in
theorem CallDark.of_true (c : Option (ChipCall μ)) (t : Option BusProgram) :
    CallDark true c t := by
  rcases c with _ | ⟨_ | _ | _, _ | _ | _ | _⟩ <;>
    first | trivial | exact ⟨fun _ _ => .inr (.inr rfl), fun _ => rfl⟩

theorem callDark_update {d : Bool} {c : Option (ChipCall μ)} {t : Option BusProgram} (k : κ)
    (h : ∀ k, CallDark d (s.calls k) (s.threads k)) (hk : CallDark d c t) (l : κ) :
    CallDark d (Function.update s.calls k c l) (Function.update s.threads k t l) := by
  by_cases hl : l = k
  · subst hl
    rwa [Function.update_self, Function.update_self]
  · rw [Function.update_of_ne hl, Function.update_of_ne hl]
    exact h l

/-- A call that is not at its `await` says nothing. -/
theorem Darkened.setCall {d : Bool} {r : ChannelRequest} {c : CallStage μ} (h : Darkened s d)
    (hc : CallDark d (some (r, c)) (s.threads k)) : Darkened (s.setCall k r c) d := by
  refine ⟨h.initialised, fun l => ?_⟩
  have hl := callDark_update k h.calls hc l
  rwa [Function.update_eq_self] at hl

theorem Darkened.setThread {d : Bool} {t : Option BusProgram} (h : Darkened s d)
    (ht : CallDark d (s.calls k) t) : Darkened (s.setThread k t) d := by
  refine ⟨h.initialised, fun l => ?_⟩
  have hl := callDark_update k h.calls ht l
  rwa [Function.update_eq_self] at hl

omit [DecidableEq κ] in
/-- What has landed is not undone. -/
theorem darkened_note (h : n.outputs.darkened = true) :
    (s.note a s' n).outputs.darkened = true := by
  cases a with
  | lands k value =>
      simp only [note]
      split
      · exact Outputs.darkened_landed _ _ h
      · exact h
  | request => exact h
  | interrupted => exact h
  | acquires => exact h
  | fails => exact h
  | ends => exact h
  | offload => exact h

omit [DecidableEq κ] in
theorem CallDark.of_not_offloaded {d : Bool} {r : ChannelRequest} {st : CallStage μ}
    {t : Option BusProgram} (hst : ∀ o, st ≠ .offloaded o) : CallDark d (some (r, st)) t := by
  cases st with
  | offloaded o => exact absurd rfl (hst o)
  | entering => cases r <;> trivial
  | locking => cases r <;> trivial
  | done e => cases r <;> trivial

omit [DecidableEq κ] in
/-- An `open`'s first transaction is `all_off`. -/
theorem CallDark.of_lands {c : Chip} {m : Outputs} {r : ChannelRequest} {st : CallStage μ}
    {p : BusProgram} {q : BusProgram × Registers} {value : ℕ} {g : Registers}
    (h : CallDark false (some (r, st)) (some p)) (hq : p.lands c value g = some q)
    (hd : (m.landed r p).darkened = false) : CallDark false (some (r, st)) (some q.1) := by
  cases r with
  | «open» ch =>
      cases st with
      | offloaded o =>
          obtain rfl | ⟨e, rfl⟩ | hdark := h.1 p rfl
          · cases hd
          · cases hq
          · cases hdark
      | entering => trivial
      | locking => trivial
      | done e => trivial
  | apply => trivial
  | driveSafe => trivial

omit [DecidableEq κ] in
theorem CallDark.of_fails {c : Chip} {d : Bool} {call : Option (ChipCall μ)}
    {t : Option BusProgram} {p : BusProgram} {q : BusProgram × Registers} {taken : ℕ}
    {g : Registers} (h : CallDark d call t) (hq : p.fails c taken g = some q) :
    CallDark d call (some q.1) := by
  obtain ⟨e, he⟩ := BusProgram.eq_raise_of_fails hq
  rw [he]
  rcases call with _ | ⟨r, st⟩
  · trivial
  · cases r with
    | «open» ch =>
        cases st with
        | offloaded o =>
            exact ⟨fun p' hp' => .inr (.inl ⟨e, (Option.some.inj hp').symm⟩), h.2⟩
        | entering => trivial
        | locking => trivial
        | done e => trivial
    | apply => trivial
    | driveSafe => trivial

omit [DecidableEq κ] in
/-- A program that returns has not failed, and is past its first transaction. -/
theorem CallDark.of_outcome {r : ChannelRequest} {o : Offload BusError μ} {p : BusProgram}
    {x : Except BusError Unit} (h : CallDark false (some (r, .offloaded o)) (some p))
    (hx : p.outcome = some x) :
    CallDark false (some (r, .offloaded { o with thread := some x })) none := by
  cases r with
  | «open» ch =>
      refine ⟨nofun, fun hok => ?_⟩
      obtain rfl := Option.some.inj hok
      obtain rfl | ⟨e, rfl⟩ | hdark := h.1 p rfl
      · cases hx
      · cases hx
      · exact hdark
  | apply => trivial
  | driveSafe => trivial

/-- A call that returns sets the flag, and its thread has returned. -/
theorem Darkened.settle {d : Bool} {r : ChannelRequest} {o o' : Offload BusError μ}
    (h : Darkened s d) (hc : s.calls k = some (r, .offloaded o)) (hsound : o'.Sound)
    (hthread : o'.thread = o.thread) : Darkened (s.settle k r o') d := by
  have hdk := h.calls k
  rw [hc] at hdk
  rw [Pca9685Device.settle]
  split
  · refine h.setCall ?_
    cases r with
    | «open» ch => exact ⟨hdk.1, by rw [hthread]; exact hdk.2⟩
    | apply => trivial
    | driveSafe => trivial
  · next e hw =>
      have h' := h.setCall (k := k) (r := r) (c := .done e.toCallEnd) (.of_not_offloaded nofun)
      refine ⟨fun hi => ?_, h'.calls⟩
      simp only [finish, Bool.or_eq_true, Bool.and_eq_true, decide_eq_true_eq] at hi
      obtain hi | ⟨hr, he⟩ := hi
      · exact h.initialised hi
      · cases r with
        | «open» ch =>
            cases e with
            | returned => exact hdk.2 (hthread ▸ hsound.task _ (hsound.returned hw))
            | raised e => cases he
            | cancelled exc => cases he
        | apply => cases hr
        | driveSafe => cases hr

/-- **The flag is set after `all_off`.** -/
theorem darkened_step (hn : Noted s n) (h : Darkened s n.outputs.darkened)
    (hs : s.step c a = some s') : Darkened s' (s.note a s' n).outputs.darkened := by
  cases hd' : (s.note a s' n).outputs.darkened with
  | true => exact ⟨fun _ => rfl, fun _ => .of_true _ _⟩
  | false =>
      -- then no `all_off` has landed before either
      have hd : n.outputs.darkened = false := by
        cases hd : n.outputs.darkened with
        | false => rfl
        | true => exact absurd (hd'.symm.trans (darkened_note hd)) nofun
      rw [hd] at h
      cases step_moves hs with
      | asked hc hst =>
          refine h.setCall (.of_not_offloaded ?_)
          obtain rfl | rfl := hst <;> nofun
      | gaveUp hc => exact h.setCall (.of_not_offloaded nofun)
      | @gaveUpLocking k r hc =>
          have h' := h.setCall (k := k) (r := r) (c := .done .cancelled) (.of_not_offloaded nofun)
          exact ⟨h'.initialised, h'.calls⟩
      | found hc hi => exact h.setCall (.of_not_offloaded nofun)
      | @locks k r pending hc hr hfree hi =>
          have h' := h.setCall (k := k) (r := r) (c := .locking) (.of_not_offloaded nofun)
          exact ⟨h'.initialised, h'.calls⟩
      | @starts k r st pending hc hst hfree =>
          refine ⟨h.initialised, callDark_update k h.calls ?_⟩
          cases r with
          | «open» ch => exact ⟨fun p hp => .inl (Option.some.inj hp).symm, nofun⟩
          | apply => trivial
          | driveSafe => trivial
      | @lands k value p q hp hq =>
          have hk := hn.inv.calls k
          rw [hp] at hk
          obtain ⟨r, o, hc, -⟩ := hk.of_thread
          have hdk := h.calls k
          rw [hc, hp] at hdk
          simp only [note, hc, hp] at hd'
          have hdark : CallDark false (s.calls k) (some q.1) := by
            rw [hc]
            exact hdk.of_lands hq hd'
          have h' := h.setThread hdark
          exact ⟨h'.initialised, h'.calls⟩
      | @fails k taken p q hp hq =>
          have h' := h.setThread ((h.calls k).of_fails hq)
          exact ⟨h'.initialised, h'.calls⟩
      | @ends k p x hp hx =>
          have hk := hn.inv.calls k
          rw [hp] at hk
          obtain ⟨r, o, hc, -, -, ht, -⟩ := hk.of_thread
          have hdk := h.calls k
          rw [hc, hp] at hdk
          rw [endThread_eq hc (Offload.step_threadEnds ht x)]
          exact ⟨h.initialised, callDark_update k h.calls (hdk.of_outcome hx)⟩
      | @goesOn k r o o' a hc ha ho =>
          have hk := hn.inv.calls k
          rw [hc] at hk
          exact h.settle hc (Offload.sound_step hk.1 ho) (Offload.thread_step ha ho)

/-! ### Every run -/

variable {g : Registers} {as : List (ChipAction κ μ)}

/-- One thread at a time, over a run. -/
theorem inv_run (h : (chipCalls c κ μ).Run (start g) as s) : Inv s :=
  h.invariant (inv_start g) fun _ _ _ _ hi hs => inv_step hi hs

theorem noted_run (h : (notedChipCalls c κ μ).Run (start g, .start) as (s, n)) :
    Noted s n ∧ Darkened s n.outputs.darkened := by
  have hstart : Darkened (start g : Pca9685Device κ μ) false := ⟨nofun, fun _ => trivial⟩
  refine h.invariant (I := fun p => Noted p.1 p.2 ∧ Darkened p.1 p.2.outputs.darkened)
    ⟨noted_start g, hstart⟩ ?_
  exact Machine.ghost_preserves fun s n a s' _ hI hs =>
    ⟨noted_step hI.1 hs, darkened_step hI.1 hI.2 hs⟩

theorem shown_run (hc : c.Lawful) (hspared : c.Spares spared off)
    (h : (notedChipCalls c κ μ).RunIf (fun p a => p.1.Whole spared a) (start g, .start) as
      (s, n)) : n.outputs.Shown off s.registers := by
  refine (h.invariant (I := fun p => Noted p.1 p.2 ∧ p.2.outputs.Shown off p.1.registers)
    ⟨noted_start g, Outputs.shown_start⟩ ?_).2
  exact Machine.ghost_preserves fun s n a s' hw hI hs =>
    ⟨noted_step hI.1 hs, shown_step hc hspared hw hI.1 hI.2 hs⟩

omit [DecidableEq κ] in
/-- Once an `open` has returned, nobody has `_init_lock`. -/
theorem Inv.opened {j : κ} {ch ch' : ℕ} {st : CallStage μ} (h : Inv s)
    (hj : s.calls j = some (.open ch, .done .returned)) (hk : s.calls k = some (.open ch', st)) :
    s.threads k = none := by
  have hopened := h.calls j
  rw [hj] at hopened
  have hinit : s.initialised = true := hopened.2 rfl rfl
  by_contra hthread
  obtain ⟨p, hp⟩ := Option.ne_none_iff_exists'.mp hthread
  have hcall := h.calls k
  rw [hp] at hcall
  obtain ⟨r, o, hc, -⟩ := hcall.of_thread
  have hheld : s.initLock = some k := by
    refine (h.initLock k).mpr ?_
    rw [hc]
    cases hk.symm.trans hc
    rfl
  simp [h.fresh (by simp [hheld])] at hinit

/-- The call has begun and not ended. -/
def InFlight (s : Pca9685Device κ μ) (k : κ) : Prop :=
  ∃ r st, s.calls k = some (r, st) ∧ ∀ e, st ≠ .done e

omit [DecidableEq κ] in
/-- Calls leave nothing behind. -/
theorem Inv.idle (h : Inv s) (hidle : ∀ k, ¬InFlight s k) :
    s.lock = none ∧ s.initLock = none ∧ ∀ k, s.threads k = none := by
  have hbus : ∀ k, ¬OnBus (s.calls k) ∧ ¬Initialising (s.calls k) := by
    intro k
    have hk := hidle k
    rcases hc : s.calls k with _ | ⟨r, _ | _ | o | e⟩
    · exact ⟨id, id⟩
    · exact ⟨id, id⟩
    · exact absurd ⟨r, _, hc, nofun⟩ hk
    · exact absurd ⟨r, _, hc, nofun⟩ hk
    · exact ⟨id, id⟩
  refine ⟨?_, ?_, fun k => ?_⟩
  · exact Option.eq_none_iff_forall_ne_some.mpr fun k e => (hbus k).1 ((h.lock k).mp e)
  · exact Option.eq_none_iff_forall_ne_some.mpr fun k e => (hbus k).2 ((h.initLock k).mp e)
  · by_contra hthread
    exact (hbus k).1 (h.onBus (Option.isSome_iff_ne_none.mpr hthread))

end Pca9685Device

variable {κ μ : Type} [DecidableEq κ] {c : Chip} {g : Registers} {as : List (ChipAction κ μ)}
  {s : Pca9685Device κ μ} {n : BusNotes κ}

/-- **One chip, one initialisation, whole writes.** -/
theorem one_chip (h : (notedChipCalls c κ μ).Run (.start g, .start) as (s, n)) :
    Contiguous n.trace ∧
    (∀ j k, (s.threads j).isSome → (s.threads k).isSome → j = k) ∧
    ((∃ j ch, s.calls j = some (.open ch, .done .returned)) →
      n.outputs.darkened = true ∧
        ∀ k ch st, s.calls k = some (.open ch, st) → s.threads k = none) ∧
    ((∀ k, ¬s.InFlight k) → s.lock = none ∧ s.initLock = none ∧ ∀ k, s.threads k = none) ∧
    (c.Lawful → (notedChipCalls c κ μ).RunIf (fun p a => p.1.Whole Registers.AllOff a)
        (.start g, .start) as (s, n) →
      ∀ ch < channels,
        match n.outputs.written ch with
        | some duty => s.registers.channelCounts ch = dutyToCounts duty
        | none => n.outputs.darkened = true → IsFullOff (s.registers.channelCounts ch)) ∧
    (c.Lawful → (notedChipCalls c κ μ).RunIf (fun p a => p.1.Whole (fun _ => False) a)
        (.start g, .start) as (s, n) →
      ∀ ch < channels, n.outputs.written ch = none → n.outputs.darkened = true →
        s.registers.channelCounts ch = fullOff) := by
  obtain ⟨hn, hd⟩ := Pca9685Device.noted_run h
  refine ⟨hn.contiguous, fun j k => hn.inv.one_thread, ?_, hn.inv.idle,
    fun hc hw => Pca9685Device.shown_run hc hc.spares_allOff hw, fun hc hw ch hch hwritten => ?_⟩
  · rintro ⟨j, ch, hj⟩
    have hopened := hn.inv.calls j
    rw [hj] at hopened
    exact ⟨hd.initialised (hopened.2 rfl rfl), fun k ch' st hk => hn.inv.opened hj hk⟩
  · have hshown := Pca9685Device.shown_run hc hc.spares_none hw ch hch
    rwa [hwritten] at hshown

/-- A PCA9685: the prescaler is written only in sleep, and without auto-increment a block is all
to one register. -/
def Chip.pca9685 : Chip where
  byte g a v := if a = preScale ∧ g mode1 &&& m1Sleep = 0 then g else g.write a v
  block g a data :=
    if g.AutoIncrement then g.writeBlock a data else g.writeHeld a data

/-- A chip that keeps its registers as the datasheet says. -/
theorem Chip.pca9685_lawful : Chip.pca9685.Lawful where
  byte g a v r ha hr := by
    have hout : g.write a v r = g r := by
      refine if_neg ?_
      simp only [IsConfig, OfChannel, mode1, mode2, preScale, led0OnL, allLedOnL, channels]
        at ha hr ⊢
      omega
    simp only [pca9685]
    split
    · rfl
    · exact hout
  nothing g a := ite_self g
  block g a data hai _ r _ := by simp only [pca9685, if_pos hai]
  held g a data hai _ r _ := by simp only [pca9685, if_neg hai]

/-- The thread of a call to its end, and the call. -/
def landsAll {κ : Type} (k : κ) (values : List ℕ) : List (ChipAction κ Unit) :=
  values.map (.lands k) ++
    [.ends k, .offload k .taskEnds, .offload k .propagates, .offload k .wakes]

/-- What a run of the service leaves: awake, with auto-increment, and the channels lit. -/
def registersLeft : Registers := fun r => if r = mode1 then 0x21 else 7

/-- The registers at power-on: asleep, without auto-increment, and every channel full off. -/
def registersAtPowerOn : Registers := fun r =>
  if r = mode1 then 0x11
  else if r = mode2 then 0x04
  else if r = preScale then 0x1e
  else if led0OnL ≤ r ∧ r < led0OnL + 4 * channels ∧ (r - led0OnL) % 4 = 3 then full
  else 0

/-- An `open` is cancelled in its initialise, while another waits; then a channel is lit. -/
def cancelledOpen (found : ℕ) : List (ChipAction ℕ Unit) :=
  [.request 0 (.open 0), .request 1 (.open 3), .acquires 0 none, .acquires 0 none, .lands 0 0,
    .lands 0 found, .offload 0 (.cancel ()), .offload 0 .wakes] ++
  landsAll 0 [0, 0, 12, 0x04, 0, 0, 0] ++ [.acquires 1 none, .acquires 1 none] ++
  landsAll 1 [0, 0x21, 0, 0, 12, 0x04, 0, 0, 0] ++
  [.request 2 (.apply 3 (.pwm ⟨1 / 2, half_duty⟩)), .acquires 2 none] ++ landsAll 2 [0]

/-- The second `open` initialises the chip, as the first one did not get that far. -/
theorem cancelledOpen_ends (g : Registers) (found : ℕ) (spared : Registers → Prop)
    [DecidablePred spared]
    (heval : ((notedChipCalls .pca9685 ℕ Unit).execIf (fun p a => p.1.Whole spared a)
        (.start g, .start) (cancelledOpen found)).map
      (fun p => ((p.1.calls 1).map fun c => (c.1, c.2.ending), p.2.outputs.written 3,
        p.2.outputs.written 0)) =
      some (some (.open 3, some .returned), some ⟨1 / 2, half_duty⟩, none)) :
    ∃ s n, (notedChipCalls .pca9685 ℕ Unit).RunIf (fun p a => p.1.Whole spared a)
        (.start g, .start) (cancelledOpen found) (s, n) ∧
      s.calls 1 = some (.open 3, .done .returned) ∧
      n.outputs.written 3 = some ⟨1 / 2, half_duty⟩ ∧ n.outputs.written 0 = none := by
  obtain ⟨⟨s, n⟩, hexec, hs⟩ := Option.map_eq_some_iff.mp heval
  obtain ⟨hcall, hwritten⟩ := Prod.mk.inj hs
  obtain ⟨⟨r, st⟩, hopen, hst⟩ := Option.map_eq_some_iff.mp hcall
  obtain ⟨rfl, hst⟩ := Prod.mk.inj hst
  obtain rfl := CallStage.eq_done_of_ending hst
  exact ⟨s, n, Machine.execIf_eq_some.mp hexec, hopen, Prod.mk.inj hwritten⟩

/-- A chip that was just powered on, and one that a run of the service left. -/
theorem one_chip_cancelled :
    (∃ s n, (notedChipCalls .pca9685 ℕ Unit).Run (.start registersAtPowerOn, .start)
        (cancelledOpen 0x11) (s, n) ∧ Contiguous n.trace ∧ n.outputs.darkened = true ∧
      s.registers.channelCounts 3 = dutyToCounts ⟨1 / 2, half_duty⟩ ∧
      IsFullOff (s.registers.channelCounts 0)) ∧
    ∃ s n, (notedChipCalls .pca9685 ℕ Unit).Run (.start registersLeft, .start)
        (cancelledOpen 0x21) (s, n) ∧ s.registers.channelCounts 0 = fullOff := by
  refine ⟨?_, ?_⟩
  · obtain ⟨s, n, hwhole, hopen, hthree, hzero⟩ := cancelledOpen_ends registersAtPowerOn 0x11
      Registers.AllOff (by decide +kernel)
    obtain ⟨hcontig, -, hopened, -, hshown, -⟩ := one_chip hwhole.toRun
    have hdark := (hopened ⟨1, 3, hopen⟩).1
    have hlit := hshown Chip.pca9685_lawful hwhole 3 (by decide)
    have hoff := hshown Chip.pca9685_lawful hwhole 0 (by decide)
    rw [hthree] at hlit
    rw [hzero] at hoff
    exact ⟨s, n, hwhole.toRun, hcontig, hdark, hlit, hoff hdark⟩
  · obtain ⟨s, n, hwhole, hopen, -, hzero⟩ := cancelledOpen_ends registersLeft 0x21
      (fun _ => False) (by decide +kernel)
    obtain ⟨-, -, hopened, -, -, hoff⟩ := one_chip hwhole.toRun
    exact ⟨s, n, hwhole.toRun,
      hoff Chip.pca9685_lawful hwhole 0 (by decide) hzero (hopened ⟨1, 3, hopen⟩).1⟩

/-- What was set by hand, before any run of the service: awake, auto-increment clear, and the first
channel at half duty. -/
def registersByHand : Registers := fun r =>
  if r = mode1 then 0x01 else if r = mode2 then 0x04 else if r = led0OnL + 3 then 0x08 else 0

/-- The first `open`, without an error. -/
def firstOpen : List (ChipAction Unit Unit) :=
  [.request () (.open 0), .acquires () none, .acquires () none] ++
  landsAll () [0, 0x01, 0, 0, 12, 0x04, 0, 0, 0]

/-- `open` has returned, no duty was ever written, and the first channel is as lit as it was: the
bytes of `all_off` have all gone to its first register. -/
theorem all_off_in_one_register : ∃ s n,
    (notedChipCalls .pca9685 Unit Unit).Run (.start registersByHand, .start) firstOpen (s, n) ∧
      s.calls () = some (.open 0, .done .returned) ∧ (∀ k, ¬s.InFlight k) ∧
      n.outputs.darkened = true ∧ n.outputs.written 0 = none ∧
      s.registers.channelCounts 0 = (full, 0x800) ∧
      ¬IsFullOff (s.registers.channelCounts 0) := by
  have heval : ((notedChipCalls .pca9685 Unit Unit).exec (.start registersByHand, .start)
      firstOpen).map (fun p => ((p.1.calls ()).map fun c => (c.1, c.2.ending),
        p.2.outputs.darkened, (p.2.outputs.written 0).isNone, p.1.registers.channelCounts 0)) =
      some (some (.open 0, some .returned), true, true, (full, 0x800)) := by
    decide +kernel
  obtain ⟨⟨s, n⟩, hexec, hs⟩ := Option.map_eq_some_iff.mp heval
  simp only [Prod.mk.injEq] at hs
  obtain ⟨hcall, hdark, hwritten, hcounts⟩ := hs
  obtain ⟨⟨r, st⟩, hopen, hst⟩ := Option.map_eq_some_iff.mp hcall
  obtain ⟨rfl, hst⟩ := Prod.mk.inj hst
  obtain rfl := CallStage.eq_done_of_ending hst
  refine ⟨s, n, Machine.exec_eq_some.mp hexec, hopen, fun k => ?_, hdark,
    Option.isNone_iff_eq_none.mp hwritten, hcounts, by rw [hcounts]; decide⟩
  rintro ⟨r, st, hk, hdone⟩
  cases hopen.symm.trans hk
  exact hdone _ rfl

end BellasReef.HardwareIO
