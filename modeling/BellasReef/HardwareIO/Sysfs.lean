import BellasReef.HardwareIO.PwmOutputs
import BellasReef.Support.Machine

/-!
# HardwareIO — Sysfs

One RP1 channel between the driver and the kernel (`PiPwmChannel.open` and `close` in
`pipwm.py`).  The kernel keeps the attributes and refuses the writes that `FakeSysfs` in
`test_pipwm.py` refuses; the driver makes its writes one after the other, and may be stopped at
each of them by an error or by a cancellation, which lets the write that is in its thread land.

* `comesUpDark_iff`: `open` reaches its end, and is dark wherever it stops before, from every state
  of the channel but one kind.  It disables a channel only if it finds it exported, and the enable
  bit outlives the export.
* `comesUpDark_run`: no history of this driver alone, stopped anywhere, leaves that kind behind.
-/

namespace BellasReef.HardwareIO
open BellasReef.Support

/-! ### Kernel -/

/-- What the kernel's `polarity` file reads. -/
inductive Polarity where
  | normal
  | inversed
  deriving DecidableEq, Repr

/-- A channel, as the kernel keeps it; `enabled` and the attributes outlive the export. -/
structure Channel where
  exported : Bool
  enabled : Bool
  dutyCycle : ℕ
  period : ℕ
  polarity : Polarity
  dutyCycle_le : dutyCycle ≤ period

/-- A write to a file of the channel. -/
inductive Write where
  | «export»
  | unexport
  | enable (on : Bool)
  | dutyCycle (ns : ℕ)
  | period (ns : ℕ)
  | polarity (p : Polarity)
  deriving DecidableEq, Repr

/-- `FakeSysfs.write`; `none` where it raises `SysfsError`. -/
def Channel.write (k : Channel) : Write → Option Channel
  | .export => some { k with exported := true }
  | .unexport => some { k with exported := false }
  | .enable on => if k.exported then some { k with enabled := on } else none
  | .dutyCycle ns =>
      if h : k.exported = true ∧ ns ≤ k.period then
        some { k with dutyCycle := ns, dutyCycle_le := h.2 }
      else none
  | .period ns =>
      if h : k.exported = true ∧ k.dutyCycle ≤ ns then
        some { k with period := ns, dutyCycle_le := h.2 }
      else none
  | .polarity p =>
      if k.exported = true ∧ k.enabled = false then some { k with polarity := p } else none

/-- Nothing is emitted. -/
def Channel.Dark (k : Channel) : Prop := k.enabled = false ∨ k.dutyCycle = 0

/-! ### Driver -/

/-- What `PiPwmChannel` was built with. -/
structure PwmConfig where
  periodNs : ℕ
  inverted : Bool

/-- What the configuration asks for. -/
def PwmConfig.polarity (c : PwmConfig) : Polarity :=
  if c.inverted then .inversed else .normal

/-- One `await` of the driver's: a write, or the wait for the exported directory. -/
inductive SysfsStep where
  | write (w : Write)
  | awaitExport
  deriving DecidableEq

/-- The writes of `open` past the first branch. -/
def configure (c : PwmConfig) : List SysfsStep :=
  [.write (.dutyCycle 0), .write (.period c.periodNs), .write (.polarity c.polarity),
    .write (.dutyCycle 0), .write (.enable true)]

/-- `open`, at what `exists` answered. -/
def openSteps (c : PwmConfig) : Bool → List SysfsStep
  | true => .write (.enable false) :: configure c
  | false => .write .export :: .awaitExport :: configure c

/-- `close`. -/
def closeSteps : Bool → List SysfsStep
  | true => [.write (.dutyCycle 0), .write (.enable false), .write .unexport]
  | false => []

/-- What befalls a step: nothing, an error that is not the kernel's answer, or a cancellation. -/
inductive Fate where
  | lands
  | faults
  | cancelled
  deriving DecidableEq, Repr

/-- How the driver's method ends. -/
inductive Ending where
  | returned
  | raised
  | cancelled
  deriving DecidableEq, Repr

/-- What a step makes of the channel; nothing where the kernel refuses it. -/
def Channel.take (k : Channel) : SysfsStep → Option Channel
  | .write w => k.write w
  | .awaitExport => if k.exported then some k else none

/-- The steps in order, each with its fate; those past the list land.  A cancelled write is
waited out in its thread before the `CancelledError` goes on. -/
def play (k : Channel) : List SysfsStep → List Fate → Channel × Ending
  | [], _ => (k, .returned)
  | s :: ss, fates =>
      match fates.headD .lands with
      | .lands =>
          match k.take s with
          | some k' => play k' ss fates.tail
          | none => (k, .raised)
      | .faults => (k, .raised)
      | .cancelled => ((k.take s).getD k, .cancelled)

/-- `PiPwmChannel.open`. -/
def openChannel (c : PwmConfig) (k : Channel) (fates : List Fate) : Channel × Ending :=
  play k (openSteps c k.exported) fates

/-- `PiPwmChannel.close`. -/
def closeChannel (k : Channel) (fates : List Fate) : Channel × Ending :=
  play k (closeSteps k.exported) fates

/-! ### Where it stops -/

variable {c : PwmConfig} {k k' : Channel} {s : SysfsStep} {ss : List SysfsStep}
  {fates : List Fate}

/-- **What every step keeps holds wherever the driver stops.** -/
theorem play_invariant {I : Channel → Prop}
    (hstep : ∀ s ∈ ss, ∀ k k', I k → k.take s = some k' → I k') (h : I k) :
    I (play k ss fates).1 := by
  induction ss generalizing k fates with
  | nil => exact h
  | cons s ss ih =>
      have hs := hstep s List.mem_cons_self
      have hss := fun t ht => hstep t (List.mem_cons_of_mem s ht)
      simp only [play]
      split
      · split
        · next k' hk => exact ih hss (hs k k' h hk)
        · exact h
      · exact h
      · cases hk : k.take s with
        | none => exact h
        | some k' => exact hs k k' h hk

/-- Up to a step, and from it on. -/
theorem play_cons {P : Channel → Prop} (hk : k.take s = some k') (h : P k) (h' : P k')
    (hrest : ∀ fates, P (play k' ss fates).1) : P (play k (s :: ss) fates).1 := by
  simp only [play, hk]
  split
  · exact hrest _
  · exact h
  · exact h'

theorem take_dutyCycle_zero (h : k.exported = true) :
    k.take (.write (.dutyCycle 0)) =
      some { k with dutyCycle := 0, dutyCycle_le := Nat.zero_le _ } :=
  dif_pos ⟨h, Nat.zero_le _⟩

theorem take_enable {on : Bool} (h : k.exported = true) :
    k.take (.write (.enable on)) = some { k with enabled := on } :=
  if_pos h

/-- What a step does to the export, to the enable bit and to the duty. -/
theorem take_cases (hk : k.take s = some k') :
    (k'.exported = match s with
      | .write .export => true
      | .write .unexport => false
      | _ => k.exported) ∧
    (k'.enabled = match s with
      | .write (.enable on) => on
      | _ => k.enabled) ∧
    (k'.dutyCycle = match s with
      | .write (.dutyCycle ns) => ns
      | _ => k.dutyCycle) ∧
    (s = .write .export ∨ s = .write .unexport ∨ k.exported = true) := by
  cases s with
  | awaitExport =>
      obtain ⟨hexp, hk⟩ := Option.ite_none_right_eq_some.mp hk
      obtain rfl := Option.some.inj hk
      exact ⟨rfl, rfl, rfl, .inr (.inr hexp)⟩
  | write w =>
      cases w with
      | «export» | unexport =>
          obtain rfl := Option.some.inj hk
          simp
      | enable on =>
          obtain ⟨hexp, hk⟩ := Option.ite_none_right_eq_some.mp hk
          obtain rfl := Option.some.inj hk
          exact ⟨rfl, rfl, rfl, .inr (.inr hexp)⟩
      | dutyCycle ns | period ns =>
          obtain ⟨hw, hk⟩ := Option.dite_none_right_eq_some.mp hk
          obtain rfl := Option.some.inj hk
          exact ⟨rfl, rfl, rfl, .inr (.inr hw.1)⟩
      | polarity p =>
          obtain ⟨hw, hk⟩ := Option.ite_none_right_eq_some.mp hk
          obtain rfl := Option.some.inj hk
          exact ⟨rfl, rfl, rfl, .inr (.inr hw.1)⟩

/-- Every duty that `configure` writes is zero. -/
theorem configure_keeps_zero (hs : s ∈ configure c) (h : k.dutyCycle = 0)
    (hk : k.take s = some k') : k'.dutyCycle = 0 := by
  obtain ⟨-, -, hduty, -⟩ := take_cases hk
  simp only [configure, List.mem_cons, List.not_mem_nil, or_false] at hs
  obtain rfl | rfl | rfl | rfl | rfl := hs
  · exact hduty
  · exact hduty.trans h
  · exact hduty.trans h
  · exact hduty
  · exact hduty.trans h

/-- **Disabled or at zero**, from the first write of `configure` to its last. -/
theorem dark_configure (hexp : k.exported = true) (hoff : k.enabled = false) :
    (play k (configure c) fates).1.Dark := by
  -- disabled until the duty is zero, which nothing after that changes
  refine play_cons (take_dutyCycle_zero hexp) (.inl hoff) (.inr rfl) fun fates => .inr ?_
  refine play_invariant (I := fun k => k.dutyCycle = 0) (fun s hs k k' h hk => ?_) rfl
  exact configure_keeps_zero (c := c) (List.mem_cons_of_mem _ hs) h hk

/-- What `configure` leaves when nothing stops it. -/
theorem play_configure (hexp : k.exported = true) (hoff : k.enabled = false) :
    ∃ k', play k (configure c) [] = (k', .returned) ∧ k'.exported = true ∧ k'.enabled = true ∧
      k'.dutyCycle = 0 ∧ k'.period = c.periodNs ∧ k'.polarity = c.polarity := by
  refine ⟨⟨true, true, 0, c.periodNs, c.polarity, Nat.zero_le _⟩, ?_, rfl, rfl, rfl, rfl, rfl⟩
  simp [play, configure, Channel.take, Channel.write, hexp, hoff]

/-! ### Opening -/

/-- A channel that is still enabled, with nobody to disable it. -/
def Channel.LeftRunning (k : Channel) : Prop := k.exported = false ∧ k.enabled = true

/-- `open` meets no refusal and ends enabled and dark, as configured; and once its first write has
landed, wherever it stops, nothing is emitted. -/
def ComesUpDark (c : PwmConfig) (k : Channel) : Prop :=
  (∃ k', openChannel c k [] = (k', .returned) ∧ k'.enabled = true ∧ k'.dutyCycle = 0 ∧
    k'.period = c.periodNs ∧ k'.polarity = c.polarity) ∧
  ∀ fates, fates.headD .lands ≠ .faults → (openChannel c k fates).1.Dark

/-- A channel that is there is made dark before it is enabled. -/
theorem comesUpDark_of_exported (h : k.exported = true) : ComesUpDark c k := by
  constructor
  · obtain ⟨k', hk', -, hrest⟩ := play_configure (c := c) (k := { k with enabled := false }) h rfl
    refine ⟨k', ?_, hrest⟩
    rw [openChannel, h]
    simpa [openSteps, play, take_enable h] using hk'
  · intro fates hfirst
    rw [openChannel, h]
    simp only [openSteps, play, take_enable h]
    split
    · exact dark_configure h rfl
    · next hf => exact absurd hf hfirst
    · exact .inl rfl

/-- A channel that was off comes up off. -/
theorem comesUpDark_of_disabled (h : k.exported = false) (hoff : k.enabled = false) :
    ComesUpDark c k := by
  constructor
  · obtain ⟨k', hk', -, hrest⟩ :=
      play_configure (c := c) (k := { k with exported := true }) rfl hoff
    refine ⟨k', ?_, hrest⟩
    rw [openChannel, h]
    simpa [openSteps, play, Channel.take, Channel.write] using hk'
  · intro fates _
    rw [openChannel, h]
    have hout : ({ k with exported := true } : Channel).enabled = false := hoff
    -- `export`, and the wait for it, leave the channel disabled
    refine play_cons rfl (.inl hoff) (.inl hout) fun fates => ?_
    exact play_cons rfl (.inl hout) (.inl hout) fun fates => dark_configure rfl hout

/-- What is still enabled refuses the polarity. -/
theorem not_comesUpDark (h : k.LeftRunning) : ¬ComesUpDark c k := by
  rintro ⟨⟨k', hk', -⟩, -⟩
  rw [openChannel, h.1] at hk'
  simp [openSteps, configure, play, Channel.take, Channel.write, h.2] at hk'

/-- **A channel comes up dark** exactly when nobody left it running behind its export. -/
theorem comesUpDark_iff (c : PwmConfig) (k : Channel) : ComesUpDark c k ↔ ¬k.LeftRunning := by
  refine ⟨fun h hleft => not_comesUpDark hleft h, fun h => ?_⟩
  cases hexp : k.exported with
  | true => exact comesUpDark_of_exported hexp
  | false => exact comesUpDark_of_disabled hexp (by simpa [Channel.LeftRunning, hexp] using h)

/-- Unexported at half duty by something that did not disable it. -/
def halfLit : Channel := ⟨false, true, 1000000, 2000000, .normal, by norm_num⟩

/-- It lights up when it is exported again, and then refuses the polarity. -/
theorem halfLit_not_dark : ¬ComesUpDark ⟨2000000, false⟩ halfLit ∧
    (openChannel ⟨2000000, false⟩ halfLit []).2 = .raised ∧
    ¬(openChannel ⟨2000000, false⟩ halfLit [.lands, .faults]).1.Dark :=
  ⟨not_comesUpDark ⟨rfl, rfl⟩, by decide, by
    simp [Channel.Dark, openChannel, openSteps, play, Channel.take, Channel.write, halfLit]⟩

/-! ### The driver alone -/

/-- What the driver does with its channel.  A process that is killed is a call that is cancelled. -/
inductive ChannelCall where
  | opens (c : PwmConfig) (fates : List Fate)
  | closes (fates : List Fate)
  | writesDuty (ns : ℕ) (fates : List Fate)

/-- The driver's calls on one channel, one after the other. -/
def channelCalls : Machine Channel ChannelCall where
  step k a :=
    match a with
    | .opens c fates => some (openChannel c k fates).1
    | .closes fates => some (closeChannel k fates).1
    | .writesDuty ns fates => some (play k [.write (.dutyCycle ns)] fates).1

/-- Every step but `unexport` leaves the channel exported. -/
theorem exported_take (hs : s ≠ .write .unexport) (hk : k.take s = some k') :
    k'.exported = true := by
  obtain ⟨hexported, -, -, rfl | rfl | hexp⟩ := take_cases hk
  · exact hexported
  · exact absurd rfl hs
  · rw [hexported]
    split
    · rfl
    · exact absurd rfl hs
    · exact hexp

theorem not_leftRunning_play (hss : .write .unexport ∉ ss) (h : ¬k.LeftRunning) :
    ¬(play k ss fates).1.LeftRunning := by
  refine play_invariant (I := fun k => ¬k.LeftRunning) (fun s hs k k' _ hk hleft => ?_) h
  rw [Channel.LeftRunning, exported_take (ne_of_mem_of_not_mem hs hss) hk] at hleft
  exact absurd hleft.1 (by decide)

/-- `unexport` comes after the channel is disabled. -/
theorem not_leftRunning_close (h : ¬k.LeftRunning) : ¬(closeChannel k fates).1.LeftRunning := by
  cases hexp : k.exported with
  | false => rwa [closeChannel, hexp]
  | true =>
      rw [closeChannel, hexp]
      have hoff {k : Channel} (hoff : k.enabled = false) : ¬k.LeftRunning :=
        fun hleft => absurd (hoff.symm.trans hleft.2) Bool.false_ne_true
      -- the duty, then the enable bit, and the export last
      refine play_cons (P := fun k => ¬k.LeftRunning) (take_dutyCycle_zero hexp) h h fun fates => ?_
      refine play_cons (P := fun k => ¬k.LeftRunning) (take_enable hexp) h (hoff rfl) fun fates => ?_
      exact play_cons (P := fun k => ¬k.LeftRunning) rfl (hoff rfl) (hoff rfl) fun _ => hoff rfl

/-- **Step.**  No call leaves a channel running that is not exported. -/
theorem not_leftRunning_step (k : Channel) (a : ChannelCall) (k' : Channel)
    (h : ¬k.LeftRunning) (hk : channelCalls.step k a = some k') : ¬k'.LeftRunning := by
  cases a with
  | opens c fates =>
      obtain rfl := Option.some.inj hk
      refine not_leftRunning_play ?_ h
      cases k.exported <;> simp [openSteps, configure]
  | closes fates =>
      obtain rfl := Option.some.inj hk
      exact not_leftRunning_close h
  | writesDuty ns fates =>
      obtain rfl := Option.some.inj hk
      exact not_leftRunning_play (by simp) h

/-- **The driver leaves no channel running**, however its calls are stopped, and so can always
open it again. -/
theorem comesUpDark_run {as : List ChannelCall} (h : channelCalls.Run k as k')
    (h₀ : ¬k.LeftRunning) : ComesUpDark c k' :=
  (comesUpDark_iff c k').mpr
    (h.invariant h₀ fun k a k' _ => not_leftRunning_step k a k')

end BellasReef.HardwareIO
