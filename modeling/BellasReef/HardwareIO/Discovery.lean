import BellasReef.HardwareIO.Factory
import BellasReef.Support.DecimalText
import BellasReef.Support.Except
import BellasReef.Support.Lists
import BellasReef.Support.Pattern
import Mathlib.Data.Char
import Mathlib.Data.List.AList
import Mathlib.Data.List.Lex
import Mathlib.Data.List.Sort

/-!
# HardwareIO — Discovery

What the hub's hardware can offer (`capabilities.py`): the RP1's PWM channels by the pins that
`pinctrl` ties to them, the probes on the 1-Wire bus, and a PCA9685 that answers.

A source that cannot be read says nothing, which is not to say that it has nothing to offer.

* `lookup_lines`: a channel has the pin of the last line that ties it.
* `discovered`: the channels that are announced are those that are tied and that the chip has, once
  each and in order; the count that the chip reports is theirs; and a driver bound to one of them
  drives it.
* `discovered_w1` and `announces_pca9685`: the probes that are announced are those of the directory,
  and the channels of a chip that answers are its sixteen, whatever it answers.
-/

namespace BellasReef.HardwareIO.Discovery
open BellasReef.Support

/-! ### The mux -/

/-- The groups of `_PINCTRL_LINE`. -/
inductive PinGroup where
  | gpio
  | channel
  deriving DecidableEq

/-- `(\d+)`, where it is the group that is asked for. -/
def PinGroup.digits (g which : PinGroup) : Pattern Char :=
  if g = which then .group (.plus IntText.isDecimal) else .plus IntText.isDecimal

/-- `$`. -/
def lineEnd (_ ahead : Text) : Bool := ahead = [] || ahead = ['\n']

/-- What `pinctrl` writes before the function of a pin. -/
def slashes : Text := ['/', '/']

/-- `GPIO`. -/
def gpioWord : Text := ['G', 'P', 'I', 'O']

/-- The function of a channel's pin, without its number. -/
def channelWord : Text := ['P', 'W', 'M', '0', '_', 'C', 'H', 'A', 'N']

/-- `_PINCTRL_LINE`. -/
def pinctrlLine (g : PinGroup) : Pattern Char :=
  .seq (.literal slashes) <| .seq (.star Text.isSpace) <| .seq (.literal gpioWord) <|
    .seq (g.digits .gpio) <| .seq (.star Text.isSpace) <| .seq (.literal ['=']) <|
      .seq (.star Text.isSpace) <| .seq (.literal channelWord) <| .seq (g.digits .channel) <|
        .seq (.star Text.isSpace) (.assert lineEnd)

/-- A `dict` from channels to pins. -/
abbrev Mux := AList fun _ : ℤ => ℤ

/-- `mux[int(match.group(2))] = int(match.group(1))`, where the line matches; `none` where `int`
raises. -/
def readLine (mux : Mux) (line : Text) : Option Mux :=
  match (pinctrlLine .gpio).search line, (pinctrlLine .channel).search line with
  | some gpio, some channel => do
      let gpio ← IntText.int gpio
      let channel ← IntText.int channel
      some (mux.insert channel gpio)
  | _, _ => some mux

/-- `parse_pinctrl`; `none` where it raises `ValueError`. -/
def parsePinctrl (output : Text) : Option Mux :=
  output.splitlines.foldlM readLine ∅

/-- How `pinctrl get` goes. -/
inductive Pinctrl where
  /-- It cannot run, or does not end in time. -/
  | notRun
  | failed
  | printed (output : Text)

/-! ### Announcements -/

/-- What discovery may raise. -/
inductive Raised where
  /-- `ValueError`; pydantic's `ValidationError` is one. -/
  | valueError
  deriving DecidableEq

/-- `read_pwm_mux`. -/
def readPwmMux : Pinctrl → Except Raised (Option Mux)
  | .notRun | .failed => .ok none
  | .printed output =>
      match parsePinctrl output with
      | some mux => .ok (some mux)
      | none => .error .valueError

/-- A value of `detail`. -/
inductive Detail where
  | text (t : Text)
  | int (n : ℤ)
  deriving DecidableEq

/-- `CapabilityChannel`. -/
structure CapabilityChannel where
  channel : Text
  detail : List (String × Detail)
  channel_length : 1 ≤ channel.length ∧ channel.length ≤ 64
  deriving DecidableEq

/-- `CapabilityChannel(channel=…, detail=…)`. -/
def capabilityChannel (channel : Text) (detail : List (String × Detail)) :
    Except Raised CapabilityChannel :=
  if h : 1 ≤ channel.length ∧ channel.length ≤ 64 then .ok ⟨channel, detail, h⟩
  else .error .valueError

/-- `str(index)`. -/
def str (index : ℤ) : Text := DecimalText.printInteger index

/-- An entry of `/sys/class/pwm`: its name, and what it comes to be read. -/
structure ClassEntry where
  name : Text
  /-- The name of the device it fronts; `none` where `resolve` raises `OSError`. -/
  device : Option Text
  /-- `compatible`, decoded; `none` where it raises `OSError`. -/
  compatible : Option Text
  /-- `npwm`; `none` where it cannot be read. -/
  npwm : Option Text

/-- `RP1_PWM0_DEVICE` and `RP1_PWM_COMPATIBLE`. -/
def rp1Pwm0Device : Text := "1f00098000.pwm".toList

/-- What the device tree calls the chip. -/
def rp1PwmCompatible : Text := "raspberrypi,rp1-pwm".toList

/-- `part in text`. -/
def contains (part text : Text) : Bool := text.tails.any fun t => part.isPrefixOf t

/-- The loop of `find_pwm_chip`. -/
def pwmChip : List ClassEntry → Option ClassEntry
  | [] => none
  | e :: entries =>
      match e.device with
      | none => pwmChip entries
      | some device =>
          if device ≠ rp1Pwm0Device then pwmChip entries
          else
            match e.compatible with
            | none => none
            | some compatible => if contains rp1PwmCompatible compatible then some e else none

/-- What discovery meets in `/sys/class/pwm`; there are no entries where it is no directory. -/
structure PwmBoard where
  entries : List ClassEntry
  pinctrl : Pinctrl

/-- `find_pwm_chip`. -/
def PwmBoard.chip (b : PwmBoard) : Option ClassEntry :=
  pwmChip (b.entries.insertionSort fun e e' => e.name ≤ e'.name)

/-- `npwm` of the chip and the mux, where both can be read. -/
def PwmBoard.tied (b : PwmBoard) : Except Raised (Option (ClassEntry × ℤ × Mux)) :=
  match b.chip with
  | none => .ok none
  | some chip =>
      match chip.npwm.bind fun text => IntText.int text.strip with
      | none => .ok none
      | some npwm => (readPwmMux b.pinctrl).map fun mux => mux.map fun mux => (chip, npwm, mux)

/-- The channels that the mux ties and the chip has, in order. -/
def indices (npwm : ℤ) (mux : Mux) : List ℤ :=
  (mux.keys.insertionSort (· ≤ ·)).filter (· < npwm)

/-- `CapabilityChannel(channel=str(index), detail={"chip": …, "gpio": mux[index]})`. -/
def pwmChannel (chip : ClassEntry) (mux : Mux) (index : ℤ) : Except Raised CapabilityChannel :=
  capabilityChannel (str index)
    [("chip", .text chip.name), ("gpio", .int ((mux.lookup index).getD 0))]

/-- `discover_pwm`. -/
def discoverPwm (b : PwmBoard) : Except Raised (Option (List CapabilityChannel)) := do
  match ← b.tied with
  | none => .ok none
  | some (chip, npwm, mux) => some <$> (indices npwm mux).mapM (pwmChannel chip mux)

/-- `muxed_pwm_channel_count`. -/
def muxedPwmChannelCount (b : PwmBoard) : Except Raised (Option ℕ) := do
  match ← b.tied with
  | none => .ok none
  | some (_, npwm, mux) => .ok (some (mux.keys.countP (· < npwm)))

/-- `W1_BUS_MASTER`. -/
def w1BusMaster : Text := "w1_bus_master1".toList

/-- `discover_w1`, of the names in the directory, if it is one. -/
def discoverW1 : Option (List Text) → Except Raised (Option (List CapabilityChannel))
  | none => .ok none
  | some names =>
      some <$> ((names.insertionSort (· ≤ ·)).filter fun n => "28-".toList.isPrefixOf n).mapM fun n =>
        capabilityChannel n [("family", .text "28".toList), ("bus_master", .text w1BusMaster)]

/-- How the bus node answers. -/
inductive I2c where
  | noNode
  /-- `open_i2c` raises `OSError` or `ImportError`. -/
  | notOpened
  /-- Nothing acknowledges. -/
  | silent
  | answers (mode1 : ℕ)

/-- `PCA9685_CHANNELS`. -/
def pca9685Channels : ℕ := 16

/-- `discover_pca9685`, at its bus and its address. -/
def discoverPca9685 : I2c → Except Raised (Option (List CapabilityChannel))
  | .noNode | .notOpened => .ok none
  | .silent => .ok (some [])
  | .answers _ =>
      some <$> (List.range pca9685Channels).mapM fun index =>
        capabilityChannel (str index) [("bus", .int 1), ("address", .text "0x40".toList)]

/-! ### What a line says -/

/-- What `\d+` takes. -/
def Digits (ds : Text) : Prop := ds ≠ [] ∧ ∀ c ∈ ds, IntText.isDecimal c = true

/-- What `\s*` takes. -/
def Spaces (s : Text) : Prop := ∀ c ∈ s, Text.isSpace c = true

/-- ` GPIO12 = PWM0_CHAN0`, with any white space. -/
def tied (s₁ gpio s₂ s₃ channel s₄ : Text) : Text :=
  s₁ ++ (gpioWord ++ (gpio ++ (s₂ ++ (['='] ++ (s₃ ++ (channelWord ++ (channel ++ s₄)))))))

/-- And the slashes in front of it. -/
def tie (s₁ gpio s₂ s₃ channel s₄ : Text) : Text := slashes ++ tied s₁ gpio s₂ s₃ channel s₄

/-- A line ties a channel to a pin, at its end. -/
def Ties (line gpio channel : Text) : Prop :=
  Digits gpio ∧ Digits channel ∧ ∃ before s₁ s₂ s₃ s₄,
    Spaces s₁ ∧ Spaces s₂ ∧ Spaces s₃ ∧ Spaces s₄ ∧ line = before ++ tie s₁ gpio s₂ s₃ channel s₄

/-- What the group is of the two. -/
def PinGroup.of (gpio channel : Text) : PinGroup → Text
  | .gpio => gpio
  | .channel => channel

section Lines
variable {g which : PinGroup} {a b : Scan Char} {line gpio channel : Text}

theorem mem_ends_digits : b ∈ (g.digits which).ends a ↔ ∃ used rest, Digits used ∧
    a.ahead = used ++ rest ∧
      b = { a.after used rest with group := if g = which then some used else a.group } := by
  unfold PinGroup.digits
  split
  · rw [Pattern.mem_ends_group_plus]
    simp only [Digits, and_assoc]
  · rw [Pattern.mem_ends_plus]
    simp only [Digits, and_assoc]
    rfl

/-- The end of the line is white space. -/
theorem spaces_of_mem (h : b ∈ (Pattern.seq (.star Text.isSpace) (.assert lineEnd)).ends a) :
    Spaces a.ahead ∧ b.group = a.group := by
  obtain ⟨_, hspace, hend⟩ := Pattern.mem_ends_seq.mp h
  obtain ⟨space, rest, hall, ha, rfl⟩ := Pattern.mem_ends_star.mp hspace
  obtain ⟨hline, rfl⟩ := Pattern.mem_ends_assert.mp hend
  refine ⟨?_, rfl⟩
  rw [ha]
  have hrest : Spaces rest := by
    obtain hnil | hbreak := Bool.or_eq_true_iff.mp hline
    · obtain rfl : rest = [] := of_decide_eq_true hnil
      simp [Spaces]
    · obtain rfl : rest = ['\n'] := of_decide_eq_true hbreak
      intro c hc
      rw [List.mem_singleton.mp hc]
      decide
  exact fun c hc => (List.mem_append.mp hc).elim (hall c) (hrest c)

theorem mem_of_spaces (h : Spaces a.ahead) :
    a.after a.ahead [] ∈ (Pattern.seq (.star Text.isSpace) (.assert lineEnd)).ends a :=
  Pattern.mem_ends_seq.mpr ⟨a.after a.ahead [],
    Pattern.mem_ends_star.mpr ⟨a.ahead, [], h, (List.append_nil _).symm, rfl⟩,
    Pattern.mem_ends_assert.mpr ⟨rfl, rfl⟩⟩

/-- **A match** is of a tie, and has the group's digits of it. -/
theorem tie_of_mem {behind ahead : Text}
    (h : b ∈ (pinctrlLine g).ends ⟨behind, ahead, none⟩) : ∃ gpio channel s₁ s₂ s₃ s₄,
      Digits gpio ∧ Digits channel ∧ Spaces s₁ ∧ Spaces s₂ ∧ Spaces s₃ ∧ Spaces s₄ ∧
        ahead = tie s₁ gpio s₂ s₃ channel s₄ ∧ b.group = some (g.of gpio channel) := by
  obtain ⟨_, h₁, h⟩ := Pattern.mem_ends_seq.mp h
  obtain ⟨_, h₂, h⟩ := Pattern.mem_ends_seq.mp h
  obtain ⟨_, h₃, h⟩ := Pattern.mem_ends_seq.mp h
  obtain ⟨_, h₄, h⟩ := Pattern.mem_ends_seq.mp h
  obtain ⟨_, h₅, h⟩ := Pattern.mem_ends_seq.mp h
  obtain ⟨_, h₆, h⟩ := Pattern.mem_ends_seq.mp h
  obtain ⟨_, h₇, h⟩ := Pattern.mem_ends_seq.mp h
  obtain ⟨_, h₈, h⟩ := Pattern.mem_ends_seq.mp h
  obtain ⟨_, h₉, h⟩ := Pattern.mem_ends_seq.mp h
  obtain ⟨r₁, e₁, rfl⟩ := Pattern.mem_ends_literal.mp h₁
  obtain ⟨s₁, r₂, hs₁, e₂, rfl⟩ := Pattern.mem_ends_star.mp h₂
  obtain ⟨r₃, e₃, rfl⟩ := Pattern.mem_ends_literal.mp h₃
  obtain ⟨gpio, r₄, hgpio, e₄, rfl⟩ := mem_ends_digits.mp h₄
  obtain ⟨s₂, r₅, hs₂, e₅, rfl⟩ := Pattern.mem_ends_star.mp h₅
  obtain ⟨r₆, e₆, rfl⟩ := Pattern.mem_ends_literal.mp h₆
  obtain ⟨s₃, r₇, hs₃, e₇, rfl⟩ := Pattern.mem_ends_star.mp h₇
  obtain ⟨r₈, e₈, rfl⟩ := Pattern.mem_ends_literal.mp h₈
  obtain ⟨channel, s₄, hchannel, e₉, rfl⟩ := mem_ends_digits.mp h₉
  obtain ⟨hs₄, hgroup⟩ := spaces_of_mem h
  simp only [Scan.after_ahead] at e₁ e₂ e₃ e₄ e₅ e₆ e₇ e₈ e₉ hs₄
  refine ⟨gpio, channel, s₁, s₂, s₃, s₄, hgpio, hchannel, hs₁, hs₂, hs₃, hs₄, ?_, ?_⟩
  · rw [tie, tied, e₁, e₂, e₃, e₄, e₅, e₆, e₇, e₈, e₉]
  · rw [hgroup]
    cases g <;> rfl

/-- And there is one wherever there is a tie. -/
theorem ends_of_tie {behind s₁ s₂ s₃ s₄ : Text} (hgpio : Digits gpio) (hchannel : Digits channel)
    (hs₁ : Spaces s₁) (hs₂ : Spaces s₂) (hs₃ : Spaces s₃) (hs₄ : Spaces s₄) :
    (pinctrlLine g).ends ⟨behind, tie s₁ gpio s₂ s₃ channel s₄, none⟩ ≠ [] := by
  suffices h : ∃ b, b ∈ (pinctrlLine g).ends ⟨behind, tie s₁ gpio s₂ s₃ channel s₄, none⟩ by
    obtain ⟨b, hb⟩ := h
    exact List.ne_nil_of_mem hb
  refine Pattern.exists_ends_seq (Pattern.mem_ends_literal.mpr ⟨_, rfl, rfl⟩) ?_
  refine Pattern.exists_ends_seq (Pattern.mem_ends_star.mpr ⟨s₁, _, hs₁, rfl, rfl⟩) ?_
  refine Pattern.exists_ends_seq (Pattern.mem_ends_literal.mpr ⟨_, rfl, rfl⟩) ?_
  refine Pattern.exists_ends_seq (mem_ends_digits.mpr ⟨gpio, _, hgpio, rfl, rfl⟩) ?_
  refine Pattern.exists_ends_seq (Pattern.mem_ends_star.mpr ⟨s₂, _, hs₂, rfl, rfl⟩) ?_
  refine Pattern.exists_ends_seq (Pattern.mem_ends_literal.mpr ⟨_, rfl, rfl⟩) ?_
  refine Pattern.exists_ends_seq (Pattern.mem_ends_star.mpr ⟨s₃, _, hs₃, rfl, rfl⟩) ?_
  refine Pattern.exists_ends_seq (Pattern.mem_ends_literal.mpr ⟨_, rfl, rfl⟩) ?_
  refine Pattern.exists_ends_seq (mem_ends_digits.mpr ⟨channel, _, hchannel, rfl, rfl⟩) ?_
  exact ⟨_, mem_of_spaces hs₄⟩

/-- No digit begins a stretch of white space, or what is behind it. -/
theorem head_not_decimal {s t : Text} (hs : Spaces s) (ht : ∀ c ∈ t.head?, IntText.isDecimal c = false) :
    ∀ c ∈ (s ++ t).head?, IntText.isDecimal c = false := by
  cases s with
  | nil => exact ht
  | cons x s =>
      rintro c ⟨⟩
      have hx := hs x List.mem_cons_self
      cases hd : IntText.isDecimal x with
      | false => rfl
      | true => rw [IntText.isSpace_of_isDecimal hd] at hx; cases hx

/-- Behind its slashes a tie has none. -/
theorem tied_no_slash {s₁ s₂ s₃ s₄ : Text} (hgpio : Digits gpio) (hchannel : Digits channel)
    (hs₁ : Spaces s₁) (hs₂ : Spaces s₂) (hs₃ : Spaces s₃) (hs₄ : Spaces s₄) :
    '/' ∉ tied s₁ gpio s₂ s₃ channel s₄ := by
  have hspace : ∀ {s : Text}, Spaces s → '/' ∉ s := fun h hm => absurd (h '/' hm) (by decide)
  have hdigit : ∀ {s : Text}, Digits s → '/' ∉ s := fun h hm => absurd (h.2 '/' hm) (by decide)
  have hwords : '/' ∉ gpioWord ∧ '/' ∉ ['='] ∧ '/' ∉ channelWord := by decide
  intro hc
  simp only [tied, List.mem_append] at hc
  simp [hspace hs₁, hspace hs₂, hspace hs₃, hspace hs₄, hdigit hgpio, hdigit hchannel, hwords] at hc

/-- What is behind the last slashes of a text is one thing. -/
theorem behind_slashes {before before' t t' : Text}
    (h : before ++ (slashes ++ t) = before' ++ (slashes ++ t')) (ht : '/' ∉ t) (ht' : '/' ∉ t') :
    t = t' := by
  have hrev : t.reverse ++ '/' :: '/' :: before.reverse = t'.reverse ++ '/' :: '/' :: before'.reverse := by
    simpa [slashes] using congrArg List.reverse h
  have hne : ∀ {t : Text}, '/' ∉ t → ∀ c ∈ t.reverse, (c != '/') = true := by
    intro t ht c hc
    rw [bne_iff_ne]
    rintro rfl
    exact ht (List.mem_reverse.mp hc)
  have hslash : ∀ {b : Text}, ∀ c ∈ ('/' :: b).head?, (c != '/') = false := by
    rintro b c ⟨⟩
    rfl
  exact List.reverse_injective (stretch_unique hrev (hne ht) (hne ht') hslash hslash).1

/-- **A line ties** one channel at most, to one pin. -/
theorem Ties.unique {gpio' channel' : Text} (h : Ties line gpio channel)
    (h' : Ties line gpio' channel') : gpio = gpio' ∧ channel = channel' := by
  obtain ⟨hg, hc, before, s₁, s₂, s₃, s₄, h₁, h₂, h₃, h₄, rfl⟩ := h
  obtain ⟨hg', hc', before', t₁, t₂, t₃, t₄, k₁, k₂, k₃, k₄, heq⟩ := h'
  have e₀ := behind_slashes heq (tied_no_slash hg hc h₁ h₂ h₃ h₄) (tied_no_slash hg' hc' k₁ k₂ k₃ k₄)
  have hhead : ∀ {x : Char} {t : Text} {p : Char → Bool}, p x = false →
      ∀ c ∈ (x :: t).head?, p c = false := by
    rintro x t p hx c ⟨⟩
    exact hx
  -- one stretch after the other, from the left
  have e₁ := List.append_cancel_left (stretch_unique e₀ h₁ k₁ (hhead rfl) (hhead rfl)).2
  obtain ⟨egpio, e₂⟩ := stretch_unique e₁ hg.2 hg'.2 (head_not_decimal h₂ (hhead (by decide)))
    (head_not_decimal k₂ (hhead (by decide)))
  have e₃ := List.append_cancel_left (stretch_unique e₂ h₂ k₂ (hhead rfl) (hhead rfl)).2
  have e₄ := List.append_cancel_left (stretch_unique e₃ h₃ k₃ (hhead rfl) (hhead rfl)).2
  have hnil : ∀ {s : Text}, Spaces s → ∀ c ∈ s.head?, IntText.isDecimal c = false := by
    intro s hs
    simpa using head_not_decimal (t := []) hs (by simp)
  exact ⟨egpio, (stretch_unique e₄ hc.2 hc'.2 (hnil h₄) (hnil k₄)).1⟩

/-- **The search is exact.** -/
theorem search_eq_some_iff {found : Text} : (pinctrlLine g).search line = some found ↔
    ∃ gpio channel, Ties line gpio channel ∧ found = g.of gpio channel := by
  constructor
  · intro h
    obtain ⟨before, rest, rfl, b, hb, hfound⟩ := Pattern.exists_of_search h
    obtain ⟨gpio, channel, s₁, s₂, s₃, s₄, hg, hc, h₁, h₂, h₃, h₄, rfl, hgroup⟩ := tie_of_mem hb
    refine ⟨gpio, channel, ⟨hg, hc, before, s₁, s₂, s₃, s₄, h₁, h₂, h₃, h₄, rfl⟩, ?_⟩
    exact Option.some.inj (hfound.symm.trans hgroup)
  · rintro ⟨gpio, channel, hties, rfl⟩
    refine Pattern.search_eq_some ?_ ?_
    · rintro before rest rfl b hb
      obtain ⟨gpio', channel', s₁, s₂, s₃, s₄, hg, hc, h₁, h₂, h₃, h₄, rfl, hgroup⟩ := tie_of_mem hb
      obtain ⟨rfl, rfl⟩ := hties.unique ⟨hg, hc, before, s₁, s₂, s₃, s₄, h₁, h₂, h₃, h₄, rfl⟩
      exact hgroup
    · obtain ⟨hg, hc, before, s₁, s₂, s₃, s₄, h₁, h₂, h₃, h₄, rfl⟩ := hties
      exact ⟨before, _, rfl, ends_of_tie hg hc h₁ h₂ h₃ h₄⟩

end Lines

/-! ### What the output says -/

/-- A line ties a channel to a pin, as numbers. -/
def Says (line : Text) (channel gpio : ℤ) : Prop :=
  ∃ g c, Ties line g c ∧ IntText.int g = some gpio ∧ IntText.int c = some channel

/-- The last of the lines that tie the channel ties it to this pin. -/
def LastSays (lines : List Text) (channel gpio : ℤ) : Prop :=
  ∃ before line after, lines = before ++ line :: after ∧ Says line channel gpio ∧
    ∀ l ∈ after, ∀ gpio', ¬ Says l channel gpio'

section Output
variable {mux mux' : Mux} {line : Text} {lines : List Text} {channel gpio : ℤ}

/-- A line says one thing. -/
theorem Says.unique {channel' gpio' : ℤ} (h : Says line channel gpio)
    (h' : Says line channel' gpio') : channel = channel' ∧ gpio = gpio' := by
  obtain ⟨g, c, hties, hg, hc⟩ := h
  obtain ⟨g', c', hties', hg', hc'⟩ := h'
  obtain ⟨rfl, rfl⟩ := hties.unique hties'
  exact ⟨Option.some.inj (hc.symm.trans hc'), Option.some.inj (hg.symm.trans hg')⟩

theorem Digits.int_nonneg {ds : Text} {n : ℤ} (h : Digits ds) (hn : IntText.int ds = some n) :
    0 ≤ n := by
  rw [IntText.int_digits h.1 h.2] at hn
  obtain ⟨m, -, rfl⟩ := Option.map_eq_some_iff.mp hn
  exact Int.natCast_nonneg m

/-- A channel has no sign. -/
theorem Says.nonneg (h : Says line channel gpio) : 0 ≤ channel := by
  obtain ⟨g, c, ⟨-, hd, -⟩, -, hc⟩ := h
  exact hd.int_nonneg hc

/-- A line that ties nothing. -/
theorem readLine_other (h : ∀ g c, ¬ Ties line g c) : readLine mux line = some mux := by
  have hnone : ∀ g, (pinctrlLine g).search line = none := by
    intro g
    rw [Option.eq_none_iff_forall_ne_some]
    intro found hf
    obtain ⟨gpio, channel, hties, -⟩ := search_eq_some_iff.mp hf
    exact h gpio channel hties
  rw [readLine, hnone, hnone]

/-- A line that ties a pin to a channel is read so. -/
theorem readLine_ties {g c : Text} (h : Ties line g c) : readLine mux line =
    (IntText.int g).bind fun gpio => (IntText.int c).map fun channel => mux.insert channel gpio := by
  have hg : (pinctrlLine .gpio).search line = some g := search_eq_some_iff.mpr ⟨g, c, h, rfl⟩
  have hc : (pinctrlLine .channel).search line = some c := search_eq_some_iff.mpr ⟨g, c, h, rfl⟩
  rw [readLine, hg, hc]
  change (IntText.int g).bind (fun gpio => (IntText.int c).bind fun channel =>
    some (mux.insert channel gpio)) = _
  simp only [Option.map_eq_bind, Function.comp_def]

/-- What a line adds. -/
theorem lookup_readLine (h : readLine mux line = some mux') : mux'.lookup channel = some gpio ↔
    Says line channel gpio ∨
      mux.lookup channel = some gpio ∧ ∀ gpio', ¬ Says line channel gpio' := by
  by_cases hties : ∃ g c, Ties line g c
  · obtain ⟨g, c, hties⟩ := hties
    rw [readLine_ties hties] at h
    obtain ⟨gpio', hg, h⟩ := Option.bind_eq_some_iff.mp h
    obtain ⟨channel', hc, rfl⟩ := Option.map_eq_some_iff.mp h
    have hsaid : Says line channel' gpio' := ⟨g, c, hties, hg, hc⟩
    by_cases he : channel = channel'
    · subst he
      rw [AList.lookup_insert, Option.some.injEq]
      constructor
      · rintro rfl
        exact .inl hsaid
      · rintro (hs | ⟨-, hno⟩)
        · exact (hs.unique hsaid).2.symm
        · exact absurd hsaid (hno gpio')
    · rw [AList.lookup_insert_ne he]
      have hno : ∀ gpio', ¬ Says line channel gpio' := fun _ hs => he (hs.unique hsaid).1
      simp [hno]
  · have hties : ∀ g c, ¬ Ties line g c := by simpa using hties
    rw [readLine_other hties] at h
    cases h
    have hno : ∀ gpio', ¬ Says line channel gpio' := by
      rintro gpio' ⟨g, c, h, -⟩
      exact hties g c h
    simp [hno]

/-- The last line that speaks of a channel counts. -/
theorem lastSays_append : LastSays (lines ++ [line]) channel gpio ↔
    Says line channel gpio ∨
      LastSays lines channel gpio ∧ ∀ gpio', ¬ Says line channel gpio' := by
  constructor
  · rintro ⟨before, l, after, heq, hl, hafter⟩
    cases after using List.reverseRecOn with
    | nil =>
        obtain ⟨-, he⟩ := List.append_inj' heq rfl
        obtain rfl := List.singleton_injective he
        exact .inl hl
    | append_singleton after l' =>
        rw [← List.cons_append, ← List.append_assoc] at heq
        obtain ⟨rfl, he⟩ := List.append_inj' heq rfl
        obtain rfl := List.singleton_injective he
        refine .inr ⟨⟨before, l, after, rfl, hl, fun x hx => ?_⟩, hafter line (by simp)⟩
        exact hafter x (List.mem_append_left _ hx)
  · rintro (h | ⟨⟨before, l, after, rfl, hl, hafter⟩, hno⟩)
    · exact ⟨lines, line, [], rfl, h, by simp⟩
    · refine ⟨before, l, after ++ [line], by simp, hl, fun x hx => ?_⟩
      obtain hx | hx := List.mem_append.mp hx
      · exact hafter x hx
      · rw [List.mem_singleton.mp hx]
        exact hno

/-- **The mux** has, of each channel, the pin of the last line that ties it. -/
theorem lookup_lines (h : lines.foldlM readLine ∅ = some mux) :
    mux.lookup channel = some gpio ↔ LastSays lines channel gpio := by
  induction lines using List.reverseRecOn generalizing mux with
  | nil =>
      cases h
      rw [AList.lookup_empty]
      simp [LastSays]
  | append_singleton lines line ih =>
      rw [List.foldlM_append] at h
      obtain ⟨mux₁, h₁, h⟩ := Option.bind_eq_some_iff.mp h
      have h : readLine mux₁ line = some mux := by simpa using h
      rw [lookup_readLine h, lastSays_append, ih h₁]

end Output

/-! ### What is announced -/

/-- A channel is announced as this index, with this pin. -/
structure Offers (chip : Text) (p : ℤ × ℤ) (c : CapabilityChannel) : Prop where
  named : c.channel = str p.1
  pinned : c.detail = [("chip", .text chip), ("gpio", .int p.2)]
  /-- A driver that is bound to it drives the channel of that index. -/
  bound : Binding.channel [("channel".toList, c.channel)] = .ok p.1

/-- What the board's PWM announcement is. -/
structure Discovered (b : PwmBoard) (channels : List CapabilityChannel) : Prop where
  /-- The chip's count is of them. -/
  counted : muxedPwmChannelCount b = .ok (some channels.length)
  /-- They are those that the chip has and the output ties, once each and in order. -/
  exact : ∃ chip npwm output found, b.chip = some chip ∧
    (chip.npwm.bind fun text => IntText.int text.strip) = some npwm ∧ b.pinctrl = .printed output ∧
    found.Pairwise (fun p q => p.1 < q.1) ∧
    (∀ index gpio, (index, gpio) ∈ found ↔ index < npwm ∧ LastSays output.splitlines index gpio) ∧
    List.Forall₂ (Offers chip.name) found channels

section Announced
variable {b : PwmBoard} {chip : ClassEntry} {npwm index gpio : ℤ} {mux : Mux}
variable {channels : List CapabilityChannel} {c : CapabilityChannel}

/-- The three reads. -/
theorem tied_eq_some (h : b.tied = .ok (some (chip, npwm, mux))) : ∃ output, b.chip = some chip ∧
    (chip.npwm.bind fun text => IntText.int text.strip) = some npwm ∧ b.pinctrl = .printed output ∧
      parsePinctrl output = some mux := by
  unfold PwmBoard.tied at h
  split at h
  · cases h
  · next chip' hchip =>
      split at h
      · cases h
      · next npwm' hnpwm =>
          cases hp : b.pinctrl with
          | notRun => rw [hp] at h; cases h
          | failed => rw [hp] at h; cases h
          | printed output =>
              rw [hp, readPwmMux] at h
              cases hm : parsePinctrl output with
              | none => rw [hm] at h; cases h
              | some mux' =>
                  rw [hm] at h
                  cases h
                  exact ⟨output, hchip, hnpwm, rfl, hm⟩

/-- The channels that are there and have a pin. -/
theorem mem_indices : index ∈ indices npwm mux ↔ index < npwm ∧ index ∈ mux := by
  rw [indices, List.mem_filter, List.mem_insertionSort, AList.mem_keys, decide_eq_true_iff,
    and_comm]

/-- They are in order. -/
theorem pairwise_indices : (indices npwm mux).Pairwise (· < ·) := by
  refine List.Pairwise.filter _ ?_
  have hle := List.pairwise_insertionSort (· ≤ ·) mux.keys
  have hne : (mux.keys.insertionSort (· ≤ ·)).Nodup :=
    (List.perm_insertionSort (· ≤ ·) mux.keys).nodup_iff.mpr mux.nodupKeys
  exact hle.imp₂ (fun _ _ h hne => lt_of_le_of_ne h hne) hne

/-- There are as many as there are keys in range. -/
theorem length_indices : (indices npwm mux).length = mux.keys.countP (· < npwm) := by
  rw [indices, ← List.countP_eq_length_filter]
  exact (List.perm_insertionSort (· ≤ ·) mux.keys).countP_eq _

/-- A channel that validates is what it was made of. -/
theorem capabilityChannel_eq_ok {channel : Text} {detail : List (String × Detail)}
    (h : capabilityChannel channel detail = .ok c) : c.channel = channel ∧ c.detail = detail := by
  unfold capabilityChannel at h
  split at h
  · cases h
    exact ⟨rfl, rfl⟩
  · cases h

/-- **The name of a channel** is what its driver reads of its binding. -/
theorem channel_str (hindex : 0 ≤ index) (hlen : (str index).length ≤ IntText.maxDigits) :
    Binding.channel [("channel".toList, str index)] = .ok index := by
  obtain ⟨n, rfl⟩ := Int.eq_ofNat_of_zero_le hindex
  have hstr : str (n : ℤ) = Nat.toDigits 10 n := by
    rw [str, DecimalText.printInteger, if_neg (not_lt.mpr (Int.natCast_nonneg n)), Int.natAbs_natCast]
  rw [hstr] at hlen ⊢
  have hascii := DecimalText.isDigit_toDigits n
  have hdecimal : ∀ c ∈ Nat.toDigits 10 n, IntText.isDecimal c = true := by
    intro c hc
    rw [IntText.isDecimal, IntText.decimal_of_isDigit (hascii c hc), Option.isSome_some]
  have hvalue : IntText.natural (Nat.toDigits 10 n) = some n := by
    rw [IntText.natural_ascii Nat.toDigits_ne_nil hascii hlen, Nat.ofDigitChars_toDigits (by decide)
      (by decide)]
  have hint : IntText.int (Nat.toDigits 10 n) = some (n : ℤ) := by
    rw [IntText.int_digits Nat.toDigits_ne_nil hdecimal, hvalue, Option.map_some]
  have hitem : Binding.item [("channel".toList, Nat.toDigits 10 n)] "channel" =
      .ok (Nat.toDigits 10 n) := rfl
  rw [Binding.channel, hitem]
  change Binding.parse _ = _
  rw [Binding.parse, hint]

/-- What is announced of a channel is its number and its pin. -/
theorem offers_of_pwmChannel (hindex : 0 ≤ index) (hgpio : mux.lookup index = some gpio)
    (h : pwmChannel chip mux index = .ok c) : Offers chip.name (index, gpio) c := by
  obtain ⟨hname, hdetail⟩ := capabilityChannel_eq_ok h
  refine ⟨hname, by rw [hdetail, hgpio, Option.getD_some], ?_⟩
  have hlen := c.channel_length.2
  rw [hname] at hlen ⊢
  exact channel_str hindex (hlen.trans (by decide))

/-- **Discovery is exact.** -/
theorem discovered (h : discoverPwm b = .ok (some channels)) : Discovered b channels := by
  obtain ⟨read, hread, h⟩ := bind_eq_ok.mp h
  cases read with
  | none => cases h
  | some read =>
      obtain ⟨chip, npwm, mux⟩ := read
      change some <$> (indices npwm mux).mapM (pwmChannel chip mux) = .ok (some channels) at h
      have hall := mapM_eq_ok.mp (map_some_eq_ok.mp h)
      obtain ⟨output, hchip, hnpwm, hprinted, hmux⟩ := tied_eq_some hread
      have hlookup : ∀ {index gpio}, mux.lookup index = some gpio ↔
          LastSays output.splitlines index gpio := fun {_ _} => lookup_lines hmux
      refine ⟨?_, chip, npwm, output, (indices npwm mux).map fun i => (i, (mux.lookup i).getD 0),
        hchip, hnpwm, hprinted, ?_, ?_, ?_⟩
      · rw [muxedPwmChannelCount, hread, ← hall.length_eq, length_indices]
        rfl
      · exact List.pairwise_map.mpr pairwise_indices
      · intro index gpio
        simp only [List.mem_map, mem_indices, Prod.mk.injEq]
        constructor
        · rintro ⟨i, ⟨hlt, hmem⟩, rfl, rfl⟩
          obtain ⟨gpio, hgpio⟩ := Option.isSome_iff_exists.mp (AList.lookup_isSome.mpr hmem)
          rw [hgpio, Option.getD_some]
          exact ⟨hlt, hlookup.mp hgpio⟩
        · rintro ⟨hlt, hsaid⟩
          have hgpio := hlookup.mpr hsaid
          exact ⟨index, ⟨hlt, AList.lookup_isSome.mp (by rw [hgpio]; rfl)⟩, rfl,
            by rw [hgpio, Option.getD_some]⟩
      · rw [List.forall₂_map_left_iff]
        obtain ⟨hlen, hzip⟩ := List.forall₂_iff_zip.mp hall
        refine List.forall₂_iff_zip.mpr ⟨hlen, ?_⟩
        intro i c hmem
        have hi := (mem_indices.mp (List.of_mem_zip hmem).1).2
        obtain ⟨gpio, hgpio⟩ := Option.isSome_iff_exists.mp (AList.lookup_isSome.mpr hi)
        obtain ⟨before, line, after, -, hsaid, -⟩ := hlookup.mp hgpio
        rw [hgpio, Option.getD_some]
        exact offers_of_pwmChannel hsaid.nonneg hgpio (hzip hmem)

/-- No line of the output has more digits than `int` takes. -/
def Readable (output : Text) : Prop :=
  ∀ line ∈ output.splitlines, ∀ g c, Ties line g c →
    g.length ≤ IntText.maxDigits ∧ c.length ≤ IntText.maxDigits

/-- A numeral is read if it is not too long. -/
theorem int_isSome {ds : Text} (h : Digits ds) :
    (IntText.int ds).isSome ↔ ds.length ≤ IntText.maxDigits :=
  IntText.int_isSome_iff (.inl rfl) h.1 h.2

/-- The text is read if no numeral of a line that ties is too long. -/
theorem foldlM_isSome {lines : List Text} (h : ∀ line ∈ lines, ∀ g c, Ties line g c →
    g.length ≤ IntText.maxDigits ∧ c.length ≤ IntText.maxDigits) :
    (lines.foldlM readLine mux).isSome := by
  induction lines generalizing mux with
  | nil => rfl
  | cons line lines ih =>
      obtain ⟨hline, hlines⟩ := List.forall_mem_cons.mp h
      rw [List.foldlM_cons]
      by_cases hties : ∃ g c, Ties line g c
      · obtain ⟨g, c, hties⟩ := hties
        obtain ⟨hg, hc⟩ := hline g c hties
        obtain ⟨gpio, hgpio⟩ := Option.isSome_iff_exists.mp ((int_isSome hties.1).mpr hg)
        obtain ⟨channel, hchannel⟩ := Option.isSome_iff_exists.mp ((int_isSome hties.2.1).mpr hc)
        rw [readLine_ties hties, hgpio, hchannel]
        exact ih hlines
      · rw [readLine_other (by simpa using hties)]
        exact ih hlines

theorem length_str_le (hindex : 0 ≤ index) (hlt : index < 10 ^ 64) :
    1 ≤ (str index).length ∧ (str index).length ≤ 64 := by
  obtain ⟨n, rfl⟩ := Int.eq_ofNat_of_zero_le hindex
  rw [str, DecimalText.printInteger, if_neg (not_lt.mpr (Int.natCast_nonneg n)), Int.natAbs_natCast]
  exact ⟨Nat.length_toDigits_pos,
    (Nat.length_toDigits_le_iff (by decide) (by decide)).mpr (by exact_mod_cast hlt)⟩

/-- **A board that can be read** is announced, be there nothing to announce. -/
theorem announces {output : Text} (hchip : b.chip = some chip)
    (hnpwm : (chip.npwm.bind fun text => IntText.int text.strip) = some npwm)
    (hbound : npwm ≤ 10 ^ 64) (hprinted : b.pinctrl = .printed output) (hread : Readable output) :
    ∃ channels, discoverPwm b = .ok (some channels) := by
  obtain ⟨mux, hmux⟩ := Option.isSome_iff_exists.mp (@foldlM_isSome ∅ _ hread)
  have hparse : parsePinctrl output = some mux := hmux
  have htied : b.tied = .ok (some (chip, npwm, mux)) := by
    simp only [PwmBoard.tied, hchip, hnpwm, hprinted, readPwmMux, hparse, Except.map, Option.map_some]
  have hall : ∀ i ∈ indices npwm mux, ∃ c, pwmChannel chip mux i = .ok c := by
    intro i hi
    obtain ⟨hlt, hmem⟩ := mem_indices.mp hi
    obtain ⟨gpio, hgpio⟩ := Option.isSome_iff_exists.mp (AList.lookup_isSome.mpr hmem)
    obtain ⟨before, line, after, -, hsaid, -⟩ := (lookup_lines hmux).mp hgpio
    exact ⟨_, dif_pos (length_str_le hsaid.nonneg (hlt.trans_le hbound))⟩
  obtain ⟨channels, hchannels⟩ := exists_mapM_eq_ok hall
  exact ⟨channels, bind_eq_ok.mpr ⟨_, htied, map_some_eq_ok.mpr hchannels⟩⟩

/-- **The probes that are announced** are those in the directory, in order. -/
theorem discovered_w1 {names : List Text} (h : discoverW1 (some names) = .ok (some channels)) :
    (channels.map CapabilityChannel.channel).Pairwise (· ≤ ·) ∧
      ∀ t, t ∈ channels.map CapabilityChannel.channel ↔ t ∈ names ∧ "28-".toList <+: t := by
  have hall := mapM_eq_ok.mp (map_some_eq_ok.mp h)
  have hnames : channels.map CapabilityChannel.channel =
      (names.insertionSort (· ≤ ·)).filter fun n => "28-".toList.isPrefixOf n := by
    rw [← List.forall₂_eq_eq_eq, List.forall₂_map_left_iff]
    exact hall.flip.imp fun _ _ h => (capabilityChannel_eq_ok h).1
  rw [hnames]
  refine ⟨(List.pairwise_insertionSort (· ≤ ·) names).filter _, fun t => ?_⟩
  rw [List.mem_filter, List.mem_insertionSort, List.isPrefixOf_iff_prefix]

/-- **A chip that answers** is announced with the channels that its driver takes. -/
theorem announces_pca9685 (answer : ℕ) :
    ∃ channels, discoverPca9685 (.answers answer) = .ok (some channels) ∧
      List.Forall₂ (fun (i : ℕ) c => Binding.channel [("channel".toList, c.channel)] = .ok (i : ℤ))
        (List.range pca9685Channels) channels := by
  have hall : ∀ i ∈ List.range pca9685Channels, ∃ c, capabilityChannel (str (i : ℤ))
      [("bus", .int 1), ("address", .text "0x40".toList)] = .ok c := by
    intro i hi
    have hi : i < 16 := List.mem_range.mp hi
    exact ⟨_, dif_pos (length_str_le (Int.natCast_nonneg i) (by omega))⟩
  obtain ⟨channels, hchannels⟩ := exists_mapM_eq_ok hall
  refine ⟨channels, map_some_eq_ok.mpr hchannels, (mapM_eq_ok.mp hchannels).imp fun i c hc => ?_⟩
  have hlength := c.channel_length.2
  rw [(capabilityChannel_eq_ok hc).1] at hlength ⊢
  exact channel_str (Int.natCast_nonneg i) (hlength.trans (by decide))

end Announced

/-- A hub whose fan's block comes first. -/
def header : PwmBoard where
  entries := [
    ⟨"pwmchip1".toList, some rp1Pwm0Device, some rp1PwmCompatible, some "4\n".toList⟩,
    ⟨"pwmchip0".toList, some "1f0009c000.pwm".toList, some rp1PwmCompatible, some "4\n".toList⟩]
  pinctrl := .printed <| "13: a0 pd | lo // GPIO13 = PWM0_CHAN1\n12: a0 // GPIO12 = PWM0_CHAN0\n".toList

theorem digit_length (c : Char) : 1 ≤ [c].length ∧ [c].length ≤ 64 := by simp

/-- Two channels on pins 12 and 13. -/
def headerChannels : List CapabilityChannel :=
  [⟨['0'], [("chip", .text "pwmchip1".toList), ("gpio", .int 12)], digit_length '0'⟩,
    ⟨['1'], [("chip", .text "pwmchip1".toList), ("gpio", .int 13)], digit_length '1'⟩]

/-- Two channels on their pins are discovered. -/
theorem discovered_header : Discovered header headerChannels :=
  discovered (by decide +kernel)

end BellasReef.HardwareIO.Discovery
