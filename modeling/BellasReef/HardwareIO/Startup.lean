import BellasReef.Contracts.Assignments
import BellasReef.Support.Machine

/-!
# HardwareIO — Startup

How hardware-io learns what it owns.

It drains the retained assignment stream, builds its drivers from what it read, and only then
subscribes to live assignment traffic, where a message that differs from what it read asks for a
restart.  What is published between the drain and the subscription is on neither path.

`startup_complete`: if the stream's adopted assignments are the same at those two moments, then
at rest hardware-io has built what the stream retains, or asked for a restart.
-/

namespace BellasReef.HardwareIO
open BellasReef.Contracts BellasReef.Support

variable {ι R T B : Type}

/-! ### The registry as read -/

/-- `_fingerprint`: what hardware-io would build differently. -/
def fingerprint (a : DeviceAssignment ι R T B) : Bool × Option R × Option T × Option B :=
  (a.adopted, a.role, a.driverType, a.binding)

variable [DecidableEq ι]

/-- `_last_per_device`: the last occurrence of each device. -/
def lastPerDevice : List (DeviceAssignment ι R T B) → List (DeviceAssignment ι R T B)
  | [] => []
  | a :: rest =>
      if rest.any (·.deviceId = a.deviceId) then lastPerDevice rest else a :: lastPerDevice rest

/-- `_assignments.get`, after `_remember_assignments`: the dictionary keeps the last assignment
of each device. -/
def known (found : List (DeviceAssignment ι R T B)) (deviceId : ι) :
    Option (Bool × Option R × Option T × Option B) :=
  (last DeviceAssignment.deviceId deviceId found).map fingerprint

/-! ### The startup sequence -/

/-- Where `_connect_spine` is. -/
inductive StartupStage (μ : Type) where
  /-- `read_assignments`. -/
  | draining (d : Drain μ)
  /-- Drivers are built, opened and registered. -/
  | building
  /-- `watch_assignments` is done; registrations and states are published. -/
  | watching
  | started
  deriving DecidableEq

/-- The stream and the startup that reads it. -/
structure Startup (ι R T B : Type) where
  /-- What the stream retains. -/
  retained : List (DeviceAssignment ι R T B)
  stage : StartupStage (DeviceAssignment ι R T B)
  /-- What the drain has read. -/
  found : List (DeviceAssignment ι R T B)
  /-- On the core subscription, and not handed over yet. -/
  live : List (DeviceAssignment ι R T B)
  /-- `request_stop` was called. -/
  stopping : Bool

/-- What the publisher and the startup do. -/
inductive StartupAction (ι R T B : Type) where
  | publish (a : DeviceAssignment ι R T B)
  /-- A fetch returns `n` messages. -/
  | fetch (n : ℕ)
  /-- The drain takes a message of its batch. -/
  | read
  /-- A fetch times out, which ends the drain. -/
  | timeout
  /-- The drivers are registered, and the broker has the core subscription. -/
  | subscribe
  /-- The core subscription hands a message to `_on_assignment_message`. -/
  | deliver
  | finish

/-- The core subscription is there. -/
def StartupStage.subscribed {μ : Type} : StartupStage μ → Bool
  | .watching | .started => true
  | .draining _ | .building => false

/-- The stage after a publish. -/
def StartupStage.publish : StartupStage (DeviceAssignment ι R T B) → DeviceAssignment ι R T B →
    StartupStage (DeviceAssignment ι R T B)
  | .draining d, a => .draining (d.publish DeviceAssignment.deviceId a)
  | stage, _ => stage

/-- The pull consumer is there, on a stream that retains what had been published. -/
def Startup.connected (published : List (DeviceAssignment ι R T B)) : Startup ι R T B where
  retained := published.foldl (retain DeviceAssignment.deviceId) []
  stage := .draining (.start (published.foldl (retain DeviceAssignment.deviceId) []))
  found := []
  live := []
  stopping := false

variable [DecidableEq R] [DecidableEq T] [DecidableEq B]

/-- `_on_assignment_message`: the message is news. -/
def isNews (found : List (DeviceAssignment ι R T B)) (a : DeviceAssignment ι R T B) : Bool :=
  decide (known found a.deviceId ≠ some (fingerprint a))

/-- One step of one of them. -/
def Startup.step (s : Startup ι R T B) : StartupAction ι R T B → Option (Startup ι R T B)
  | .publish a =>
      some { s with
        retained := retain DeviceAssignment.deviceId s.retained a
        stage := s.stage.publish a
        live := if s.stage.subscribed then s.live ++ [a] else s.live }
  | .fetch n =>
      match s.stage with
      | .draining ⟨[], backlog⟩ => some { s with stage := .draining (Drain.fetch ⟨[], backlog⟩ n) }
      | _ => none
  | .read =>
      match s.stage with
      | .draining ⟨a :: batch, backlog⟩ =>
          some { s with stage := .draining ⟨batch, backlog⟩, found := s.found ++ [a] }
      | _ => none
  | .timeout =>
      match s.stage with
      | .draining ⟨[], _⟩ => some { s with stage := .building }
      | _ => none
  | .subscribe =>
      match s.stage with
      | .building => some { s with stage := .watching }
      | _ => none
  | .deliver =>
      match s.live with
      | a :: rest => some { s with live := rest, stopping := s.stopping || isNews s.found a }
      | [] => none
  | .finish =>
      match s.stage with
      | .watching => some { s with stage := .started }
      | _ => none

/-- hardware-io's startup, and the stream. -/
def startup (ι R T B : Type) [DecidableEq ι] [DecidableEq R] [DecidableEq T] [DecidableEq B] :
    Machine (Startup ι R T B) (StartupAction ι R T B) where
  step := fun s a => s.step a

/-- What the broker has still to send the drain. -/
def StartupStage.backlog {μ : Type} : StartupStage μ → List μ
  | .draining d => d.backlog
  | .building | .watching | .started => []

/-- What the stream retained when the drain ended. -/
def Startup.note (s : Startup ι R T B) (a : StartupAction ι R T B) (_ : Startup ι R T B)
    (drained : List (DeviceAssignment ι R T B)) : List (DeviceAssignment ι R T B) :=
  match a with
  | .timeout => s.retained
  | _ => drained

/-- The startup, and what the stream retained when the drain ended. -/
abbrev startupDrained (ι R T B : Type) [DecidableEq ι] [DecidableEq R] [DecidableEq T]
    [DecidableEq B] :
    Machine (Startup ι R T B × List (DeviceAssignment ι R T B)) (StartupAction ι R T B) :=
  (startup ι R T B).ghost Startup.note

/-- The drain leaves nothing behind, and from its end to the subscription the stream's adopted
assignments stay the same. -/
def Unmoved (p : Startup ι R T B × List (DeviceAssignment ι R T B)) : StartupAction ι R T B → Prop
  | .timeout => p.1.stage.backlog = []
  | .subscribe => adoptedEntries p.1.retained = adoptedEntries p.2
  | _ => True

instance (p : Startup ι R T B × List (DeviceAssignment ι R T B)) :
    (a : StartupAction ι R T B) → Decidable (Unmoved p a)
  | .timeout => inferInstanceAs (Decidable (_ = []))
  | .subscribe => inferInstanceAs (Decidable (_ = _))
  | .publish _ | .fetch _ | .read | .deliver | .finish => .isTrue trivial

/-! ### Device by device -/

section LastPerDevice
omit [DecidableEq R] [DecidableEq T] [DecidableEq B]
variable {l l' : List (DeviceAssignment ι R T B)} {c : ι} {a : DeviceAssignment ι R T B}

theorem mem_lastPerDevice (h : a ∈ lastPerDevice l) : a ∈ l := by
  induction l with
  | nil => cases h
  | cons b rest ih =>
      rw [lastPerDevice] at h
      split at h
      · exact List.mem_cons_of_mem _ (ih h)
      · rcases List.mem_cons.mp h with rfl | h
        · exact List.mem_cons_self
        · exact List.mem_cons_of_mem _ (ih h)

/-- One assignment for each device. -/
theorem nodup_lastPerDevice : ((lastPerDevice l).map DeviceAssignment.deviceId).Nodup := by
  induction l with
  | nil => exact List.nodup_nil
  | cons b rest ih =>
      rw [lastPerDevice]
      split
      · exact ih
      · next hb =>
          refine List.nodup_cons.mpr ⟨fun hmem => hb ?_, ih⟩
          obtain ⟨a, ha, hab⟩ := List.mem_map.mp hmem
          exact List.any_eq_true.mpr ⟨a, mem_lastPerDevice ha, decide_eq_true hab⟩

/-- `_last_per_device` keeps what each device ends with. -/
theorem last_lastPerDevice :
    last DeviceAssignment.deviceId c (lastPerDevice l) = last DeviceAssignment.deviceId c l := by
  induction l with
  | nil => rfl
  | cons b rest ih =>
      rw [lastPerDevice, last_cons]
      split
      · next hb =>
          obtain ⟨a, ha, hab⟩ := List.any_eq_true.mp hb
          rw [ih]
          by_cases hc : b.deviceId = c
          · -- a later assignment of the device decides
            have hsome := isSome_last_of_mem DeviceAssignment.deviceId ha
            rw [of_decide_eq_true hab, hc] at hsome
            obtain ⟨x, hx⟩ := Option.isSome_iff_exists.mp hsome
            rw [hx]
            rfl
          · rw [if_neg hc, Option.or_none]
      · rw [last_cons, ih]

end LastPerDevice

/-! ### The invariant -/

/-- What an unmoved stream keeps. -/
structure Heard (p : Startup ι R T B × List (DeviceAssignment ι R T B)) : Prop where
  distinct : (p.1.retained.map DeviceAssignment.deviceId).Nodup
  drainedDistinct : (p.2.map DeviceAssignment.deviceId).Nodup
  unheard : p.1.stage.subscribed = false → p.1.live = []
  live : Trails DeviceAssignment.deviceId p.1.retained p.1.live
  /-- What has no message to come has been read. -/
  draining : ∀ d, p.1.stage = .draining d → Trails DeviceAssignment.deviceId p.1.retained d.pending ∧
    ∀ c, last DeviceAssignment.deviceId c d.pending = none →
      last DeviceAssignment.deviceId c p.1.found = last DeviceAssignment.deviceId c p.1.retained
  building : p.1.stage = .building → ∀ c,
    last DeviceAssignment.deviceId c p.1.found = last DeviceAssignment.deviceId c p.2
  watching : p.1.stage.subscribed = true → p.1.stopping = true ∨
    ∀ c, last DeviceAssignment.deviceId c p.1.live = none →
      offer (last DeviceAssignment.deviceId c p.1.found) =
        offer (last DeviceAssignment.deviceId c p.1.retained)

omit [DecidableEq R] [DecidableEq T] [DecidableEq B] in
/-- A startup that has just connected has heard nothing. -/
theorem heard_connected (published : List (DeviceAssignment ι R T B)) :
    Heard (Startup.connected published, []) where
  distinct := nodup_foldl_retain List.nodup_nil
  drainedDistinct := List.nodup_nil
  unheard := fun _ => rfl
  live := .nil
  draining := by
    rintro d ⟨⟩
    exact ⟨.refl, fun c hc => hc.symm⟩
  building := nofun
  watching := nofun

variable {s s' : Startup ι R T B} {drained : List (DeviceAssignment ι R T B)}
  {a : StartupAction ι R T B}

omit [DecidableEq R] [DecidableEq T] [DecidableEq B] in
/-- A publish keeps it, whatever the stage. -/
theorem Heard.publish (h : Heard (s, drained)) (a : DeviceAssignment ι R T B) :
    Heard ({ s with
      retained := retain DeviceAssignment.deviceId s.retained a
      stage := s.stage.publish a
      live := if s.stage.subscribed then s.live ++ [a] else s.live }, drained) := by
  have hsub : (s.stage.publish a).subscribed = s.stage.subscribed := by
    cases s.stage <;> rfl
  refine ⟨nodup_retain h.distinct, h.drainedDistinct, fun hs => ?_, ?_, fun d hd => ?_,
    fun hb => h.building ?_, fun hs => ?_⟩
  · have hs : s.stage.subscribed = false := hsub.symm.trans hs
    simpa [hs] using h.unheard hs
  · by_cases hs : s.stage.subscribed = true
    · rw [if_pos hs]
      exact h.live.publish fun c => last_concat
    · rw [if_neg hs, h.unheard (by simpa using hs)]
      exact .nil
  · cases hstage : s.stage with
    | building | watching | started => rw [hstage] at hd; cases hd
    | draining d₀ =>
        rw [hstage] at hd
        cases hd
        obtain ⟨htrails, hread⟩ := h.draining d₀ hstage
        refine ⟨htrails.publish fun c => Drain.last_pending_publish, fun c hc => ?_⟩
        rw [Drain.last_pending_publish] at hc
        split at hc
        · cases hc
        · next hne => rw [last_retain, if_neg hne]; exact hread c hc
  · cases hstage : s.stage with
    | building => rfl
    | draining d₀ | watching | started =>
        have hb : s.stage.publish a = .building := hb
        rw [hstage] at hb
        cases hb
  · have hs : s.stage.subscribed = true := hsub.symm.trans hs
    refine (h.watching hs).imp_right fun hall c hc => ?_
    have hc : last DeviceAssignment.deviceId c
        (if s.stage.subscribed then s.live ++ [a] else s.live) = none := hc
    rw [if_pos hs, last_concat] at hc
    split at hc
    · cases hc
    · next hne => rw [last_retain, if_neg hne]; exact hall c hc

/-- A message handed over keeps it: one that is no news says what was read. -/
theorem Heard.deliver (h : Heard (s, drained)) {a : DeviceAssignment ι R T B}
    {rest : List (DeviceAssignment ι R T B)} (hl : s.live = a :: rest) :
    Heard ({ s with live := rest, stopping := s.stopping || isNews s.found a }, drained) := by
  have hlive : Trails DeviceAssignment.deviceId s.retained (a :: rest) := hl ▸ h.live
  refine ⟨h.distinct, h.drainedDistinct, fun hs => ?_, hlive.tail, h.draining, h.building,
    fun hs => ?_⟩
  · have hnil : s.live = [] := h.unheard hs
    rw [hl] at hnil
    cases hnil
  · by_cases hnews : isNews s.found a = true
    · exact .inl (by rw [hnews, Bool.or_true])
    · have hknown : known s.found a.deviceId = some (fingerprint a) := by
        simpa [isNews] using hnews
      refine (h.watching hs).imp (fun hstop => by rw [show s.stopping = true from hstop, Bool.true_or])
        fun hall c hc => ?_
      by_cases he : a.deviceId = c
      · subst he
        obtain ⟨b, hb, hfp⟩ := Option.map_eq_some_iff.mp hknown
        change offer (last DeviceAssignment.deviceId a.deviceId s.found) =
          offer (last DeviceAssignment.deviceId a.deviceId s.retained)
        rw [hlive.head hc, hb]
        simp only [fingerprint, Prod.mk.injEq] at hfp
        obtain ⟨had, hrole, htype, hbind⟩ := hfp
        simp [offer, Option.filter_some, entry, had, hrole, htype, hbind, (mem_of_last hb).2]
      · refine hall c ?_
        change last DeviceAssignment.deviceId c s.live = none
        rw [hl, last_cons, show last DeviceAssignment.deviceId c rest = none from hc, if_neg he]
        rfl

/-- **The invariant is kept** by every step of an unmoved stream. -/
theorem heard_step (h : Heard (s, drained)) (hC : Unmoved (s, drained) a)
    (hs : (startup ι R T B).step s a = some s') : Heard (s', Startup.note s a s' drained) := by
  change s.step a = some s' at hs
  cases a with
  | publish a => cases hs; exact h.publish a
  | fetch n =>
      simp only [Startup.step] at hs
      split at hs
      · next hd =>
          cases hs
          refine ⟨h.distinct, h.drainedDistinct, fun _ => h.unheard (by rw [hd]; rfl), h.live, ?_,
            by rintro ⟨⟩, by rintro ⟨⟩⟩
          rintro d ⟨⟩
          obtain ⟨htrails, hread⟩ := h.draining _ hd
          exact ⟨by rwa [Drain.pending_fetch], fun c hc => hread c (by rwa [Drain.pending_fetch] at hc)⟩
      · cases hs
  | read =>
      simp only [Startup.step] at hs
      split at hs
      · next a batch backlog hd =>
          cases hs
          refine ⟨h.distinct, h.drainedDistinct, fun _ => h.unheard (by rw [hd]; rfl), h.live, ?_,
            by rintro ⟨⟩, by rintro ⟨⟩⟩
          rintro d ⟨⟩
          obtain ⟨htrails, hread⟩ := h.draining _ hd
          have htrails : Trails DeviceAssignment.deviceId s.retained (a :: (batch ++ backlog)) := htrails
          refine ⟨htrails.tail, fun c hc => ?_⟩
          rw [last_concat]
          split
          · next he => subst he; exact (htrails.head hc).symm
          · next hne =>
              refine hread c ?_
              change last DeviceAssignment.deviceId c (a :: (batch ++ backlog)) = none
              rw [last_cons, if_neg hne, Option.or_none]
              exact hc
      · cases hs
  | timeout =>
      simp only [Startup.step] at hs
      split at hs
      · next backlog hd =>
          cases hs
          have hb : s.stage.backlog = [] := hC
          rw [hd] at hb
          obtain ⟨-, hread⟩ := h.draining _ hd
          refine ⟨h.distinct, h.distinct, fun _ => h.unheard (by rw [hd]; rfl), h.live, by rintro _ ⟨⟩,
            fun _ c => hread c ?_, by rintro ⟨⟩⟩
          exact congrArg (last DeviceAssignment.deviceId c) hb
      · cases hs
  | subscribe =>
      simp only [Startup.step] at hs
      split at hs
      · next hb =>
          cases hs
          refine ⟨h.distinct, h.drainedDistinct, by rintro ⟨⟩, h.live, by rintro _ ⟨⟩, by rintro ⟨⟩,
            fun _ => .inr ?_⟩
          intro c _
          have hsame := (adoptedEntries_eq_iff h.distinct h.drainedDistinct).mp hC c
          rw [show last DeviceAssignment.deviceId c s.found = _ from h.building hb c]
          exact hsame.symm
      · cases hs
  | deliver =>
      simp only [Startup.step] at hs
      split at hs
      · next hl => cases hs; exact h.deliver hl
      · cases hs
  | finish =>
      simp only [Startup.step] at hs
      split at hs
      · next hw =>
          cases hs
          exact ⟨h.distinct, h.drainedDistinct, by rintro ⟨⟩, h.live, by rintro _ ⟨⟩, by rintro ⟨⟩,
            fun _ => h.watching (by rw [hw]; rfl)⟩
      · cases hs

/-- **No assignment change is missed**, where the stream does not move between the drain and the
subscription: with startup finished and nothing in flight, hardware-io was built from what the
stream retains, or a restart has been requested. -/
theorem startup_complete {published : List (DeviceAssignment ι R T B)}
    {as : List (StartupAction ι R T B)}
    (h : (startupDrained ι R T B).RunIf Unmoved (Startup.connected published, []) as (s, drained))
    (hstarted : s.stage = .started) (hl : s.live = []) :
    adoptedEntries (lastPerDevice s.found) = adoptedEntries s.retained ∨ s.stopping = true := by
  have hI : Heard (s, drained) := h.invariant (heard_connected published)
    (Machine.ghost_preserves fun _ _ _ _ hC hI hs => heard_step hI hC hs)
  refine (hI.watching (by rw [hstarted]; rfl)).symm.imp_left fun hall => ?_
  rw [adoptedEntries_eq_iff nodup_lastPerDevice hI.distinct]
  intro c
  rw [last_lastPerDevice]
  exact hall c (by rw [show s.live = [] from hl]; rfl)

/-- Device `0` with its channel, or its tombstone. -/
def lightAssignment (adopted : Bool) : DeviceAssignment ℕ Unit Unit Unit :=
  ⟨0, adopted, none, some (), some (), bound_unit adopted⟩

/-- The light is read; something is published while its driver is opened, and echoed later. -/
def startupWith (opening live : List (StartupAction ℕ Unit Unit Unit)) :
    List (StartupAction ℕ Unit Unit Unit) :=
  [.fetch 32, .read, .timeout] ++ opening ++ [.subscribe] ++ live ++ [.finish]

/-- An assignment is published again while the startup drains. -/
theorem startup_complete_echo :
    ∃ p, (startupDrained ℕ Unit Unit Unit).RunIf Unmoved
        (Startup.connected [lightAssignment true], [])
        (startupWith [.publish (lightAssignment true)]
          [.publish (lightAssignment true), .deliver]) p ∧
      (adoptedEntries (lastPerDevice p.1.found) = adoptedEntries p.1.retained ∨
        p.1.stopping = true) ∧ p.1.stopping = false := by
  have hrun : ((startupDrained ℕ Unit Unit Unit).execIf Unmoved
      (Startup.connected [lightAssignment true], [])
      (startupWith [.publish (lightAssignment true)]
        [.publish (lightAssignment true), .deliver])).map
      (fun p => (decide (p.1.stage = .started ∧ p.1.live = []), p.1.stopping)) =
      some (true, false) := by
    decide +kernel
  obtain ⟨p, hp, hl⟩ := Option.map_eq_some_iff.mp hrun
  obtain ⟨hrest, hstop⟩ := Prod.ext_iff.mp hl
  obtain ⟨hstarted, hlive⟩ := of_decide_eq_true hrest
  have hp := Machine.execIf_eq_some.mp hp
  exact ⟨p, hp, startup_complete hp hstarted hlive, hstop⟩

/-- The light's tombstone is published while its driver is opened. -/
theorem not_startup_complete :
    ¬ ∀ (published : List (DeviceAssignment ℕ Unit Unit Unit))
      (as : List (StartupAction ℕ Unit Unit Unit)) (s : Startup ℕ Unit Unit Unit),
      (startup ℕ Unit Unit Unit).Run (Startup.connected published) as s →
      s.stage = .started → s.live = [] →
      adoptedEntries (lastPerDevice s.found) = adoptedEntries s.retained ∨ s.stopping = true := by
  intro h
  have hrun : ((startup ℕ Unit Unit Unit).exec (Startup.connected [lightAssignment true])
      (startupWith [.publish (lightAssignment false)] [])).map
      (fun s => (decide (s.stage = .started ∧ s.live = []),
        decide (adoptedEntries (lastPerDevice s.found) = adoptedEntries s.retained ∨
          s.stopping = true))) = some (true, false) := by
    decide +kernel
  obtain ⟨s, hs, hl⟩ := Option.map_eq_some_iff.mp hrun
  obtain ⟨hrest, hmissed⟩ := Prod.ext_iff.mp hl
  obtain ⟨hstarted, hlive⟩ := of_decide_eq_true hrest
  exact of_decide_eq_false hmissed (h _ _ s (Machine.exec_eq_some.mp hs) hstarted hlive)

end BellasReef.HardwareIO
