import BellasReef.HardwareIO.Supervisor
import BellasReef.Support.Traced

/-!
# HardwareIO — Draining

One batch through `CommandConsumer.drain_once` (`spine.py`), with everything around the
supervisor that can fail: the payload, `apply`, the two publishes and the read-back.  `ack`,
`term` and `nak` themselves succeed.

* `drainBatch_settles`: every message is settled once, by how the supervisor took it; nothing
  escapes; and what is done about one message depends on that message alone.
-/

namespace BellasReef.HardwareIO
open BellasReef.Contracts BellasReef.Support

variable {ι L : Type}

/-- How a message is disposed of. -/
inductive Settlement where
  | ack
  | term
  | nak
  deriving DecidableEq, Repr

/-- What `_audit` sends. -/
inductive CommandAudit (ι L : Type) where
  | malformedCommand
  | commandRefused (outcome : CommandOutcome) (c : ActuatorCommand ι L)

/-- What `drain_once` does to the world about one message; a publish is an attempt. -/
inductive DrainEffect (ι L : Type) where
  | apply (c : ActuatorCommand ι L)
  | audit (e : CommandAudit ι L)
  | publish (s : ActuatorState L)
  | settle (s : Settlement)

/-- What the broker is told. -/
def DrainEffect.settlement : DrainEffect ι L → Option Settlement
  | .settle s => some s
  | _ => none

/-- A command is handed to the supervisor. -/
def DrainEffect.isApply : DrainEffect ι L → Bool
  | .apply _ => true
  | _ => false

/-- One fetched message, and what befalls its handling. -/
structure Delivery (ι L : Type) where
  /-- `none` where the payload does not satisfy the contract. -/
  command : Option (ActuatorCommand ι L)
  /-- What `supervisor.apply` returns; `none` where it raises. -/
  returned : Option CommandOutcome
  auditFails : Bool
  /-- What `read_back` reports; `none` where it, or `driver_of`, raises. -/
  readBack : Option (Option L)
  /-- `effective_level`; `none` where it raises. -/
  effectiveLevel : Option L
  publishFails : Bool

/-- A computation about one message; an exception's kind is not told apart. -/
abbrev Handling (ι L : Type) := Traced Unit (DrainEffect ι L)

/-- A call of the environment's. -/
def Handling.call {α : Type} (answer : Option α) : Handling ι L α :=
  match answer with
  | some a => pure a
  | none => .raise ()

/-- A publish that may fail, best-effort. -/
def Handling.attempt (e : DrainEffect ι L) (fails : Bool) : Handling ι L Unit :=
  .except (do
    .perform e
    if fails then .raise () else pure ()) fun _ => pure ()

namespace Delivery

/-- `_publish_applied_state`. -/
def publishAppliedState (d : Delivery ι L) (c : ActuatorCommand ι L) : Handling ι L Unit := do
  let level ← .except (do
    match ← Handling.call d.readBack with
    | some l => pure l
    | none => Handling.call d.effectiveLevel) fun _ => pure c.level
  Handling.attempt (.publish ⟨level, .commanded, false⟩) d.publishFails

/-- One round of the loop: the outcome it appends, if any. -/
def handle (d : Delivery ι L) : Handling ι L (Option CommandOutcome) :=
  match d.command with
  | none => do
      Handling.attempt (.audit .malformedCommand) d.auditFails
      .perform (.settle .term)
      pure none
  | some c => do
      let returned ← .except (do
        .perform (.apply c)
        let outcome ← Handling.call d.returned
        pure (some outcome)) fun _ => pure none
      match returned with
      | none => do
          .perform (.settle .nak)
          pure none
      | some .applied => do
          .perform (.settle .ack)
          d.publishAppliedState c
          pure (some .applied)
      | some outcome => do
          Handling.attempt (.audit (.commandRefused outcome c)) d.auditFails
          .perform (.settle .term)
          pure (some outcome)

/-- The outcome of a command that did not raise. -/
def outcome (d : Delivery ι L) : Option CommandOutcome :=
  d.command.bind fun _ => d.returned

end Delivery

/-- `drain_once`, past its fetch: what it performed on each message, and the outcomes. -/
def drainBatch (ds : List (Delivery ι L)) :
    Traced Unit (ℕ × DrainEffect ι L) (List CommandOutcome) :=
  Traced.collectIdx Delivery.handle ds

/-! ### One message -/

/-- What is performed on a message: by its payload, then by what the supervisor made of it. -/
inductive Handled (d : Delivery ι L) : List (DrainEffect ι L) → Prop where
  | malformed (hc : d.command = none) :
      Handled d [.audit .malformedCommand, .settle .term]
  | faulted {c : ActuatorCommand ι L} (hc : d.command = some c) (hr : d.returned = none) :
      Handled d [.apply c, .settle .nak]
  | applied {c : ActuatorCommand ι L} (l : L) (hc : d.command = some c)
      (hr : d.returned = some .applied) :
      Handled d [.apply c, .settle .ack, .publish ⟨l, .commanded, false⟩]
  | refused {c : ActuatorCommand ι L} {o : CommandOutcome} (hc : d.command = some c)
      (hr : d.returned = some o) (ho : o ≠ .applied) :
      Handled d [.apply c, .audit (.commandRefused o c), .settle .term]

@[simp]
theorem attempt_eq (e : DrainEffect ι L) (fails : Bool) :
    Handling.attempt e fails = ⟨[e], .ok ()⟩ := by
  cases fails <;> rfl

/-- A level is decided on and sent, whatever can be read. -/
theorem publishAppliedState_eq (d : Delivery ι L) (c : ActuatorCommand ι L) :
    ∃ l, d.publishAppliedState c = ⟨[.publish ⟨l, .commanded, false⟩], .ok ()⟩ := by
  rw [Delivery.publishAppliedState]
  -- the level is the driver's, or the supervisor's, or the command's own
  cases d.readBack with
  | none => exact ⟨c.level, by simp [Handling.call]⟩
  | some read =>
      cases read with
      | some l => exact ⟨l, by simp [Handling.call]⟩
      | none =>
          cases d.effectiveLevel with
          | none => exact ⟨c.level, by simp [Handling.call]⟩
          | some l => exact ⟨l, by simp [Handling.call]⟩

/-- **One round** does not raise, and does one of four things. -/
theorem handle_cases (d : Delivery ι L) :
    d.handle.result = .ok d.outcome ∧ Handled d d.handle.trace := by
  rw [Delivery.handle, Delivery.outcome]
  cases hc : d.command with
  | none => simpa using .malformed hc
  | some c =>
      cases hr : d.returned with
      | none => simpa [Handling.call] using .faulted hc hr
      | some o =>
          obtain ⟨l, hl⟩ := publishAppliedState_eq d c
          cases o with
          | applied => simpa [Handling.call, hl] using .applied l hc hr
          | _ => simpa [Handling.call] using .refused hc hr (by simp)

/-! ### Every batch -/

/-- What was settled about a message, and how. -/
def settlements (es : List (DrainEffect ι L)) : List Settlement :=
  es.filterMap DrainEffect.settlement

/-- A batch always returns, with the outcomes of its deliveries. -/
theorem result_drainBatch (ds : List (Delivery ι L)) :
    (drainBatch ds).result = .ok (ds.filterMap Delivery.outcome) := by
  rw [drainBatch, Traced.collectIdx_eq fun d => (handle_cases d).1]

/-- **Each message is disposed of once.** -/
theorem drainBatch_settles (ds : List (Delivery ι L)) :
    (drainBatch ds).result = .ok (ds.filterMap Delivery.outcome) ∧
    ∀ i d, ds[i]? = some d →
      let mine := Traced.performedOn i (drainBatch ds).trace
      (∃ s, settlements mine = [s] ∧
        (s = .ack ↔ d.outcome = some .applied) ∧
        (s = .term ↔ d.command = none ∨ ∃ o, d.outcome = some o ∧ o ≠ .applied) ∧
        (s = .nak ↔ (∃ c, d.command = some c) ∧ d.returned = none) ∧
        (s = .term → ∃ before e, mine = before ++ [.audit e, .settle .term])) ∧
      mine.countP DrainEffect.isApply ≤ 1 ∧
      ∀ ds', ds'[i]? = some d → Traced.performedOn i (drainBatch ds').trace = mine := by
  have hhandle := fun d : Delivery ι L => (handle_cases d).1
  refine ⟨result_drainBatch ds, fun i d hd => ?_⟩
  -- what is performed on a message depends on no other
  have hmine : Traced.performedOn i (drainBatch ds).trace = d.handle.trace :=
    Traced.performedOn_collectIdx hhandle hd
  simp only [hmine]
  have hsegment := (handle_cases d).2
  refine ⟨?_, ?_, fun ds' hd' => Traced.performedOn_collectIdx hhandle hd'⟩
  · generalize d.handle.trace = mine at hsegment
    cases hsegment with
    | malformed hc =>
        exact ⟨.term, rfl, by simp [Delivery.outcome, hc], by simp [hc], by simp [hc],
          fun _ => ⟨[], _, rfl⟩⟩
    | faulted hc hr =>
        exact ⟨.nak, rfl, by simp [Delivery.outcome, hr], by simp [Delivery.outcome, hc, hr],
          by simp [hc, hr], nofun⟩
    | applied l hc hr =>
        exact ⟨.ack, rfl, by simp [Delivery.outcome, hc, hr], by simp [Delivery.outcome, hc, hr],
          by simp [hr], nofun⟩
    | refused hc hr ho =>
        exact ⟨.term, rfl, by simp [Delivery.outcome, hc, hr, ho],
          by simp [Delivery.outcome, hc, hr, ho], by simp [hr], fun _ => ⟨[_], _, rfl⟩⟩
  · generalize d.handle.trace = mine at hsegment
    cases hsegment <;> simp [List.countP_cons, DrainEffect.isApply]

/-- A malformed payload, a driver fault, an expired command, and one that is applied with
nothing else working. -/
def troubledBatch : List (Delivery Unit Unit) :=
  let c : ActuatorCommand Unit Unit := ⟨(), (), 0, 30, by decide⟩
  [⟨none, none, true, none, none, true⟩, ⟨some c, none, false, none, none, false⟩,
    ⟨some c, some .rejectedExpired, true, none, none, true⟩,
    ⟨some c, some .applied, true, none, none, true⟩]

theorem troubledBatch_settles :
    settlements (Traced.performedOn 3 (drainBatch troubledBatch).trace) = [.ack] ∧
    settlements (Traced.performedOn 0 (drainBatch troubledBatch).trace) = [.term] := by
  have h := (drainBatch_settles troubledBatch).2
  obtain ⟨⟨s, hs, hack, -⟩, -⟩ := h 3 _ rfl
  obtain ⟨⟨s', hs', -, hterm, -⟩, -⟩ := h 0 _ rfl
  obtain rfl := hack.mpr rfl
  obtain rfl := hterm.mpr (.inl rfl)
  exact ⟨hs, hs'⟩

end BellasReef.HardwareIO
