import BellasReef.Contracts.Messages
import Mathlib.Data.Finset.Basic

/-!
# ControlEngine — Assignments

`AssignmentLedger` (`assignments.py`): the devices an operator has adopted, as the engine knows
them.
-/

namespace BellasReef.ControlEngine
open BellasReef.Contracts

/-- The devices that are adopted, by what was heard last. -/
structure AssignmentLedger (ι : Type) where
  adopted : Finset ι
  deriving DecidableEq

namespace AssignmentLedger
variable {ι R T B : Type} [DecidableEq ι]

/-- `is_adopted`. -/
def isAdopted (l : AssignmentLedger ι) (deviceId : ι) : Bool := decide (deviceId ∈ l.adopted)

/-- `apply`: the ledger, and the device that `on_tombstone` is called with. -/
def apply (l : AssignmentLedger ι) (a : DeviceAssignment ι R T B) :
    AssignmentLedger ι × Option ι :=
  if a.adopted then (⟨insert a.deviceId l.adopted⟩, none)
  else (⟨l.adopted.erase a.deviceId⟩, some a.deviceId)

variable {l : AssignmentLedger ι} {a : DeviceAssignment ι R T B} {c : ι}

/-- An assignment decides its own device, and no other. -/
theorem mem_apply :
    c ∈ (l.apply a).1.adopted ↔ if a.deviceId = c then a.adopted = true else c ∈ l.adopted := by
  rw [apply]
  by_cases hc : a.deviceId = c
  · subst hc
    cases a.adopted <;> simp
  · have hc' : c ≠ a.deviceId := Ne.symm hc
    cases a.adopted <;> simp [hc, hc']

/-- `on_tombstone` is called for a tombstone, and for nothing else. -/
theorem apply_tombstone :
    (l.apply a).2 = if a.adopted then none else some a.deviceId := by
  rw [apply]
  split <;> rfl

end AssignmentLedger

end BellasReef.ControlEngine
