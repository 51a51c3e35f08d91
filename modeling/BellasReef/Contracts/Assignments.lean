import BellasReef.Contracts.Messages
import BellasReef.Support.Retained
import Mathlib.Data.Finset.Basic

/-!
# Contracts — Assignments

What a list of assignments says of the adopted devices: the assignments retained on the stream,
those a service has read, or those a table of devices gives.  Where no device occurs twice, two
lists say the same when each device's last assignment does (`adoptedEntries_eq_iff`).
-/

namespace BellasReef.Contracts
open BellasReef.Support

variable {ι R T B : Type}

/-- What is built from an assignment. -/
def entry (a : DeviceAssignment ι R T B) : ι × Option R × Option T × Option B :=
  (a.deviceId, a.role, a.driverType, a.binding)

/-- What a device's last assignment offers to build. -/
def offer (a : Option (DeviceAssignment ι R T B)) : Option (ι × Option R × Option T × Option B) :=
  (a.filter DeviceAssignment.adopted).map entry

variable [DecidableEq ι]

/-- The devices whose assignment is adopted. -/
def adoptedDevices (l : List (DeviceAssignment ι R T B)) : Finset ι :=
  ((l.filter DeviceAssignment.adopted).map DeviceAssignment.deviceId).toFinset

variable {l l' : List (DeviceAssignment ι R T B)} {c : ι}

theorem mem_adoptedDevices (h : (l.map DeviceAssignment.deviceId).Nodup) :
    c ∈ adoptedDevices l ↔
      (last DeviceAssignment.deviceId c l).any DeviceAssignment.adopted = true := by
  rw [Option.any_eq_true, adoptedDevices, List.mem_toFinset, List.mem_map]
  constructor
  · rintro ⟨a, ha, hc⟩
    obtain ⟨hmem, had⟩ := List.mem_filter.mp ha
    exact ⟨a, (last_eq_some_iff h).mpr ⟨hmem, hc⟩, had⟩
  · rintro ⟨a, ha, had⟩
    obtain ⟨hmem, hc⟩ := mem_of_last ha
    exact ⟨a, List.mem_filter.mpr ⟨hmem, had⟩, hc⟩

variable [DecidableEq R] [DecidableEq T] [DecidableEq B]

/-- The adopted assignments of a list, as they are built. -/
def adoptedEntries (l : List (DeviceAssignment ι R T B)) :
    Finset (ι × Option R × Option T × Option B) :=
  ((l.filter DeviceAssignment.adopted).map entry).toFinset

theorem mem_adoptedEntries {e : ι × Option R × Option T × Option B}
    (h : (l.map DeviceAssignment.deviceId).Nodup) :
    e ∈ adoptedEntries l ↔ offer (last DeviceAssignment.deviceId e.1 l) = some e := by
  rw [adoptedEntries, List.mem_toFinset, List.mem_map, offer, Option.map_eq_some_iff]
  constructor
  · rintro ⟨a, ha, rfl⟩
    obtain ⟨hmem, had⟩ := List.mem_filter.mp ha
    have hlast : last DeviceAssignment.deviceId (entry a).1 l = some a :=
      (last_eq_some_iff h).mpr ⟨hmem, rfl⟩
    exact ⟨a, by rw [hlast, Option.filter_some, if_pos had], rfl⟩
  · rintro ⟨a, ha, rfl⟩
    obtain ⟨hlast, had⟩ := Option.filter_eq_some_iff.mp ha
    exact ⟨a, List.mem_filter.mpr ⟨(mem_of_last hlast).1, had⟩, rfl⟩

/-- Two lists have the same adopted assignments when each device has. -/
theorem adoptedEntries_eq_iff (h : (l.map DeviceAssignment.deviceId).Nodup)
    (h' : (l'.map DeviceAssignment.deviceId).Nodup) :
    adoptedEntries l = adoptedEntries l' ↔
      ∀ c, offer (last DeviceAssignment.deviceId c l) =
        offer (last DeviceAssignment.deviceId c l') := by
  have hid : ∀ {l : List (DeviceAssignment ι R T B)} {c e},
      offer (last DeviceAssignment.deviceId c l) = some e → e.1 = c := by
    intro l c e he
    obtain ⟨a, ha, rfl⟩ := Option.map_eq_some_iff.mp he
    exact (mem_of_last (Option.filter_eq_some_iff.mp ha).1).2
  constructor
  · intro heq c
    refine Option.ext fun e => ⟨fun he => ?_, fun he => ?_⟩
    · have hc := hid he
      subst hc
      exact (mem_adoptedEntries h').mp (heq ▸ (mem_adoptedEntries h).mpr he)
    · have hc := hid he
      subst hc
      exact (mem_adoptedEntries h).mp (heq ▸ (mem_adoptedEntries h').mpr he)
  · intro hall
    ext e
    rw [mem_adoptedEntries h, mem_adoptedEntries h', hall]

end BellasReef.Contracts
