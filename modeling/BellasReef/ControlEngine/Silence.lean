import BellasReef.ControlEngine.Ownership
import Mathlib.Tactic.Linarith

/-!
# ControlEngine — Silence

`SilenceWatcher` of `alerts.py`, with the calls of the store that it makes: a sweep goes through the
declared cadences and stops at the first call that raises, and a good reading ends the silence of
its probe.  Each call of the store succeeds, fails, or commits and reports an error all the same;
each message gets out or does not.

* `sweepOver_finished`: a sweep that comes to its end has raised what was overdue, and no more;
  `FullSweep.episode` and `FullSweep.mirrors` are what that makes of the record.
* `onReading_finished`: so has a reading cleared what was silent.
* `breach_accepted`, `cleared_accepted`: no message is turned down by its own validator.
-/

namespace BellasReef.ControlEngine
open BellasReef.Support

variable {δ : Type}

/-- A probe has stopped reporting, or reports again. -/
structure SensorSilence (δ : Type) where
  deviceId : δ
  sensorType : String
  state : AlertState
  silentForS : ℚ
  silenceThresholdS : ℚ
  lastReadingAt : Option ℚ
  emittedAt : ℚ
  deriving DecidableEq

/-- Its fields' bounds, and `_a_raise_must_satisfy_its_own_deadline`. -/
def SensorSilence.accepted (m : SensorSilence δ) : Bool :=
  decide (0 ≤ m.silentForS) && decide (0 < m.silenceThresholdS) &&
    !(decide (m.state = .breach) && decide (m.silentForS < m.silenceThresholdS))

/-- An open silence, as the record has it. -/
structure SilenceEpisode where
  sensorType : String
  raisedAt : ℚ
  lastReadingAt : Option ℚ
  deriving DecidableEq

/-- What `cadences` returns: a number for each of some devices. -/
structure Cadences (δ : Type) where
  rows : List (δ × ℚ)
  nodup : (rows.map Prod.fst).Nodup

/-- `SilenceWatcher`: when each probe was last heard, and which are silent. -/
structure SilenceWatcher (δ : Type) where
  lastSeen : δ → Option ℚ
  sensorTypes : δ → Option String
  silent : δ → Bool

/-- The watcher, what it reads and writes of the record, and what it has published. -/
structure SilenceWatch (δ : Type) where
  cadences : Cadences δ
  episodes : δ → Option SilenceEpisode
  watcher : SilenceWatcher δ
  published : List (SensorSilence δ)

/-- What comes of a call of the store. -/
inductive CallFate where
  | succeeds
  | fails
  /-- It commits, and reports an error. -/
  | lost
  deriving DecidableEq

/-- A call that the store may refuse: what it leaves, and whether it returns. -/
def CallFate.of {σ : Type} (fate : CallFate) (s : σ) (written : Option σ) : σ × Bool :=
  match fate, written with
  | .succeeds, some s' => (s', true)
  | .lost, some s' => (s', false)
  | .fails, _ | _, none => (s, false)

/-- What comes of the calls of a sweep. -/
structure SweepFates (δ : Type) where
  cadences : Bool
  raise : δ → CallFate
  publish : δ → Bool

/-- All of them succeed. -/
def SweepFates.calm : SweepFates δ := ⟨true, fun _ => .succeeds, fun _ => true⟩

/-- And of those of a reading. -/
structure ReadingFates where
  clear : CallFate
  cadences : Bool
  publish : Bool

/-- Every call of a reading succeeds. -/
def ReadingFates.calm : ReadingFates := ⟨.succeeds, true, true⟩

/-- The probe is not known to be silent and is past its deadline, by the stamp that is returned. -/
def SilenceWatcher.overdue (w : SilenceWatcher δ) (now : ℚ) (x : δ × ℚ) : Option ℚ :=
  if w.silent x.1 then none
  else (w.lastSeen x.1).filter fun last => decide (silenceDeadlineS x.2 ≤ now - last)

/-- `_sensor_types.get(device_id, "unknown")`. -/
def SilenceWatcher.sensorType (w : SilenceWatcher δ) (d : δ) : String :=
  (w.sensorTypes d).getD "unknown"

/-- What a sweep says of a probe that is overdue. -/
def SilenceWatcher.breach (w : SilenceWatcher δ) (now : ℚ) (x : δ × ℚ) (last : ℚ) :
    SensorSilence δ :=
  { deviceId := x.1
    sensorType := w.sensorType x.1
    state := .breach
    silentForS := now - last
    silenceThresholdS := silenceDeadlineS x.2
    lastReadingAt := some last
    emittedAt := now }

/-- `silence_deadline_s(cadence) if cadence else SILENCE_FLOOR_S`. -/
def clearThresholdS : Option ℚ → ℚ
  | some cadence => if cadence = 0 then silenceFloorS else silenceDeadlineS cadence
  | none => silenceFloorS

section Steps
variable [DecidableEq δ]

/-- The interval of a probe, if it has one. -/
def Cadences.get (c : Cadences δ) (d : δ) : Option ℚ := c.rows.lookup d

/-- What a reading says of a probe that was silent. -/
def SilenceWatch.cleared (s : SilenceWatch δ) (d : δ) (sensorType : String) (now : ℚ) :
    SensorSilence δ :=
  { deviceId := d
    sensorType := sensorType
    state := .clear
    silentForS := 0
    silenceThresholdS := clearThresholdS (s.cadences.get d)
    lastReadingAt := some now
    emittedAt := now }

/-- `raise_silence`; `none` where the index has an open one already. -/
def SilenceWatch.raiseSilence (s : SilenceWatch δ) (d : δ) (e : SilenceEpisode) :
    Option (SilenceWatch δ) :=
  if (s.episodes d).isSome then none
  else some { s with episodes := Function.update s.episodes d (some e) }

/-- `clear_silence`; `none` where there is nothing to clear, or it began later. -/
def SilenceWatch.clearSilence (s : SilenceWatch δ) (d : δ) (now : ℚ) : Option (SilenceWatch δ) :=
  (s.episodes d).bind fun e =>
    if e.raisedAt ≤ now then some { s with episodes := Function.update s.episodes d none }
    else none  -- `cleared_after_raised`

/-- `_silent.add` and `_silent.discard`. -/
def SilenceWatch.mark (s : SilenceWatch δ) (d : δ) (silent : Bool) : SilenceWatch δ :=
  { s with watcher := { s.watcher with silent := Function.update s.watcher.silent d silent } }

/-- `_last_seen` and `_sensor_types`, of a good reading. -/
def SilenceWatch.seen (s : SilenceWatch δ) (d : δ) (sensorType : String) (now : ℚ) :
    SilenceWatch δ :=
  { s with watcher :=
    { s.watcher with
      lastSeen := Function.update s.watcher.lastSeen d (some now)
      sensorTypes := Function.update s.watcher.sensorTypes d (some sensorType) } }

omit [DecidableEq δ] in
/-- `_emit`: a message that its validator turns down raises, and so does one that does not get out. -/
def SilenceWatch.emit (s : SilenceWatch δ) (m : SensorSilence δ) (publishes : Bool) :
    SilenceWatch δ × Bool :=
  if m.accepted && publishes then ({ s with published := s.published ++ [m] }, true) else (s, false)

/-- The loop of a sweep: what it leaves, and whether it comes to its end. -/
def sweepOver (now : ℚ) (fates : SweepFates δ) :
    List (δ × ℚ) → SilenceWatch δ → SilenceWatch δ × Bool
  | [], s => (s, true)
  | x :: xs, s =>
      match s.watcher.overdue now x with
      | none => sweepOver now fates xs s
      | some last =>
          let episode := ⟨s.watcher.sensorType x.1, now, some last⟩
          match (fates.raise x.1).of s (s.raiseSilence x.1 episode) with
          | (s', false) => (s', false)
          | (s', true) =>
              match (s'.mark x.1 true).emit (s.watcher.breach now x last) (fates.publish x.1) with
              | (s'', false) => (s'', false)
              | (s'', true) => sweepOver now fates xs s''

/-- Check every probe against its own deadline. -/
def SilenceWatch.sweep (s : SilenceWatch δ) (now : ℚ) (fates : SweepFates δ) :
    SilenceWatch δ × Bool :=
  if fates.cadences then sweepOver now fates s.cadences.rows s else (s, false)

/-- Note that a probe is alive, and clear any silence it was under. -/
def SilenceWatch.onReading (s : SilenceWatch δ) (r : SensorReading δ) (sensorType : String)
    (now : ℚ) (fates : ReadingFates) : SilenceWatch δ × Bool :=
  if r.evaluable.isNone then (s, true)
  else
    let d := r.sensorId
    let seen := s.seen d sensorType now
    if !s.watcher.silent d then (seen, true)
    else
      match fates.clear.of seen (seen.clearSilence d now) with
      | (s', false) => (s', false)
      | (s', true) =>
          if fates.cadences then
            (s'.mark d false).emit (s.cleared d sensorType now) fates.publish
          else (s'.mark d false, false)

/-- `prime`, on a watcher that has just been made. -/
def SilenceWatch.primed (cadences : Cadences δ) (episodes : δ → Option SilenceEpisode) (now : ℚ) :
    SilenceWatch δ :=
  { cadences := cadences
    episodes := episodes
    watcher :=
      { lastSeen := fun d => if (cadences.get d).isSome then some now else none
        sensorTypes := fun _ => none
        silent := fun d => (episodes d).isSome }
    published := [] }

end Steps

/-! ### What a message says is true of itself -/

/-- No deadline is shorter than the floor. -/
theorem silenceFloorS_le (cadenceS : ℚ) : 30 ≤ silenceDeadlineS cadenceS := le_max_right _ _

/-- A threshold is positive. -/
theorem clearThresholdS_pos (cadence : Option ℚ) : 0 < clearThresholdS cadence := by
  cases cadence with
  | none => simp [clearThresholdS, silenceFloorS]
  | some cadence =>
      simp only [clearThresholdS]
      split
      · simp [silenceFloorS]
      · linarith [silenceFloorS_le cadence]

/-- A probe is overdue if it was heard, is not silent, and its deadline has passed. -/
theorem SilenceWatcher.overdue_eq_some {w : SilenceWatcher δ} {now last : ℚ} {x : δ × ℚ} :
    w.overdue now x = some last ↔ w.silent x.1 = false ∧ w.lastSeen x.1 = some last ∧
      silenceDeadlineS x.2 ≤ now - last := by
  rw [overdue]
  cases w.silent x.1 <;> simp [Option.filter_eq_some_iff]

/-- **A breach** satisfies its own deadline. -/
theorem breach_accepted {w : SilenceWatcher δ} {now last : ℚ} {x : δ × ℚ}
    (h : w.overdue now x = some last) : (w.breach now x last).accepted = true := by
  obtain ⟨-, -, hlate⟩ := SilenceWatcher.overdue_eq_some.mp h
  have hfloor := silenceFloorS_le x.2
  have hpos : 0 < silenceDeadlineS x.2 := by linarith
  have hquiet : 0 ≤ now - last := by linarith
  have hlate : ¬now - last < silenceDeadlineS x.2 := not_lt.mpr hlate
  simp [SensorSilence.accepted, SilenceWatcher.breach, hpos, hquiet, hlate]

section Specs
variable [DecidableEq δ] {s s' : SilenceWatch δ} {now last : ℚ} {x : δ × ℚ} {xs : List (δ × ℚ)}
  {d : δ}

/-- And a clear has no deadline to satisfy. -/
theorem cleared_accepted {sensorType : String} : (s.cleared d sensorType now).accepted = true := by
  simp [SensorSilence.accepted, SilenceWatch.cleared, clearThresholdS_pos]

/-- A call that succeeds has written. -/
theorem CallFate.of_eq_true {σ : Type} {fate : CallFate} {a a' : σ} {written : Option σ} :
    fate.of a written = (a', true) ↔ fate = .succeeds ∧ written = some a' := by
  cases fate <;> cases written <;> simp [CallFate.of]

omit [DecidableEq δ] in
/-- A message is emitted if it is accepted and published. -/
theorem emit_eq_true {m : SensorSilence δ} {publishes : Bool} :
    s.emit m publishes = (s', true) ↔ m.accepted = true ∧ publishes = true ∧
      s' = { s with published := s.published ++ [m] } := by
  simp only [SilenceWatch.emit]
  cases m.accepted <;> cases publishes <;> simp [eq_comm]

/-- A raise is taken where nothing is open. -/
theorem raiseSilence_eq_some {e : SilenceEpisode} : s.raiseSilence d e = some s' ↔
    s.episodes d = none ∧ s' = { s with episodes := Function.update s.episodes d (some e) } := by
  rw [SilenceWatch.raiseSilence]
  cases s.episodes d <;> simp [eq_comm]

/-- And a clear of what began before. -/
theorem clearSilence_eq_some : s.clearSilence d now = some s' ↔
    ∃ e, s.episodes d = some e ∧ e.raisedAt ≤ now ∧
      s' = { s with episodes := Function.update s.episodes d none } := by
  rw [SilenceWatch.clearSilence]
  cases s.episodes d with
  | none => simp
  | some e => by_cases hle : e.raisedAt ≤ now <;> simp [hle, eq_comm]

omit [DecidableEq δ] in
/-- A message changes nothing but what has been published. -/
theorem emit_fields (s : SilenceWatch δ) (m : SensorSilence δ) (publishes : Bool) :
    (s.emit m publishes).1.watcher = s.watcher ∧ (s.emit m publishes).1.episodes = s.episodes ∧
      (s.emit m publishes).1.cadences = s.cadences := by
  rw [SilenceWatch.emit]
  split <;> exact ⟨rfl, rfl, rfl⟩

/-! ### What a sweep does to one probe -/

/-- A silence has been raised, remembered and published. -/
def SilenceWatch.raised (s : SilenceWatch δ) (now : ℚ) (x : δ × ℚ) (last : ℚ) : SilenceWatch δ :=
  { s with
    episodes :=
      Function.update s.episodes x.1 (some ⟨s.watcher.sensorType x.1, now, some last⟩)
    watcher := { s.watcher with silent := Function.update s.watcher.silent x.1 true }
    published := s.published ++ [s.watcher.breach now x last] }

/-- A loop that comes to its end: nothing is done about a probe that is not overdue, and all is done
about one that is. -/
theorem sweepOver_cons {fates : SweepFates δ} :
    sweepOver now fates (x :: xs) s = (s', true) ↔
      (s.watcher.overdue now x = none ∧ sweepOver now fates xs s = (s', true)) ∨
      ∃ last, s.watcher.overdue now x = some last ∧ fates.raise x.1 = .succeeds ∧
        fates.publish x.1 = true ∧ s.episodes x.1 = none ∧
        sweepOver now fates xs (s.raised now x last) = (s', true) := by
  cases ho : s.watcher.overdue now x with
  | none => simp [sweepOver, ho]
  | some last =>
      have hacc := breach_accepted ho
      simp only [sweepOver, ho, reduceCtorEq, false_and, false_or, Option.some.injEq,
        exists_eq_left']
      cases hf : fates.raise x.1 <;> cases hp : fates.publish x.1 <;> cases he : s.episodes x.1 <;>
        simp [CallFate.of, SilenceWatch.raiseSilence, SilenceWatch.emit, SilenceWatch.mark,
          SilenceWatch.raised, hacc, he]

theorem overdue_raised_ne {y : δ × ℚ} (h : y.1 ≠ x.1) :
    (s.raised now x last).watcher.overdue now y = s.watcher.overdue now y := by
  simp [SilenceWatcher.overdue, SilenceWatch.raised, h]

omit [DecidableEq δ] in
/-- The messages of a sweep over `xs` that comes to its end. -/
def SilenceWatch.breaches (s : SilenceWatch δ) (now : ℚ) (xs : List (δ × ℚ)) :
    List (SensorSilence δ) :=
  xs.filterMap fun x => (s.watcher.overdue now x).map (s.watcher.breach now x)

/-- What a sweep over `xs` that comes to its end leaves. -/
structure FullSweep (now : ℚ) (xs : List (δ × ℚ)) (s s' : SilenceWatch δ) : Prop where
  cadences : s'.cadences = s.cadences
  lastSeen : s'.watcher.lastSeen = s.watcher.lastSeen
  sensorTypes : s'.watcher.sensorTypes = s.watcher.sensorTypes
  silent : ∀ d, s'.watcher.silent d = true ↔
    s.watcher.silent d = true ∨ ∃ x ∈ xs, x.1 = d ∧ (s.watcher.overdue now x).isSome
  raised : ∀ x ∈ xs, ∀ last, s.watcher.overdue now x = some last → s.episodes x.1 = none ∧
    s'.episodes x.1 = some ⟨s.watcher.sensorType x.1, now, some last⟩
  kept : ∀ d, (∀ x ∈ xs, x.1 = d → s.watcher.overdue now x = none) → s'.episodes d = s.episodes d
  published : s'.published = s.published ++ s.breaches now xs

/-- **A sweep that comes to its end** has raised what was overdue, and no more. -/
theorem sweepOver_finished {fates : SweepFates δ} (hn : (xs.map Prod.fst).Nodup)
    (h : sweepOver now fates xs s = (s', true)) : FullSweep now xs s s' := by
  induction xs generalizing s with
  | nil =>
      obtain rfl : s = s' := (Prod.mk.inj h).1
      exact ⟨rfl, rfl, rfl, by simp, by simp, by simp, by simp [SilenceWatch.breaches]⟩
  | cons x xs ih =>
      obtain ⟨hx, hn⟩ := List.nodup_cons.mp hn
      obtain ⟨ho, h⟩ | ⟨last, ho, -, -, he, h⟩ := sweepOver_cons.mp h
      · obtain ⟨hcad, hlast, htypes, hsilent, hraised, hkept, hpub⟩ := ih hn h
        refine ⟨hcad, hlast, htypes, fun d => ?_, ?_, fun d hd => ?_, ?_⟩
        · simp [hsilent, ho]
        · rintro y hy last hlast
          obtain rfl | hy := List.mem_cons.mp hy
          · simp [ho] at hlast
          · exact hraised y hy last hlast
        · exact hkept d fun y hy => hd y (List.mem_cons_of_mem x hy)
        · simp [hpub, SilenceWatch.breaches, ho]
      · have hne : ∀ y ∈ xs, y.1 ≠ x.1 := fun y hy heq =>
          hx (heq ▸ List.mem_map_of_mem hy)
        have hsame : ∀ y ∈ xs, (s.raised now x last).watcher.overdue now y =
            s.watcher.overdue now y := fun y hy => overdue_raised_ne (hne y hy)
        obtain ⟨hcad, hlast, htypes, hsilent, hraised, hkept, hpub⟩ := ih hn h
        refine ⟨hcad, hlast, htypes, fun d => ?_, ?_, fun d hd => ?_, ?_⟩
        · rw [hsilent]
          constructor
          · rintro (hd | ⟨y, hy, rfl, hover⟩)
            · by_cases hdx : d = x.1
              · exact .inr ⟨x, List.mem_cons_self, hdx.symm, by simp [ho]⟩
              · exact .inl (by simpa [SilenceWatch.raised, hdx] using hd)
            · exact .inr ⟨y, List.mem_cons_of_mem x hy, rfl, by rwa [← hsame y hy]⟩
          · rintro (hd | ⟨y, hy, rfl, hover⟩)
            · exact .inl (by by_cases hdx : d = x.1 <;> simp [SilenceWatch.raised, hdx, hd])
            · obtain rfl | hy := List.mem_cons.mp hy
              · exact .inl (by simp [SilenceWatch.raised])
              · exact .inr ⟨y, hy, rfl, by rwa [hsame y hy]⟩
        · rintro y hy last' hlast'
          obtain rfl | hy := List.mem_cons.mp hy
          · obtain rfl : last = last' := Option.some.inj (ho.symm.trans hlast')
            refine ⟨he, ?_⟩
            rw [hkept y.1 fun z hz hzy => absurd hzy (hne z hz)]
            simp [SilenceWatch.raised]
          · obtain ⟨hnone, hsome⟩ := hraised y hy last' ((hsame y hy).trans hlast')
            refine ⟨?_, hsome⟩
            simpa [SilenceWatch.raised, hne y hy] using hnone
        · have hdx : d ≠ x.1 := by
            rintro rfl
            simp [hd x List.mem_cons_self rfl] at ho
          rw [hkept d fun y hy hyd => ?_]
          · simp [SilenceWatch.raised, hdx]
          · exact (hsame y hy).trans (hd y (List.mem_cons_of_mem x hy) hyd)
        · have hrest : (s.raised now x last).breaches now xs = s.breaches now xs :=
            List.filterMap_congr fun y hy => by rw [hsame y hy]; rfl
          rw [hpub, hrest]
          simp [SilenceWatch.raised, SilenceWatch.breaches, ho]

omit [DecidableEq δ] in
/-- Rows of the table have keys of their own. -/
theorem Cadences.eq_of_key (c : Cadences δ) {x y : δ × ℚ} (hx : x ∈ c.rows) (hy : y ∈ c.rows)
    (h : x.1 = y.1) : x = y :=
  List.inj_on_of_nodup_map c.nodup hx hy h

omit [DecidableEq δ] in
/-- **After a sweep**, open are the silences that were, and those of the probes that are overdue. -/
theorem FullSweep.episode {c : Cadences δ} {w w' : SilenceWatch δ}
    (h : FullSweep now c.rows w w') {x : δ × ℚ} (hx : x ∈ c.rows) :
    (w'.episodes x.1).isSome ↔ (w.episodes x.1).isSome ∨ (w.watcher.overdue now x).isSome := by
  cases ho : w.watcher.overdue now x with
  | some last => simp [(h.raised x hx last ho).2]
  | none =>
      rw [h.kept x.1 fun y hy hyx => by rw [c.eq_of_key hy hx hyx, ho]]
      simp

omit [DecidableEq δ] in
/-- After a full sweep who is silent has an open episode, and no other. -/
theorem FullSweep.mirrors {c : Cadences δ} {w w' : SilenceWatch δ}
    (h : FullSweep now c.rows w w')
    (hm : ∀ d, w.watcher.silent d = (w.episodes d).isSome) (d : δ) :
    w'.watcher.silent d = (w'.episodes d).isSome := by
  rw [Bool.eq_iff_iff, h.silent]
  by_cases hd : ∃ x ∈ c.rows, x.1 = d ∧ (w.watcher.overdue now x).isSome
  · obtain ⟨x, hx, rfl, hover⟩ := hd
    rw [h.episode hx]
    exact ⟨fun _ => .inr hover, fun _ => .inr ⟨x, hx, rfl, hover⟩⟩
  · rw [h.kept d fun x hx hxd => ?_, hm]
    · simp [hd]
    · by_contra hsome
      exact hd ⟨x, hx, hxd, Option.isSome_iff_ne_none.mpr hsome⟩

omit [DecidableEq δ] in
/-- A sweep announces the probes that are overdue. -/
theorem mem_breaches {m : SensorSilence δ} : m ∈ s.breaches now xs ↔
    ∃ x ∈ xs, ∃ last, s.watcher.overdue now x = some last ∧ s.watcher.breach now x last = m := by
  simp [SilenceWatch.breaches]

omit [DecidableEq δ] in
/-- They are of one probe each. -/
theorem nodup_breaches (hn : (xs.map Prod.fst).Nodup) :
    ((s.breaches now xs).map SensorSilence.deviceId).Nodup := by
  have hkeys : (s.breaches now xs).map SensorSilence.deviceId =
      (xs.filter fun x => (s.watcher.overdue now x).isSome).map Prod.fst := by
    rw [SilenceWatch.breaches, List.map_filterMap, ← List.filterMap_eq_map, List.filterMap_filter]
    refine List.filterMap_congr fun x _ => ?_
    cases s.watcher.overdue now x <;> rfl
  rw [hkeys]
  exact hn.sublist (List.filter_sublist.map Prod.fst)

/-! ### What a reading does -/

/-- What a good reading of a probe leaves, where all calls return. -/
def SilenceWatch.heard (s : SilenceWatch δ) (d : δ) (sensorType : String) (now : ℚ) :
    SilenceWatch δ :=
  let seen := s.seen d sensorType now
  if s.watcher.silent d then
    { (seen.mark d false) with
      episodes := Function.update s.episodes d none
      published := s.published ++ [s.cleared d sensorType now] }
  else seen

/-- **A reading whose calls return** ends the silence of its probe, which was open since earlier. -/
theorem onReading_finished {r : SensorReading δ} {sensorType : String} {fates : ReadingFates}
    (h : s.onReading r sensorType now fates = (s', true)) :
    (r.evaluable = none ∧ s' = s) ∨
      r.evaluable.isSome ∧ s' = s.heard r.sensorId sensorType now ∧
        (s.watcher.silent r.sensorId = true →
          ∃ e, s.episodes r.sensorId = some e ∧ e.raisedAt ≤ now) := by
  rw [SilenceWatch.onReading] at h
  cases hr : r.evaluable with
  | none =>
      simp only [hr, Option.isNone_none, if_true, Prod.mk.injEq, and_true] at h
      exact .inl ⟨rfl, h.symm⟩
  | some value =>
      refine .inr ⟨rfl, ?_⟩
      cases hs : s.watcher.silent r.sensorId with
      | false =>
          simp only [hr, hs, Option.isNone_some, Bool.false_eq_true, if_false, Bool.not_false,
            if_true, Prod.mk.injEq, and_true] at h
          exact ⟨by simp [SilenceWatch.heard, hs, h], by simp⟩
      | true =>
          simp only [hr, hs, Option.isNone_some, Bool.false_eq_true, if_false, Bool.not_true] at h
          split at h
          · simp at h
          · next s₁ hclear =>
              obtain ⟨-, hclear⟩ := CallFate.of_eq_true.mp hclear
              obtain ⟨e, he, hle, rfl⟩ := clearSilence_eq_some.mp hclear
              split at h
              · obtain ⟨-, -, rfl⟩ := emit_eq_true.mp h
                exact ⟨by rw [SilenceWatch.heard, if_pos hs]; rfl, fun _ => ⟨e, he, hle⟩⟩
              · simp at h

variable {sensorType : String}

/-- Who is heard is not silent. -/
@[simp]
theorem heard_silent : (s.heard d sensorType now).watcher.silent =
    Function.update s.watcher.silent d false := by
  cases hs : s.watcher.silent d with
  | true => simp [SilenceWatch.heard, SilenceWatch.mark, SilenceWatch.seen, hs]
  | false =>
      have hself := Function.update_eq_self d s.watcher.silent
      rw [hs] at hself
      simp [SilenceWatch.heard, SilenceWatch.seen, hs, hself]

/-- Who is heard was last seen now. -/
@[simp]
theorem heard_lastSeen : (s.heard d sensorType now).watcher.lastSeen =
    Function.update s.watcher.lastSeen d (some now) := by
  simp only [SilenceWatch.heard]
  split <;> rfl

/-- Where the memory and the record agree of it, no silence of the probe is open afterwards. -/
theorem heard_episodes (hm : s.watcher.silent d = (s.episodes d).isSome) :
    (s.heard d sensorType now).episodes = Function.update s.episodes d none := by
  cases hs : s.watcher.silent d with
  | true => simp [SilenceWatch.heard, hs]
  | false =>
      have hself := Function.update_eq_self d s.episodes
      rw [Option.isSome_eq_false_iff.mp (hm.symm.trans hs) |> Option.isNone_iff_eq_none.mp] at hself
      simp [SilenceWatch.heard, SilenceWatch.seen, hs, hself]

/-- The message of a good reading, if there is one. -/
def SilenceWatch.clears (s : SilenceWatch δ) (d : δ) (sensorType : String) (now : ℚ) :
    List (SensorSilence δ) :=
  if s.watcher.silent d then [s.cleared d sensorType now] else []

/-- A reading clears the silence that there is. -/
theorem mem_clears {m : SensorSilence δ} : m ∈ s.clears d sensorType now ↔
    s.watcher.silent d = true ∧ m = s.cleared d sensorType now := by
  cases hs : s.watcher.silent d <;> simp [SilenceWatch.clears, hs]

/-- A reading announces what it clears. -/
theorem heard_published :
    (s.heard d sensorType now).published = s.published ++ s.clears d sensorType now := by
  cases hs : s.watcher.silent d <;>
    simp [SilenceWatch.heard, SilenceWatch.clears, SilenceWatch.seen, hs]

end Specs

end BellasReef.ControlEngine
