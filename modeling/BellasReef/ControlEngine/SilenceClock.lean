import BellasReef.ControlEngine.SilenceMessages
import BellasReef.ControlEngine.SilenceFaults

/-!
# ControlEngine — The silence clock

Runs of one watcher from its `prime`, with two clocks: the wall clock, which the watcher stamps and
compares and which is set forward and back as it may be, and the monotonic one, which is what time
has passed.  A tick sweeps if the clock is trusted then; a reading is stamped all the same.

`elapsed_time_iff`: the watcher measures elapsed time exactly in the runs in which, at each sweep,
both clocks say the same of each probe.
-/

namespace BellasReef.ControlEngine
open BellasReef.Support

variable {δ : Type}

/-- The watcher, and the monotonic time of its last step. -/
structure ClockedWatch (δ : Type) where
  watch : SilenceWatch δ
  monotonic : ℚ

/-- A declaration, a turn of the loop, or a reading. -/
inductive ClockedAction (δ : Type) where
  /-- The table of cadences changes. -/
  | declare (cadences : Cadences δ)
  /-- One turn of the main loop. -/
  | tick (now monotonic : ℚ) (trusted : Bool)
  | reading (r : SensorReading δ) (sensorType : String) (now monotonic : ℚ)

section Steps
variable [DecidableEq δ]

/-- One of them; the steady clock never goes back. -/
def ClockedWatch.step (s : ClockedWatch δ) : ClockedAction δ → Option (ClockedWatch δ)
  | .declare cadences => some { s with watch := { s.watch with cadences := cadences } }
  | .tick now monotonic trusted =>
      if s.monotonic ≤ monotonic then
        some ⟨if trusted then (s.watch.sweep now .calm).1 else s.watch, monotonic⟩
      else none
  | .reading r sensorType now monotonic =>
      if s.monotonic ≤ monotonic then
        some ⟨(s.watch.onReading r sensorType now .calm).1, monotonic⟩
      else none

/-- One `SilenceWatcher`, by two clocks. -/
def clockedWatch (δ : Type) [DecidableEq δ] : Machine (ClockedWatch δ) (ClockedAction δ) where
  step := ClockedWatch.step

/-- The watcher after `prime`, by both clocks. -/
def ClockedWatch.primed (cadences : Cadences δ) (episodes : δ → Option SilenceEpisode)
    (now monotonic : ℚ) : ClockedWatch δ :=
  ⟨.primed cadences episodes now, monotonic⟩

/-- What has been seen of each probe, and when. -/
structure ClockNotes (δ : Type) where
  /-- Its last good reading, by both clocks. -/
  heard : δ → Option (ℚ × ℚ)
  /-- The first step, `prime` or a sweep, at which its cadence was declared. -/
  declared : δ → Option ℚ
  /-- That was `prime`. -/
  atPrime : δ → Bool
  /-- `prime`, by the wall clock. -/
  primedAt : ℚ

/-- What is noted at `prime`. -/
def ClockNotes.primed (cadences : Cadences δ) (now monotonic : ℚ) : ClockNotes δ :=
  { heard := fun _ => none
    declared := fun d => if (cadences.get d).isSome then some monotonic else none
    atPrime := fun d => (cadences.get d).isSome
    primedAt := now }

/-- What is noted at a step. -/
def ClockNotes.note (s : ClockedWatch δ) (a : ClockedAction δ) (_ : ClockedWatch δ)
    (g : ClockNotes δ) : ClockNotes δ :=
  match a with
  | .declare _ => g
  | .tick _ monotonic trusted =>
      if trusted then
        { g with declared := fun d =>
          (g.declared d).or (if (s.watch.cadences.get d).isSome then some monotonic else none) }
      else g
  | .reading r _ now monotonic =>
      if r.evaluable.isSome then
        { g with heard := Function.update g.heard r.sensorId (some (now, monotonic)) }
      else g

end Steps

/-- How long the probe has delivered nothing. -/
def ClockNotes.quietFor (g : ClockNotes δ) (monotonic : ℚ) (d : δ) : ℚ :=
  monotonic - ((g.heard d).map Prod.snd).getD ((g.declared d).getD monotonic)

section Elapsed
variable [DecidableEq δ]

/-- A sweep records no probe silent that has delivered a good reading less than its deadline ago, and
leaves none unrecorded that has delivered none for its deadline; and a good reading leaves its probe
recorded silent no longer. -/
def ByElapsedTime (p : ClockedWatch δ × ClockNotes δ) (a : ClockedAction δ) : Prop :=
  ∀ s', (clockedWatch δ).step p.1 a = some s' →
    match a with
    | .tick _ monotonic true => ∀ x ∈ p.1.watch.cadences.rows,
        (p.1.watch.episodes x.1 = none → (s'.watch.episodes x.1).isSome → (p.2.heard x.1).isSome →
          silenceDeadlineS x.2 ≤ p.2.quietFor monotonic x.1) ∧
        (silenceDeadlineS x.2 ≤ p.2.quietFor monotonic x.1 → (s'.watch.episodes x.1).isSome)
    | .reading r _ _ _ => r.evaluable.isSome → s'.watch.episodes r.sensorId = none
    | _ => True

omit [DecidableEq δ] in
/-- At each sweep both clocks agree whether a probe's last good reading is a deadline ago; for one
that has not been heard, the wall clock says so of `prime` if the monotonic one does, and one that
has been declared since is not due; and no good reading ends a silence that was raised later. -/
def ClocksAgree (p : ClockedWatch δ × ClockNotes δ) : ClockedAction δ → Prop
  | .tick now monotonic true => ∀ x ∈ p.1.watch.cadences.rows, p.1.watch.episodes x.1 = none →
      match p.2.heard x.1 with
      | some heard =>
          silenceDeadlineS x.2 ≤ now - heard.1 ↔ silenceDeadlineS x.2 ≤ monotonic - heard.2
      | none =>
          silenceDeadlineS x.2 ≤ monotonic - (p.2.declared x.1).getD monotonic →
            p.2.atPrime x.1 = true ∧ silenceDeadlineS x.2 ≤ now - p.2.primedAt
  | .reading r _ now _ => r.evaluable.isSome →
      ∀ e, p.1.watch.episodes r.sensorId = some e → e.raisedAt ≤ now
  | _ => True

end Elapsed

/-! ### What the watcher knows -/

/-- The watcher's memory, by what has been seen. -/
structure Stamped (p : ClockedWatch δ × ClockNotes δ) : Prop where
  silent : ∀ d, p.1.watch.watcher.silent d = (p.1.watch.episodes d).isSome
  lastSeen : ∀ d, p.1.watch.watcher.lastSeen d = ((p.2.heard d).map Prod.fst).or
    (if p.2.atPrime d then some p.2.primedAt else none)

variable [DecidableEq δ] {s s' : ClockedWatch δ} {g : ClockNotes δ} {now monotonic : ℚ}

/-- A sweep whose calls return comes to its end, where the record agrees with the memory. -/
theorem sweepOver_calm {w : SilenceWatch δ} {xs : List (δ × ℚ)} (hn : (xs.map Prod.fst).Nodup)
    (hm : ∀ x ∈ xs, w.watcher.silent x.1 = (w.episodes x.1).isSome) :
    (sweepOver now .calm xs w).2 = true := by
  induction xs generalizing w with
  | nil => rfl
  | cons x xs ih =>
      obtain ⟨hx, hn⟩ := List.nodup_cons.mp hn
      obtain ⟨hself, hrest⟩ := List.forall_mem_cons.mp hm
      cases ho : w.watcher.overdue now x with
      | none => simpa [sweepOver, ho] using ih hn hrest
      | some last =>
          have hnone : w.episodes x.1 = none := by
            rw [(SilenceWatcher.overdue_eq_some.mp ho).1] at hself
            simpa using hself.symm
          obtain ⟨-, hgo⟩ | ⟨hfail, -⟩ := sweepOver_overdue .calm xs ho
          · rw [hgo]
            refine ih hn fun y hy => ?_
            obtain ⟨hsilent, hepisode⟩ := raised_ne fun heq => hx (heq ▸ List.mem_map_of_mem hy)
            rw [hsilent, hepisode, hrest y hy]
          · exact absurd ⟨rfl, rfl, hnone⟩ hfail

/-- A sweep that nothing fails goes through every row. -/
theorem Stamped.fullSweep (h : Stamped (s, g)) (now : ℚ) :
    FullSweep now s.watch.cadences.rows s.watch (s.watch.sweep now .calm).1 := by
  have hend : sweepOver now .calm s.watch.cadences.rows s.watch =
      ((s.watch.sweep now .calm).1, true) :=
    Prod.ext rfl (sweepOver_calm s.watch.cadences.nodup fun x _ => h.silent x.1)
  exact sweepOver_finished s.watch.cadences.nodup hend

/-- The write of a clear leaves the memory as it is. -/
theorem of_clearSilence_watcher (fate : CallFate) (w : SilenceWatch δ) (d : δ) (now : ℚ) :
    (fate.of w (w.clearSilence d now)).1.watcher = w.watcher := by
  have hcleared : ∀ w', w.clearSilence d now = some w' → w'.watcher = w.watcher := fun w' hw => by
    obtain ⟨e, -, -, rfl⟩ := clearSilence_eq_some.mp hw
    rfl
  cases hc : w.clearSilence d now with
  | none => cases fate <;> rfl
  | some w' => cases fate <;> first | rfl | exact hcleared w' hc

/-- A good reading is stamped, whatever comes of the calls after that. -/
theorem onReading_lastSeen {w : SilenceWatch δ} {r : SensorReading δ} (sensorType : String)
    (calls : ReadingFates) (hr : r.evaluable.isSome) :
    (w.onReading r sensorType now calls).1.watcher.lastSeen =
      Function.update w.watcher.lastSeen r.sensorId (some now) := by
  obtain ⟨value, hr⟩ := Option.isSome_iff_exists.mp hr
  simp only [SilenceWatch.onReading, hr, Option.isNone_some, Bool.false_eq_true, if_false]
  split
  · rfl
  · have hwritten := of_clearSilence_watcher calls.clear (w.seen r.sensorId sensorType now)
      r.sensorId now
    generalize calls.clear.of _ _ = result at hwritten ⊢
    obtain ⟨w', returned⟩ := result
    have hwritten : w'.watcher = (w.seen r.sensorId sensorType now).watcher := hwritten
    cases returned with
    | false => exact congrArg SilenceWatcher.lastSeen hwritten
    | true =>
        have hmark : (w'.mark r.sensorId false).watcher.lastSeen =
          Function.update w.watcher.lastSeen r.sensorId (some now) :=
          congrArg SilenceWatcher.lastSeen hwritten
        simp only
        split
        · simp only [SilenceWatch.emit]
          split <;> exact hmark
        · exact hmark

/-- **A good reading** whose calls return ends a silence that was raised no later. -/
theorem onReading_ends_iff {w : SilenceWatch δ} {r : SensorReading δ} (sensorType : String)
    (hr : r.evaluable.isSome) (hm : ∀ d, w.watcher.silent d = (w.episodes d).isSome) :
    (w.onReading r sensorType now .calm).1.episodes r.sensorId = none ↔
      ∀ e, w.episodes r.sensorId = some e → e.raisedAt ≤ now := by
  cases hs : w.watcher.silent r.sensorId with
  | false =>
      have hnone : w.episodes r.sensorId = none := by simpa [hs] using (hm r.sensorId).symm
      rw [onReading_not_silent hr hs]
      exact iff_of_true hnone (by simp [hnone])
  | true =>
      have hheard : HeardTo .calm now w r.sensorId (w.onReading r sensorType now .calm) :=
        onReading_heardTo sensorType hr hs
      generalize w.onReading r sensorType now .calm = result at hheard ⊢
      cases hheard with
      | cleared hopen hle hfate hsilent hepisodes =>
          exact iff_of_true (by simp [hepisodes]) (by simpa [hopen] using hle)
      | adrift hopen hfate hsilent hepisodes => cases hfate
      | refused hwhy hsilent hepisodes =>
          obtain ⟨e, he⟩ := Option.isSome_iff_exists.mp ((hm r.sensorId).symm.trans hs)
          refine iff_of_false (by simp [hepisodes, he]) fun hle => ?_
          exact absurd (hle e he) (not_le.mpr (hwhy rfl e he))

/-- **The watcher goes by the wall clock**, step by step. -/
theorem stamped_step {a : ClockedAction δ} (h : Stamped (s, g))
    (hs : (clockedWatch δ).step s a = some s') : Stamped (s', g.note s a s') := by
  have hfull := h.fullSweep
  obtain ⟨hsilent, hlast⟩ := h
  cases a with
  | declare cadences =>
      obtain rfl := Option.some.inj hs
      exact ⟨hsilent, hlast⟩
  | tick now monotonic trusted =>
      obtain ⟨-, heq⟩ := Option.ite_none_right_eq_some.mp hs
      obtain rfl := Option.some.inj heq
      cases trusted with
      | false => exact ⟨hsilent, hlast⟩
      | true =>
          refine ⟨(hfull now).mirrors hsilent, fun d => ?_⟩
          exact (congrFun (hfull now).lastSeen d).trans (hlast d)
  | reading r sensorType now monotonic =>
      obtain ⟨-, heq⟩ := Option.ite_none_right_eq_some.mp hs
      obtain rfl := Option.some.inj heq
      refine ⟨onReading_mirrors r sensorType (by simp [ReadingFates.calm]) hsilent, fun d => ?_⟩
      cases hr : r.evaluable with
      | none =>
          simp only [ClockNotes.note, hr, SilenceWatch.onReading]
          exact hlast d
      | some value =>
          have hgood : r.evaluable.isSome := by simp [hr]
          rw [onReading_lastSeen sensorType .calm hgood, ClockNotes.note, if_pos hgood]
          by_cases hd : d = r.sensorId
          · simp [hd]
          · simpa [hd] using hlast d

/-! ### Each sweep -/

omit [DecidableEq δ] in
/-- What the watcher goes by: the stamp of the last good reading, or else that of `prime`. -/
theorem overdue_iff_stamps (h : Stamped (s, g)) (now : ℚ) {x : δ × ℚ} (hnone : s.watch.episodes x.1 = none) :
    (s.watch.watcher.overdue now x).isSome ↔
      match g.heard x.1 with
      | some heard => silenceDeadlineS x.2 ≤ now - heard.1
      | none => g.atPrime x.1 = true ∧ silenceDeadlineS x.2 ≤ now - g.primedAt := by
  have hsilent : s.watch.watcher.silent x.1 = false := (h.silent x.1).trans (by simp [hnone])
  have hlast : s.watch.watcher.lastSeen x.1 = ((g.heard x.1).map Prod.fst).or
    (if g.atPrime x.1 then some g.primedAt else none) := h.lastSeen x.1
  rw [SilenceWatcher.overdue, hsilent, hlast]
  cases g.heard x.1 with
  | some heard => simp [Option.filter]
  | none => cases g.atPrime x.1 <;> simp [Option.filter]

/-- **A step goes by elapsed time** exactly where the clocks agree. -/
theorem elapsed_iff {a : ClockedAction δ} (h : Stamped (s, g))
    (hs : (clockedWatch δ).step s a = some s') : ClocksAgree (s, g) a ↔ ByElapsedTime (s, g) a := by
  rw [ByElapsedTime, Machine.forall_step hs]
  cases a with
  | declare cadences => exact Iff.rfl
  | reading r sensorType now monotonic =>
      obtain ⟨-, heq⟩ := Option.ite_none_right_eq_some.mp hs
      obtain rfl := Option.some.inj heq
      exact forall_congr' fun hgood => (onReading_ends_iff sensorType hgood h.silent).symm
  | tick now monotonic trusted =>
      cases trusted with
      | false => exact Iff.rfl
      | true =>
          obtain ⟨-, heq⟩ := Option.ite_none_right_eq_some.mp hs
          obtain rfl := Option.some.inj heq
          refine forall₂_congr fun x hx => ?_
          have hepisode := (h.fullSweep now).episode hx
          simp only [if_true]
          rw [hepisode]
          cases he : s.watch.episodes x.1 with
          | some e => simp
          | none =>
              have hover := overdue_iff_stamps h now he
              simp only [hover, ClockNotes.quietFor, true_implies, Option.isSome_none,
                Bool.false_eq_true, false_or]
              cases g.heard x.1 with
              | some heard => simp [iff_iff_implies_and_implies]
              | none => simp

/-- **Silence is measured in elapsed time**, from a `prime` with any silences open, exactly in the runs
at each of whose sweeps the clocks agree. -/
theorem elapsed_time_iff (cadences : Cadences δ) (episodes : δ → Option SilenceEpisode)
    (now monotonic : ℚ) {as : List (ClockedAction δ)} {q : ClockedWatch δ × ClockNotes δ} :
    ((clockedWatch δ).ghost ClockNotes.note).RunIf ByElapsedTime
        (.primed cadences episodes now monotonic, .primed cadences now monotonic) as q ↔
      ((clockedWatch δ).ghost ClockNotes.note).RunIf ClocksAgree
        (.primed cadences episodes now monotonic, .primed cadences now monotonic) as q := by
  have hprimed : Stamped (ClockedWatch.primed cadences episodes now monotonic,
      ClockNotes.primed cadences now monotonic) := ⟨fun _ => rfl, fun _ => rfl⟩
  refine (Machine.RunIf.congr hprimed ?_ ?_).symm
  · exact Machine.ghost_preserves fun s g a s' _ hI hs => stamped_step hI hs
  · rintro ⟨s, g⟩ a q hI hs
    exact elapsed_iff hI (Machine.ghost_step.mp hs).1

/-- A probe is heard before the clock is set, and a second later, by a clock that has been set forward
since, it is recorded silent. -/
theorem not_elapsed_time :
    ∃ p, ((clockedWatch Unit).ghost ClockNotes.note).Run
      (.primed tenSeconds (fun _ => none) 0 0, .primed tenSeconds 0 0)
      [.reading goodReading "ds18b20" 5 5] p ∧ ¬ByElapsedTime p (.tick 1000 6 true) := by
  have hrun : (((clockedWatch Unit).ghost ClockNotes.note).exec
      (.primed tenSeconds (fun _ => none) 0 0, .primed tenSeconds 0 0)
      [.reading goodReading "ds18b20" 5 5]).bind (fun p =>
        ((clockedWatch Unit).step p.1 (.tick 1000 6 true)).map fun s' =>
          ((p.1.watch.cadences.rows, p.1.watch.episodes ()),
            (p.2.heard (), p.2.quietFor 6 (), (s'.watch.episodes ()).isSome))) =
      some (([((), 10)], none), (some (5, 5), 1, true)) := by decide +kernel
  obtain ⟨p, hexec, hnext⟩ := Option.bind_eq_some_iff.mp hrun
  obtain ⟨s', hstep, hresult⟩ := Option.map_eq_some_iff.mp hnext
  obtain ⟨hbefore, hafter⟩ := Prod.mk.inj hresult
  obtain ⟨hrows, hnone⟩ := Prod.mk.inj hbefore
  obtain ⟨hheard, hrest⟩ := Prod.mk.inj hafter
  obtain ⟨hquiet, hopen⟩ := Prod.mk.inj hrest
  refine ⟨p, Machine.exec_eq_some.mp hexec, fun helapsed => ?_⟩
  have hlate := (helapsed s' hstep ((), 10) (by simp [hrows])).1 hnone hopen (by simp [hheard])
  rw [hquiet] at hlate
  have hfloor := silenceFloorS_le 10
  linarith

end BellasReef.ControlEngine
