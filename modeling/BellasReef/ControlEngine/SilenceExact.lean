import BellasReef.ControlEngine.Silence

/-!
# ControlEngine — The silence watch, exactly

Runs of one watcher from its `prime`, at times that do not go back, with all calls returning, while
the table of cadences changes.

A probe is due a deadline after the later of its last good reading and the step at which its cadence
was first declared.  The watcher knows one of the two, and of the second only what `prime` saw:
`silence_exact_iff` says which sweeps that shows in.  `silence_truth_iff` is about what it
publishes: a clear says that the silence lasted no time.
-/

namespace BellasReef.ControlEngine
open BellasReef.Support

variable {δ : Type}

/-- The watcher, and the time of its last step. -/
structure TimedWatch (δ : Type) where
  watch : SilenceWatch δ
  now : ℚ

/-- A declaration, a sweep, or a reading. -/
inductive WatchAction (δ : Type) where
  /-- The table changes: a probe is adopted or disabled, an interval is edited. -/
  | declare (cadences : Cadences δ)
  | sweep (now : ℚ)
  | reading (r : SensorReading δ) (sensorType : String) (now : ℚ)

section Steps
variable [DecidableEq δ]

omit [DecidableEq δ] in
/-- Time does not go back, and no call raises. -/
def TimedWatch.advance (s : TimedWatch δ) (now : ℚ) (result : SilenceWatch δ × Bool) :
    Option (TimedWatch δ) :=
  if s.now ≤ now ∧ result.2 = true then some ⟨result.1, now⟩ else none

/-- One of them, at a time that never goes back. -/
def TimedWatch.step (s : TimedWatch δ) : WatchAction δ → Option (TimedWatch δ)
  | .declare cadences => some { s with watch := { s.watch with cadences := cadences } }
  | .sweep now => s.advance now (s.watch.sweep now .calm)
  | .reading r sensorType now => s.advance now (s.watch.onReading r sensorType now .calm)

/-- One `SilenceWatcher`. -/
def silenceWatch (δ : Type) [DecidableEq δ] : Machine (TimedWatch δ) (WatchAction δ) where
  step := TimedWatch.step

/-- What has been seen of each probe. -/
structure ProbeNotes (δ : Type) where
  /-- Its last good reading. -/
  heard : δ → Option ℚ
  /-- The first step, `prime` or a sweep, at which its cadence was declared. -/
  declared : δ → Option ℚ
  /-- That was `prime`. -/
  atPrime : δ → Bool
  /-- It has been recorded silent, with no good reading since. -/
  quiet : δ → Bool

/-- What is noted at `prime`. -/
def ProbeNotes.primed (cadences : Cadences δ) (episodes : δ → Option SilenceEpisode) (now : ℚ) :
    ProbeNotes δ :=
  { heard := fun _ => none
    declared := fun d => if (cadences.get d).isSome then some now else none
    atPrime := fun d => (cadences.get d).isSome
    quiet := fun d => (episodes d).isSome }

/-- What is noted at a step. -/
def ProbeNotes.note (s : TimedWatch δ) (a : WatchAction δ) (s' : TimedWatch δ)
    (g : ProbeNotes δ) : ProbeNotes δ :=
  match a with
  | .declare _ => g
  | .sweep now =>
      { g with
        declared := fun d =>
          (g.declared d).or (if (s.watch.cadences.get d).isSome then some now else none)
        quiet := fun d => g.quiet d || (s'.watch.episodes d).isSome }
  | .reading r _ now =>
      if r.evaluable.isSome then
        { g with
          heard := Function.update g.heard r.sensorId (some now)
          quiet := Function.update g.quiet r.sensorId false }
      else g

/-- The watcher from its `prime`. -/
def TimedWatch.primed (cadences : Cadences δ) (episodes : δ → Option SilenceEpisode) (now : ℚ) :
    TimedWatch δ :=
  ⟨.primed cadences episodes now, now⟩

end Steps

/-- The later of its last good reading and the step at which it was declared; now, at the latest. -/
def ProbeNotes.later (g : ProbeNotes δ) (now : ℚ) (d : δ) : ℚ :=
  match g.heard d with
  | some heard => max heard ((g.declared d).getD now)
  | none => (g.declared d).getD now

/-! ### Exact sweeps -/

section Sweeps
variable [DecidableEq δ]

/-- A sweep leaves recorded silent what was so already and what has been quiet for its deadline; and
it raises nothing twice. -/
def SweepsExactly (p : TimedWatch δ × ProbeNotes δ) : WatchAction δ → Prop
  | .sweep now => ∀ s', (silenceWatch δ).step p.1 (.sweep now) = some s' →
      (∀ x ∈ p.1.watch.cadences.rows, (s'.watch.episodes x.1).isSome ↔
        p.2.quiet x.1 = true ∨ silenceDeadlineS x.2 ≤ now - p.2.later now x.1) ∧
      ∃ new, s'.watch.published = p.1.watch.published ++ new ∧
        (new.map SensorSilence.deviceId).Nodup ∧ ∀ m ∈ new, p.2.quiet m.deviceId = false
  | _ => True

omit [DecidableEq δ] in
/-- No sweep comes to a probe that has been declared since `prime` and neither read nor raised for
its deadline, nor to one that was read before it was declared, a deadline ago, and declared since
then. -/
def Graced (p : TimedWatch δ × ProbeNotes δ) : WatchAction δ → Prop
  | .sweep now => ∀ x ∈ p.1.watch.cadences.rows, p.2.quiet x.1 = false →
      match p.2.heard x.1 with
      | none => p.2.atPrime x.1 = true ∨ now - (p.2.declared x.1).getD now < silenceDeadlineS x.2
      | some heard => now - heard < silenceDeadlineS x.2 ∨
          silenceDeadlineS x.2 ≤ now - (p.2.declared x.1).getD now
  | _ => True

end Sweeps

/-! ### What the watcher knows -/

/-- The watcher's memory, by what has been seen. -/
structure Remembers (p : TimedWatch δ × ProbeNotes δ) : Prop where
  silent : ∀ d, p.1.watch.watcher.silent d = (p.1.watch.episodes d).isSome
  quiet : ∀ d, p.2.quiet d = (p.1.watch.episodes d).isSome
  lastSeen : ∀ d, p.1.watch.watcher.lastSeen d =
    (p.2.heard d).or (if p.2.atPrime d then p.2.declared d else none)
  declared : ∀ d, p.2.atPrime d = true → (p.2.declared d).isSome

variable [DecidableEq δ] {s s' : TimedWatch δ} {g : ProbeNotes δ} {now : ℚ}

omit [DecidableEq δ] in
/-- A step succeeds as a whole, and later. -/
theorem advance_eq_some {result : SilenceWatch δ × Bool} :
    s.advance now result = some s' ↔ s.now ≤ now ∧ result = (s'.watch, true) ∧ s'.now = now := by
  obtain ⟨w, ok⟩ := result
  obtain ⟨w', now'⟩ := s'
  simp only [TimedWatch.advance]
  split
  · next h => simp_all [eq_comm]
  · next h => simp_all

/-- A sweep that is possible goes through every row. -/
theorem sweep_fullSweep (h : (silenceWatch δ).step s (.sweep now) = some s') :
    FullSweep now s.watch.cadences.rows s.watch s'.watch ∧ s.now ≤ now ∧ s'.now = now := by
  obtain ⟨hle, hsweep, hnow⟩ := advance_eq_some.mp h
  exact ⟨sweepOver_finished s.watch.cadences.nodup hsweep, hle, hnow⟩

/-- **The watcher follows**, step by step. -/
theorem remembers_step {a : WatchAction δ} (h : Remembers (s, g))
    (hs : (silenceWatch δ).step s a = some s') : Remembers (s', g.note s a s') := by
  obtain ⟨hsilent, hquiet, hlast, hdeclared⟩ := h
  cases a with
  | declare cadences =>
      obtain rfl := Option.some.inj hs
      exact ⟨hsilent, hquiet, hlast, hdeclared⟩
  | sweep now =>
      obtain ⟨hfull, -, -⟩ := sweep_fullSweep hs
      have hmirrors := hfull.mirrors hsilent
      refine ⟨hmirrors, fun d => ?_, fun d => ?_, fun d hd => ?_⟩
      · -- what was open stays open
        have hstays : (s.watch.episodes d).isSome → (s'.watch.episodes d).isSome := by
          intro hopen
          rw [← hmirrors, hfull.silent]
          exact .inl ((hsilent d).trans hopen)
        have hq : g.quiet d = (s.watch.episodes d).isSome := hquiet d
        change (g.quiet d || (s'.watch.episodes d).isSome) = (s'.watch.episodes d).isSome
        rw [hq]
        cases ho : (s.watch.episodes d).isSome with
        | true => simp [hstays ho]
        | false => simp
      · rw [hfull.lastSeen]
        refine (hlast d).trans ?_
        cases hp : g.atPrime d with
        | false => simp [ProbeNotes.note, hp]
        | true =>
            obtain ⟨t, ht⟩ := Option.isSome_iff_exists.mp (hdeclared d hp)
            have ht : g.declared d = some t := ht
            simp [ProbeNotes.note, hp, ht]
      · obtain ⟨t, ht⟩ := Option.isSome_iff_exists.mp (hdeclared d hd)
        have ht : g.declared d = some t := ht
        simp [ProbeNotes.note, ht]
  | reading r sensorType now =>
      obtain ⟨-, hreading, -⟩ := advance_eq_some.mp hs
      obtain ⟨hr, heq⟩ | ⟨hr, heq, -⟩ := onReading_finished hreading
      · rw [show g.note s (.reading r sensorType now) s' = g by simp [ProbeNotes.note, hr]]
        exact ⟨by rw [heq]; exact hsilent, by rw [heq]; exact hquiet, by rw [heq]; exact hlast,
          hdeclared⟩
      · have hnote : g.note s (.reading r sensorType now) s' = { g with
            heard := Function.update g.heard r.sensorId (some now)
            quiet := Function.update g.quiet r.sensorId false } := if_pos hr
        rw [hnote]
        refine ⟨fun d => ?_, fun d => ?_, fun d => ?_, hdeclared⟩
        · rw [heq, heard_silent, heard_episodes (hsilent _)]
          by_cases hd : d = r.sensorId
          · simp [hd]
          · simpa [hd] using hsilent d
        · rw [heq, heard_episodes (hsilent _)]
          by_cases hd : d = r.sensorId
          · simp [hd]
          · simpa [hd] using hquiet d
        · rw [heq, heard_lastSeen]
          by_cases hd : d = r.sensorId
          · simp [hd]
          · simpa [hd] using hlast d

/-- `prime` takes the open episodes for silent. -/
theorem remembers_primed (cadences : Cadences δ) (episodes : δ → Option SilenceEpisode) (now : ℚ) :
    Remembers (TimedWatch.primed cadences episodes now, ProbeNotes.primed cadences episodes now) := by
  refine ⟨fun _ => rfl, fun _ => rfl, fun d => ?_, fun d hd => ?_⟩
  · cases h : (cadences.get d).isSome <;>
      simp [TimedWatch.primed, SilenceWatch.primed, ProbeNotes.primed, h]
  · have hd : (cadences.get d).isSome = true := hd
    simp [ProbeNotes.primed, hd]

/-! ### Each sweep -/

omit [DecidableEq δ] in
/-- What the watcher goes by: the last good reading, or else its `prime`. -/
theorem overdue_iff (h : Remembers (s, g)) (x : δ × ℚ) :
    (s.watch.watcher.overdue now x).isSome ↔ g.quiet x.1 = false ∧
      match g.heard x.1 with
      | some heard => silenceDeadlineS x.2 ≤ now - heard
      | none => g.atPrime x.1 = true ∧ silenceDeadlineS x.2 ≤ now - (g.declared x.1).getD now := by
  have hquiet : g.quiet x.1 = s.watch.watcher.silent x.1 :=
    (h.quiet x.1).trans (h.silent x.1).symm
  have hlast : s.watch.watcher.lastSeen x.1 =
    (g.heard x.1).or (if g.atPrime x.1 then g.declared x.1 else none) := h.lastSeen x.1
  rw [hquiet, SilenceWatcher.overdue, hlast]
  cases s.watch.watcher.silent x.1 with
  | true => simp
  | false =>
      cases hh : g.heard x.1 with
      | some heard => simp [Option.filter]
      | none =>
          cases hp : g.atPrime x.1 with
          | false => simp
          | true =>
              obtain ⟨t, ht⟩ := Option.isSome_iff_exists.mp (h.declared x.1 hp)
              have ht : g.declared x.1 = some t := ht
              simp [ht, Option.filter]

omit [DecidableEq δ] in
/-- A sweep raises no silence that it has raised before. -/
theorem raises_once {c : Cadences δ} {w w' : SilenceWatch δ} {quiet : δ → Bool}
    (hfull : FullSweep now c.rows w w') (hquiet : ∀ d, quiet d = w.watcher.silent d) :
    ∃ new, w'.published = w.published ++ new ∧ (new.map SensorSilence.deviceId).Nodup ∧
      ∀ m ∈ new, quiet m.deviceId = false := by
  refine ⟨_, hfull.published, nodup_breaches c.nodup, fun m hm => ?_⟩
  obtain ⟨x, -, last, hover, rfl⟩ := mem_breaches.mp hm
  exact (hquiet _).trans (SilenceWatcher.overdue_eq_some.mp hover).1

/-- **A sweep is exact** where no probe is past one of the two stamps only. -/
theorem sweeps_iff {a : WatchAction δ} (h : Remembers (s, g))
    (hs : (silenceWatch δ).step s a = some s') :
    Graced (s, g) a ↔ SweepsExactly (s, g) a := by
  cases a with
  | declare cadences => exact Iff.rfl
  | reading r sensorType now => exact Iff.rfl
  | sweep now =>
      obtain ⟨hfull, -, -⟩ := sweep_fullSweep hs
      have honce := raises_once hfull fun d => (h.quiet d).trans (h.silent d).symm
      have hexact : SweepsExactly (s, g) (.sweep now) ↔ ∀ x ∈ s.watch.cadences.rows,
          ((s'.watch.episodes x.1).isSome ↔
            g.quiet x.1 = true ∨ silenceDeadlineS x.2 ≤ now - g.later now x.1) := by
        rw [SweepsExactly, Machine.forall_step hs]
        exact and_iff_left honce
      rw [hexact]
      refine forall₂_congr fun x hx => ?_
      have hopen : (s.watch.episodes x.1).isSome = g.quiet x.1 := (h.quiet x.1).symm
      rw [hfull.episode hx, overdue_iff h x, hopen, ProbeNotes.later]
      change (g.quiet x.1 = false → match g.heard x.1 with | none => _ | some heard => _) ↔ _
      cases g.quiet x.1 with
      | true => simp
      | false =>
          cases g.heard x.1 with
          | none =>
              by_cases hlate : silenceDeadlineS x.2 ≤ now - (g.declared x.1).getD now
              · cases g.atPrime x.1 <;> simp [hlate]
              · simp [hlate, not_le.mp hlate]
          | some heard =>
              have hmax : silenceDeadlineS x.2 ≤ now - max heard ((g.declared x.1).getD now) ↔
                  silenceDeadlineS x.2 ≤ now - heard ∧
                    silenceDeadlineS x.2 ≤ now - (g.declared x.1).getD now :=
                le_sub_comm.trans (max_le_iff.trans (and_congr le_sub_comm le_sub_comm))
              simp only [true_implies, Bool.false_eq_true, false_or, true_and, hmax]
              by_cases hlate : silenceDeadlineS x.2 ≤ now - heard
              · simp [hlate]
              · simp [hlate, not_le.mp hlate]

/-- **The silence watch**, from a `prime`: each sweep leaves recorded silent exactly what was so
already and what has been quiet for its deadline, and raises nothing twice, exactly in the runs whose
sweeps come to no probe that the watcher knows less of. -/
theorem silence_exact_iff (cadences : Cadences δ) (episodes : δ → Option SilenceEpisode) (now : ℚ)
    {as : List (WatchAction δ)} {q : TimedWatch δ × ProbeNotes δ} :
    ((silenceWatch δ).ghost ProbeNotes.note).RunIf SweepsExactly
        (.primed cadences episodes now, .primed cadences episodes now) as q ↔
      ((silenceWatch δ).ghost ProbeNotes.note).RunIf Graced
        (.primed cadences episodes now, .primed cadences episodes now) as q := by
  refine (Machine.RunIf.congr (remembers_primed cadences episodes now) ?_ ?_).symm
  · exact Machine.ghost_preserves fun s g a s' _ hI hs => remembers_step hI hs
  · rintro ⟨s, g⟩ a q hI hs
    exact sweeps_iff hI (Machine.ghost_step.mp hs).1

/-- No probe. -/
def noCadences : Cadences Unit := ⟨[], by simp⟩

/-- One probe, every ten seconds. -/
def tenSeconds : Cadences Unit := ⟨[((), 10)], by simp⟩

/-- A probe that is adopted after `prime`, and never reports, is never recorded silent. -/
theorem not_silence_exact :
    ∃ p, ((silenceWatch Unit).ghost ProbeNotes.note).Run
      (.primed noCadences (fun _ => none) 0, .primed noCadences (fun _ => none) 0)
      [.declare tenSeconds, .sweep 10] p ∧ ¬SweepsExactly p (.sweep 1000) := by
  have hrun : (((silenceWatch Unit).ghost ProbeNotes.note).exec
      (.primed noCadences (fun _ => none) 0, .primed noCadences (fun _ => none) 0)
      [.declare tenSeconds, .sweep 10]).bind (fun p =>
        ((silenceWatch Unit).step p.1 (.sweep 1000)).map fun s' =>
          (p.1.watch.cadences.rows, p.2.later 1000 (), (s'.watch.episodes ()).isSome)) =
      some ([((), 10)], 10, false) := by decide +kernel
  obtain ⟨p, hexec, hnext⟩ := Option.bind_eq_some_iff.mp hrun
  obtain ⟨s', hstep, hresult⟩ := Option.map_eq_some_iff.mp hnext
  obtain ⟨hrows, hrest⟩ := Prod.mk.inj hresult
  obtain ⟨hlater, hopen⟩ := Prod.mk.inj hrest
  refine ⟨p, Machine.exec_eq_some.mp hexec, fun hexact => ?_⟩
  have hrow := (hexact s' hstep).1 ((), 10) (by simp [hrows])
  have hsilent := hrow.mpr (.inr (by rw [hlater]; decide +kernel))
  simp [hopen] at hsilent

end BellasReef.ControlEngine
