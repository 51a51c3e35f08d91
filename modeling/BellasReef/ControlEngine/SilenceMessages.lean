import BellasReef.ControlEngine.SilenceExact
import Mathlib.Data.List.Chain
import Mathlib.Tactic.NormNum

/-!
# ControlEngine — Silence messages

What one watcher publishes, over the runs of `SilenceExact`.  Breach and clear alternate, and a
breach says how long the probe has been quiet; a clear says zero, since the reading that ends a
silence has overwritten the stamp that the silence began at.  `silence_truth_iff`: that is untrue
where the watcher had heard the probe before.
-/

namespace BellasReef.ControlEngine
open BellasReef.Support

variable {δ : Type} [DecidableEq δ]

/-- What has been said of a probe. -/
def said (published : List (SensorSilence δ)) (d : δ) : List AlertState :=
  (published.filter (·.deviceId = d)).map SensorSilence.state

/-- Of each probe, the one is followed by the other; the first is a clear if its silence was open at
`prime`, and a breach if not. -/
def Alternates (opened : δ → Bool) (published : List (SensorSilence δ)) : Prop :=
  ∀ d, ((if opened d then .breach else .clear) :: said published d).IsChain (· ≠ ·)

/-- When a probe that has been raised was last heard of: its last good reading, or its `prime`. -/
def ProbeNotes.lastHeard (g : ProbeNotes δ) (now : ℚ) (d : δ) : ℚ :=
  (g.heard d).getD ((g.declared d).getD now)

/-- What a step publishes is true. -/
def TellsTruth (opened : δ → Bool) (p : TimedWatch δ × ProbeNotes δ) (a : WatchAction δ) : Prop :=
  ∀ s', (silenceWatch δ).step p.1 a = some s' → Alternates opened s'.watch.published ∧
    ∃ new, s'.watch.published = p.1.watch.published ++ new ∧ ∀ m ∈ new,
      match a with
      | .sweep now => m.state = .breach ∧ m.silentForS = now - p.2.lastHeard now m.deviceId ∧
          m.silenceThresholdS ≤ m.silentForS
      | .reading r _ now => m.state = .clear ∧ m.deviceId = r.sensorId ∧
          ∀ heard, p.2.heard r.sensorId = some heard → m.silentForS = now - heard
      | .declare _ => False

/-- No good reading ends the silence of a probe that has been heard before. -/
def EndsUnheard (p : TimedWatch δ × ProbeNotes δ) : WatchAction δ → Prop
  | .reading r _ _ => r.evaluable.isSome → p.2.quiet r.sensorId = true →
      p.2.heard r.sensorId = none
  | _ => True

/-- What has been said last, and how long a silence has been. -/
structure Spoken (opened : δ → Bool) (p : TimedWatch δ × ProbeNotes δ) : Prop where
  remembers : Remembers p
  alternates : Alternates opened p.1.watch.published
  last : ∀ d, ((if opened d then .breach else .clear) ::
    said p.1.watch.published d).getLast (by simp) = .breach ↔ p.2.quiet d = true
  overdue : ∀ d heard, p.2.quiet d = true → p.2.heard d = some heard → heard + 30 ≤ p.1.now

/-! ### Messages one by one -/

variable {opened : δ → Bool} {published : List (SensorSilence δ)} {s s' : TimedWatch δ}
  {g : ProbeNotes δ} {d : δ}

theorem said_append (l l' : List (SensorSilence δ)) : said (l ++ l') d = said l d ++ said l' d := by
  simp [said]

/-- A list with one message of each device at most says one thing of it at most. -/
theorem said_new {new : List (SensorSilence δ)} {state : AlertState}
    (hn : (new.map SensorSilence.deviceId).Nodup) (hstate : ∀ m ∈ new, m.state = state) :
    said new d = if d ∈ new.map SensorSilence.deviceId then [state] else [] := by
  induction new with
  | nil => rfl
  | cons m new ih =>
      obtain ⟨hm, hn⟩ := List.nodup_cons.mp hn
      have ih := ih hn fun m' hm' => hstate m' (List.mem_cons_of_mem m hm')
      by_cases hd : m.deviceId = d
      · subst hd
        rw [if_neg hm] at ih
        simpa [said, hstate m List.mem_cons_self] using ih
      · rw [show said (m :: new) d = said new d by simp [said, hd], ih]
        simp [Ne.symm hd]

/-- Something else said after the last. -/
theorem chain_snoc {start x : AlertState} {l : List AlertState}
    (h : (start :: l).IsChain (· ≠ ·)) (hx : (start :: l).getLast (by simp) ≠ x) :
    (start :: (l ++ [x])).IsChain (· ≠ ·) := by
  change ((start :: l) ++ [x]).IsChain (· ≠ ·)
  refine List.isChain_append.mpr ⟨h, by simp, fun y hy z hz => ?_⟩
  rw [List.getLast?_eq_getLast_of_ne_nil (by simp)] at hy
  obtain rfl := Option.some.inj hy
  obtain rfl : x = z := by simpa using hz
  exact hx

/-- What a step that publishes this of some probes makes of the alternation. -/
theorem Alternates.publish {state : AlertState} {new : List (SensorSilence δ)}
    {quiet : δ → Bool} (halt : Alternates opened published)
    (hlast : ∀ d, ((if opened d then .breach else .clear) ::
      said published d).getLast (by simp) = .breach ↔ quiet d = true)
    (hn : (new.map SensorSilence.deviceId).Nodup) (hstate : ∀ m ∈ new, m.state = state)
    (hquiet : ∀ m ∈ new, quiet m.deviceId = decide (state = .clear)) :
    Alternates opened (published ++ new) ∧ ∀ d, ((if opened d then .breach else .clear) ::
      said (published ++ new) d).getLast (by simp) = .breach ↔
        if d ∈ new.map SensorSilence.deviceId then state = .breach else quiet d = true := by
  refine ⟨fun d => ?_, fun d => ?_⟩
  · rw [said_append, said_new hn hstate]
    by_cases hd : d ∈ new.map SensorSilence.deviceId
    · rw [if_pos hd]
      refine chain_snoc (halt d) fun heq => ?_
      obtain ⟨m, hm, rfl⟩ := List.mem_map.mp hd
      have hq := hlast m.deviceId
      rw [heq, hquiet m hm] at hq
      cases state <;> simp at hq
    · rw [if_neg hd, List.append_nil]
      exact halt d
  · by_cases hd : d ∈ new.map SensorSilence.deviceId
    · simp [said_append, said_new hn hstate, hd]
    · rw [if_neg hd, ← hlast d]
      simp [said_append, said_new hn hstate, hd]

/-! ### The steps -/

omit [DecidableEq δ] in
/-- The probes that a sweep raises are those that it leaves silent and did not find so. -/
theorem raised_iff {now : ℚ} {c : Cadences δ} {w w' : SilenceWatch δ}
    (hfull : FullSweep now c.rows w w') : w'.watcher.silent d = true ↔
      w.watcher.silent d = true ∨ d ∈ (w.breaches now c.rows).map SensorSilence.deviceId := by
  rw [hfull.silent]
  refine or_congr_right ⟨?_, ?_⟩
  · rintro ⟨x, hx, rfl, hover⟩
    obtain ⟨last, hover⟩ := Option.isSome_iff_exists.mp hover
    exact List.mem_map.mpr ⟨_, mem_breaches.mpr ⟨x, hx, last, hover, rfl⟩, rfl⟩
  · intro hd
    obtain ⟨m, hm, rfl⟩ := List.mem_map.mp hd
    obtain ⟨x, hx, last, hover, rfl⟩ := mem_breaches.mp hm
    exact ⟨x, hx, rfl, by simp [hover]⟩

omit [DecidableEq δ] in
/-- A probe that has been heard is overdue by its last good reading. -/
theorem Remembers.overdue_of_heard {now last heard : ℚ} {x : δ × ℚ} (h : Remembers (s, g))
    (hover : s.watch.watcher.overdue now x = some last) (hheard : g.heard x.1 = some heard) :
    heard + 30 ≤ now := by
  obtain ⟨-, hlast, hlate⟩ := SilenceWatcher.overdue_eq_some.mp hover
  have hstamp := (h.lastSeen x.1).symm.trans hlast
  simp only [hheard, Option.some_or, Option.some.injEq] at hstamp
  have hfloor := silenceFloorS_le x.2
  linarith

omit [DecidableEq δ] in
/-- What a sweep says is what the notes say. -/
theorem Remembers.lastHeard_of_overdue {now last : ℚ} {x : δ × ℚ} (h : Remembers (s, g))
    (hover : s.watch.watcher.overdue now x = some last) : g.lastHeard now x.1 = last := by
  obtain ⟨-, hlast, -⟩ := SilenceWatcher.overdue_eq_some.mp hover
  have hstamp := (h.lastSeen x.1).symm.trans hlast
  cases hh : g.heard x.1 with
  | some heard => simpa [ProbeNotes.lastHeard, hh] using hstamp
  | none =>
      cases hp : g.atPrime x.1 with
      | false => simp [hh, hp] at hstamp
      | true =>
          simp only [hh, hp, if_true, Option.none_or] at hstamp
          simp [ProbeNotes.lastHeard, hh, hstamp]

/-- **Every step** keeps what has been said in turn. -/
theorem spoken_step {a : WatchAction δ} (h : Spoken opened (s, g))
    (hs : (silenceWatch δ).step s a = some s') : Spoken opened (s', g.note s a s') := by
  obtain ⟨hrem, halt, hlast, hover⟩ := h
  have hrem' := remembers_step hrem hs
  have hquiet : ∀ d, g.quiet d = s.watch.watcher.silent d := fun d =>
    (hrem.quiet d).trans (hrem.silent d).symm
  cases a with
  | declare cadences =>
      obtain rfl := Option.some.inj hs
      exact ⟨hrem', halt, hlast, hover⟩
  | sweep now =>
      obtain ⟨hfull, hle, hnow⟩ := sweep_fullSweep hs
      have hquiet' : ∀ d, (g.note s (.sweep now) s').quiet d = s'.watch.watcher.silent d :=
        fun d => (hrem'.quiet d).trans (hrem'.silent d).symm
      obtain ⟨halt', hlast'⟩ := halt.publish hlast
        (nodup_breaches s.watch.cadences.nodup)
        (fun m hm => by obtain ⟨_, _, _, _, rfl⟩ := mem_breaches.mp hm; rfl)
        fun m hm => by
          obtain ⟨x, _, last, ho, rfl⟩ := mem_breaches.mp hm
          exact (hquiet _).trans (SilenceWatcher.overdue_eq_some.mp ho).1
      refine ⟨hrem', hfull.published ▸ halt', fun d => ?_, fun d heard hq hheard => ?_⟩
      · simp only [hfull.published, hlast', hquiet', raised_iff hfull, hquiet]
        split <;> simp_all
      · change g.heard d = some heard at hheard
        rw [hnow]
        rw [hquiet', hfull.silent, ← hquiet] at hq
        obtain hq | ⟨x, -, rfl, ho⟩ := hq
        · exact (hover d heard hq hheard).trans hle
        · obtain ⟨last, ho⟩ := Option.isSome_iff_exists.mp ho
          exact hrem.overdue_of_heard ho hheard
  | reading r sensorType now =>
      obtain ⟨hle, hreading, hnow⟩ := advance_eq_some.mp hs
      obtain ⟨hr, heq⟩ | ⟨hr, heq, -⟩ := onReading_finished hreading
      · have hnote : g.note s (.reading r sensorType now) s' = g := by simp [ProbeNotes.note, hr]
        rw [hnote] at hrem' ⊢
        refine ⟨hrem', heq ▸ halt, fun d => by rw [heq]; exact hlast d, fun d heard hq hheard => ?_⟩
        rw [hnow]
        exact (hover d heard hq hheard).trans hle
      · have hnote : g.note s (.reading r sensorType now) s' = { g with
            heard := Function.update g.heard r.sensorId (some now)
            quiet := Function.update g.quiet r.sensorId false } := if_pos hr
        have hn : ((s.watch.clears r.sensorId sensorType now).map SensorSilence.deviceId).Nodup := by
          rw [SilenceWatch.clears]
          split <;> simp
        have hstate : ∀ m ∈ s.watch.clears r.sensorId sensorType now, m.state = .clear :=
          fun m hm => by rw [(mem_clears.mp hm).2]; rfl
        have hclears : ∀ m ∈ s.watch.clears r.sensorId sensorType now,
            g.quiet m.deviceId = decide (AlertState.clear = .clear) := fun m hm => by
          obtain ⟨hsilent, rfl⟩ := mem_clears.mp hm
          exact (hquiet _).trans hsilent
        obtain ⟨halt', hlast'⟩ := halt.publish hlast hn hstate hclears
        have hpub : s'.watch.published =
            s.watch.published ++ s.watch.clears r.sensorId sensorType now := by
          rw [heq, heard_published]
        rw [hnote] at hrem' ⊢
        refine ⟨hrem', hpub ▸ halt', fun d => ?_, fun d heard hq hheard => ?_⟩
        · simp only [hpub, hlast']
          by_cases hd : d = r.sensorId
          · subst hd
            cases hsilent : s.watch.watcher.silent r.sensorId <;>
              simp [SilenceWatch.clears, SilenceWatch.cleared, hsilent, hquiet]
          · have hother : d ∉ (s.watch.clears r.sensorId sensorType now).map
                SensorSilence.deviceId := by
              intro hmem
              obtain ⟨m, hm, rfl⟩ := List.mem_map.mp hmem
              exact hd (by rw [(mem_clears.mp hm).2]; rfl)
            simp [hother, hd]
        · by_cases hd : d = r.sensorId
          · simp [hd] at hq
          · simp only [Function.update_of_ne hd] at hq hheard
            rw [hnow]
            exact (hover d heard hq hheard).trans hle

/-- **What a step publishes is true**, but for a clear of a probe that has been heard before. -/
theorem tells_iff {a : WatchAction δ} (h : Spoken opened (s, g))
    (hs : (silenceWatch δ).step s a = some s') :
    EndsUnheard (s, g) a ↔ TellsTruth opened (s, g) a := by
  have halt' := (spoken_step h hs).alternates
  have hrem := h.remembers
  have hquiet : g.quiet = s.watch.watcher.silent := funext fun d =>
    (hrem.quiet d).trans (hrem.silent d).symm
  rw [TellsTruth, Machine.forall_step hs]
  cases a with
  | declare cadences =>
      obtain rfl := Option.some.inj hs
      exact iff_of_true trivial ⟨halt', [], by simp, by simp⟩
  | sweep now =>
      obtain ⟨hfull, -, -⟩ := sweep_fullSweep hs
      refine iff_of_true trivial ⟨halt', _, hfull.published, fun m hm => ?_⟩
      obtain ⟨x, -, last, hover, rfl⟩ := mem_breaches.mp hm
      refine ⟨rfl, ?_, (SilenceWatcher.overdue_eq_some.mp hover).2.2⟩
      exact congrArg (now - ·) (hrem.lastHeard_of_overdue hover).symm
  | reading r sensorType now =>
      obtain ⟨hle, hreading, hnow⟩ := advance_eq_some.mp hs
      obtain ⟨hr, heq⟩ | ⟨hr, heq, -⟩ := onReading_finished hreading
      · exact iff_of_true (fun hr' => by simp [hr] at hr') ⟨halt', [], by simp [heq], by simp⟩
      · have hpub : s'.watch.published =
            s.watch.published ++ s.watch.clears r.sensorId sensorType now := by
          rw [heq, heard_published]
        constructor
        · intro hC
          refine ⟨halt', _, hpub, fun m hm => ?_⟩
          obtain ⟨hsilent, rfl⟩ := mem_clears.mp hm
          refine ⟨rfl, rfl, fun heard hheard => ?_⟩
          have hnone : g.heard r.sensorId = none := hC hr (by rw [hquiet]; exact hsilent)
          cases hnone.symm.trans hheard
        · intro hD _ hq
          refine Option.eq_none_iff_forall_ne_some.mpr fun heard hheard => ?_
          have hq : g.quiet r.sensorId = true := hq
          obtain ⟨-, new, hnew, htrue⟩ := hD
          -- the message that it publishes carries zero, a deadline after the reading before
          obtain rfl : s.watch.clears r.sensorId sensorType now = new :=
            List.append_cancel_left (hpub.symm.trans hnew)
          have hmem : s.watch.cleared r.sensorId sensorType now ∈
              s.watch.clears r.sensorId sensorType now :=
            mem_clears.mpr ⟨hquiet ▸ hq, rfl⟩
          have hzero : (0 : ℚ) = now - heard := (htrue _ hmem).2.2 heard hheard
          have hlate := h.overdue r.sensorId heard hq hheard
          change heard + 30 ≤ s.now at hlate
          linarith

/-- At `prime` nothing was said, but of the silences that are open. -/
theorem spoken_primed (cadences : Cadences δ) (episodes : δ → Option SilenceEpisode) (now : ℚ) :
    Spoken (fun d => (episodes d).isSome)
      (.primed cadences episodes now, .primed cadences episodes now) := by
  refine ⟨remembers_primed cadences episodes now, fun d => ?_, fun d => ?_, fun d heard _ h => ?_⟩
  · simp [TimedWatch.primed, SilenceWatch.primed, said]
  · cases ho : (episodes d).isSome <;>
      simp [TimedWatch.primed, SilenceWatch.primed, ProbeNotes.primed, said, ho]
  · simp [ProbeNotes.primed] at h

/-- **Silence messages**, from a `prime` with any silences open: all that is published is true exactly
in the runs in which no good reading ends the silence of a probe that had been heard. -/
theorem silence_truth_iff (cadences : Cadences δ) (episodes : δ → Option SilenceEpisode) (now : ℚ)
    {as : List (WatchAction δ)} {q : TimedWatch δ × ProbeNotes δ} :
    ((silenceWatch δ).ghost ProbeNotes.note).RunIf (TellsTruth fun d => (episodes d).isSome)
        (.primed cadences episodes now, .primed cadences episodes now) as q ↔
      ((silenceWatch δ).ghost ProbeNotes.note).RunIf EndsUnheard
        (.primed cadences episodes now, .primed cadences episodes now) as q := by
  refine (Machine.RunIf.congr (spoken_primed cadences episodes now) ?_ ?_).symm
  · exact Machine.ghost_preserves fun s g a s' _ hI hs => spoken_step hI hs
  · rintro ⟨s, g⟩ a q hI hs
    exact tells_iff hI (Machine.ghost_step.mp hs).1

/-- A good reading of 25 degrees. -/
def goodReading : SensorReading Unit := ⟨(), some 25, .ok, required_value 25⟩

/-- A probe is heard, is quiet for a hundred seconds, and is heard again: the clear says that it was
silent for none. -/
theorem not_silence_truth :
    ∃ p, ((silenceWatch Unit).ghost ProbeNotes.note).Run
      (.primed tenSeconds (fun _ => none) 0, .primed tenSeconds (fun _ => none) 0)
      [.reading goodReading "ds18b20" 0, .sweep 100] p ∧
        ¬TellsTruth (fun _ => false) p (.reading goodReading "ds18b20" 100) := by
  have hrun : (((silenceWatch Unit).ghost ProbeNotes.note).exec
      (.primed tenSeconds (fun _ => none) 0, .primed tenSeconds (fun _ => none) 0)
      [.reading goodReading "ds18b20" 0, .sweep 100]).bind (fun p =>
        ((silenceWatch Unit).step p.1 (.reading goodReading "ds18b20" 100)).map fun s' =>
          (p.1.watch.published.map SensorSilence.silentForS, p.2.heard (),
            s'.watch.published.map SensorSilence.silentForS)) =
      some ([100], some 0, [100, 0]) := by decide +kernel
  obtain ⟨p, hexec, hnext⟩ := Option.bind_eq_some_iff.mp hrun
  obtain ⟨s', hstep, hresult⟩ := Option.map_eq_some_iff.mp hnext
  obtain ⟨hbefore, hrest⟩ := Prod.mk.inj hresult
  obtain ⟨hheard, hafter⟩ := Prod.mk.inj hrest
  refine ⟨p, Machine.exec_eq_some.mp hexec, fun htrue => ?_⟩
  obtain ⟨-, new, hnew, hall⟩ := htrue s' hstep
  rw [hnew, List.map_append, hbefore] at hafter
  obtain ⟨m, hm, hzero⟩ : ∃ m ∈ new, m.silentForS = 0 := by
    have hnew : new.map SensorSilence.silentForS = [0] := List.append_cancel_left hafter
    exact List.mem_map.mp (hnew ▸ List.mem_singleton_self 0)
  have hsilent := (hall m hm).2.2 0 hheard
  rw [hzero] at hsilent
  norm_num at hsilent

end BellasReef.ControlEngine
