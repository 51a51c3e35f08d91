import BellasReef.ControlEngine.Alerting

/-!
# ControlEngine — Silence faults

Runs of the engine's alerting in which any call may fail, or commit and report an error.

A sweep ends at the first call that raises, so that what it would have raised after it stays unraised:
`Unbroken` says that there is nothing.  And a call that commits and reports an error puts the memory
and the record apart for good: the store refuses the second raise, and the second clear.
`faults_contained_iff` is over every run.
-/

namespace BellasReef.ControlEngine
open BellasReef.Support

variable {δ : Type}

/-- The calls that a sweep makes for a probe return. -/
def SilenceWatch.callsReturn (s : SilenceWatch δ) (fates : SweepFates δ) (d : δ) : Prop :=
  fates.raise d = .succeeds ∧ fates.publish d = true ∧ s.episodes d = none

/-- The calls of a reading return, up to its judging. -/
def ReadingCalls.returns (calls : ReadingCalls) : Prop :=
  calls.silence = .calm ∧ calls.bands = true ∧ calls.resync = true

/-- The probe is silent neither in memory nor in the record, and its reading has been evaluated. -/
def EndsSilence (s s' : Alerting δ) (r : SensorReading δ) : Prop :=
  s'.watch.watcher.silent r.sensorId = false ∧ s'.watch.episodes r.sensorId = none ∧
    ∀ t, s'.thresholds r.sensorId = some t → t.configured = true →
      s'.judged = s.judged ++ [(r, t)]

section Faults
variable [DecidableEq δ]

/-- The probes whose memory and record have been put apart: the record has changed in a call that
reported an error, since the engine last started. -/
def Alerting.note (s : Alerting δ) (a : AlertingAction δ) (s' : Alerting δ) (f : δ → Bool) :
    δ → Bool :=
  match a with
  | .sweep _ fates => fun d =>
      f d || (decide (fates.raise d = .lost) &&
        decide (s'.watch.episodes d ≠ s.watch.episodes d))
  | .reading _ _ calls => fun d =>
      f d || (decide (calls.silence.clear = .lost) &&
        decide (s'.watch.episodes d ≠ s.watch.episodes d))
  | .start _ _ => fun _ => false
  | .declare _ | .setThresholds _ _ _ => f

/-- A sweep that gets to read the cadences raises each overdue probe whose own calls return; a good
reading whose calls return ends the silence of its probe, and is evaluated. -/
def FaultsContained (refreshS : ℚ) (p : Alerting δ × (δ → Bool)) (a : AlertingAction δ) : Prop :=
  ∀ s', (alerting δ refreshS).step p.1 a = some s' →
    match a with
    | .sweep now fates => fates.cadences = true → ∀ x ∈ p.1.watch.cadences.rows,
        (p.1.watch.watcher.overdue now x).isSome → p.1.watch.callsReturn fates x.1 →
        s'.watch.watcher.silent x.1 = true ∧ (s'.watch.episodes x.1).isSome
    | .reading r _ calls => r.evaluable.isSome → calls.returns → EndsSilence p.1 s' r
    | _ => True

omit [DecidableEq δ] in
/-- No sweep comes to an overdue probe of which a call fails before one of which none does; and no
good reading is of a probe of which a call has committed and reported an error since the engine last
started, or whose silence was raised by a later clock. -/
def Unbroken (p : Alerting δ × (δ → Bool)) : AlertingAction δ → Prop
  | .sweep now fates => fates.cadences = true → p.1.watch.cadences.rows.Pairwise fun x y =>
      (p.1.watch.watcher.overdue now x).isSome → (p.1.watch.watcher.overdue now y).isSome →
      p.1.watch.callsReturn fates y.1 → p.1.watch.callsReturn fates x.1
  | .reading r _ calls => r.evaluable.isSome → calls.returns →
      p.2 r.sensorId = false ∧
        ∀ e, p.1.watch.episodes r.sensorId = some e → e.raisedAt ≤ calls.heardAt
  | _ => True

end Faults

/-! ### What a sweep does, whatever comes of its calls -/

variable [DecidableEq δ] {s s' : SilenceWatch δ} {now last : ℚ} {fates : SweepFates δ}
  {x : δ × ℚ} {xs : List (δ × ℚ)} {d : δ}

/-- What may become of a probe in a sweep: nothing; it is raised; or it is raised in the record
alone, by a call that reported an error. -/
inductive SweptTo (fate : CallFate) (s s' : SilenceWatch δ) (d : δ) : Prop where
  | same (hsilent : s'.watcher.silent d = s.watcher.silent d)
      (hepisode : s'.episodes d = s.episodes d)
  | raised (hfate : fate ≠ .lost) (hnot : s.watcher.silent d = false) (hnone : s.episodes d = none)
      (hsilent : s'.watcher.silent d = true) (hepisode : (s'.episodes d).isSome)
  | adrift (hfate : fate = .lost) (hnot : s.watcher.silent d = false) (hnone : s.episodes d = none)
      (hsilent : s'.watcher.silent d = false) (hepisode : (s'.episodes d).isSome)

/-- What the loop does about a probe that is overdue: all, and goes on, if its calls return; or else it
ends, and the others are as they were. -/
theorem sweepOver_overdue (fates : SweepFates δ) (xs : List (δ × ℚ))
    (ho : s.watcher.overdue now x = some last) :
    (s.callsReturn fates x.1 ∧
      sweepOver now fates (x :: xs) s = sweepOver now fates xs (s.raised now x last)) ∨
    ¬s.callsReturn fates x.1 ∧ ∃ s', sweepOver now fates (x :: xs) s = (s', false) ∧
      SweptTo (fates.raise x.1) s s' x.1 ∧
      ∀ d, d ≠ x.1 → s'.watcher.silent d = s.watcher.silent d ∧ s'.episodes d = s.episodes d := by
  obtain ⟨hnot, -, -⟩ := SilenceWatcher.overdue_eq_some.mp ho
  let written : SilenceWatch δ :=
    { s with episodes :=
      Function.update s.episodes x.1 (some ⟨s.watcher.sensorType x.1, now, some last⟩) }
  cases he : s.episodes x.1 with
  | some e =>
      refine .inr ⟨by simp [SilenceWatch.callsReturn, he], s, ?_, .same rfl rfl, by simp⟩
      cases hf : fates.raise x.1 <;>
        simp [sweepOver, ho, hf, CallFate.of, SilenceWatch.raiseSilence, he]
  | none =>
      cases hf : fates.raise x.1 with
      | fails =>
          refine .inr ⟨by simp [SilenceWatch.callsReturn, hf], s, ?_, .same rfl rfl, by simp⟩
          simp [sweepOver, ho, hf, CallFate.of]
      | lost =>
          refine .inr ⟨by simp [SilenceWatch.callsReturn, hf], written, ?_,
            .adrift rfl hnot he hnot ?_, fun d hd => ⟨rfl, ?_⟩⟩
          · simp [sweepOver, ho, hf, CallFate.of, SilenceWatch.raiseSilence, he, written]
          · simp [written]
          · simp [written, hd]
      | succeeds =>
          have hacc := breach_accepted ho
          cases hp : fates.publish x.1 with
          | false =>
              refine .inr ⟨by simp [SilenceWatch.callsReturn, hp], written.mark x.1 true, ?_,
                .raised (by simp) hnot he ?_ ?_, fun d hd => ⟨?_, ?_⟩⟩
              · simp [sweepOver, ho, hf, CallFate.of, SilenceWatch.raiseSilence, he,
                  SilenceWatch.emit, hp, written]
              · simp [SilenceWatch.mark]
              · simp [SilenceWatch.mark, written]
              · simp [SilenceWatch.mark, written, hd]
              · simp [SilenceWatch.mark, written, hd]
          | true =>
              refine .inl ⟨⟨hf, hp, he⟩, ?_⟩
              simp [sweepOver, ho, hf, CallFate.of, SilenceWatch.raiseSilence, he,
                SilenceWatch.emit, hp, SilenceWatch.mark, SilenceWatch.raised, hacc]

omit [DecidableEq δ] in
/-- A probe that a sweep made silent has an open episode. -/
theorem SweptTo.mirrors {fate : CallFate} (h : SweptTo fate s s' d)
    (hsilent : s'.watcher.silent d = true) (hnot : s.watcher.silent d = false) :
    (s'.episodes d).isSome := by
  cases h with
  | same hsame _ => rw [hsame, hnot] at hsilent; cases hsilent
  | raised _ _ _ _ hepisode => exact hepisode
  | adrift _ _ _ _ hepisode => exact hepisode

/-- A probe that is raised is silent and has an episode. -/
theorem raised_self (s : SilenceWatch δ) (now last : ℚ) (x : δ × ℚ) :
    (s.raised now x last).watcher.silent x.1 = true ∧ ((s.raised now x last).episodes x.1).isSome := by
  simp [SilenceWatch.raised]

/-- To raise one probe leaves the others. -/
theorem raised_ne (hd : d ≠ x.1) :
    (s.raised now x last).watcher.silent d = s.watcher.silent d ∧
      (s.raised now x last).episodes d = s.episodes d := by
  simp [SilenceWatch.raised, hd]

/-- A probe that the loop does not come to is left as it was. -/
theorem sweepOver_other (hd : d ∉ xs.map Prod.fst) :
    (sweepOver now fates xs s).1.watcher.silent d = s.watcher.silent d ∧
      (sweepOver now fates xs s).1.episodes d = s.episodes d := by
  induction xs generalizing s with
  | nil => exact ⟨rfl, rfl⟩
  | cons x xs ih =>
      obtain ⟨hne, hd⟩ : d ≠ x.1 ∧ d ∉ xs.map Prod.fst := by simpa using hd
      cases ho : s.watcher.overdue now x with
      | none => simpa [sweepOver, ho] using ih hd
      | some last =>
          obtain ⟨-, hgo⟩ | ⟨-, s', hend, -, hsame⟩ := sweepOver_overdue fates xs ho
          · obtain ⟨hsilent, hepisode⟩ := raised_ne hne
            rw [hgo]
            exact ⟨(ih hd).1.trans hsilent, (ih hd).2.trans hepisode⟩
          · rw [hend]
            exact hsame d hne

/-- **A sweep** does one of three things to each probe. -/
theorem sweepOver_sweptTo (hn : (xs.map Prod.fst).Nodup) (d : δ) :
    SweptTo (fates.raise d) s (sweepOver now fates xs s).1 d := by
  induction xs generalizing s with
  | nil => exact .same rfl rfl
  | cons x xs ih =>
      obtain ⟨hx, hn⟩ := List.nodup_cons.mp hn
      cases ho : s.watcher.overdue now x with
      | none =>
          rw [show sweepOver now fates (x :: xs) s = sweepOver now fates xs s by
            simp [sweepOver, ho]]
          exact ih hn
      | some last =>
          obtain ⟨hnot, -, -⟩ := SilenceWatcher.overdue_eq_some.mp ho
          obtain ⟨⟨hf, -, he⟩, hgo⟩ | ⟨-, s', hend, hswept, hsame⟩ := sweepOver_overdue fates xs ho
          · rw [hgo]
            by_cases hd : d = x.1
            · subst hd
              obtain ⟨hsilent, hepisode⟩ := sweepOver_other hx
              obtain ⟨hself, hopen⟩ := raised_self s now last x
              exact .raised (by simp [hf]) hnot he (hsilent.trans hself) (by rwa [hepisode])
            · obtain ⟨hsilent, hepisode⟩ := raised_ne hd
              cases ih hn with
              | same hs he => exact .same (hs.trans hsilent) (he.trans hepisode)
              | raised hf hnot hnone hs he =>
                  exact .raised hf (hsilent ▸ hnot) (hepisode ▸ hnone) hs he
              | adrift hf hnot hnone hs he =>
                  exact .adrift hf (hsilent ▸ hnot) (hepisode ▸ hnone) hs he
          · rw [hend]
            by_cases hd : d = x.1
            · subst hd
              exact hswept
            · exact .same (hsame d hd).1 (hsame d hd).2

/-- **A sweep raises** each overdue probe whose own calls return exactly if it comes to none before
it of which a call fails. -/
theorem sweepOver_raises (hn : (xs.map Prod.fst).Nodup) :
    (∀ x ∈ xs, (s.watcher.overdue now x).isSome → s.callsReturn fates x.1 →
      (sweepOver now fates xs s).1.watcher.silent x.1 = true) ↔
      xs.Pairwise fun x y => (s.watcher.overdue now x).isSome → (s.watcher.overdue now y).isSome →
        s.callsReturn fates y.1 → s.callsReturn fates x.1 := by
  induction xs generalizing s with
  | nil => simp
  | cons x xs ih =>
      obtain ⟨hx, hn⟩ := List.nodup_cons.mp hn
      have hne : ∀ y ∈ xs, y.1 ≠ x.1 := fun y hy heq => hx (heq ▸ List.mem_map_of_mem hy)
      rw [List.pairwise_cons, List.forall_mem_cons]
      cases ho : s.watcher.overdue now x with
      | none =>
          rw [show sweepOver now fates (x :: xs) s = sweepOver now fates xs s by
            simp [sweepOver, ho], ih hn]
          simp
      | some last =>
          obtain ⟨hreturn, hgo⟩ | ⟨hfail, s', hend, -, hsame⟩ := sweepOver_overdue fates xs ho
          · -- the rest is swept from the state that has `x` raised
            have hover : ∀ y ∈ xs, (s.raised now x last).watcher.overdue now y =
                s.watcher.overdue now y := fun y hy => overdue_raised_ne (hne y hy)
            have hcalls : ∀ y ∈ xs, ((s.raised now x last).callsReturn fates y.1 ↔
                s.callsReturn fates y.1) := fun y hy => by
              simp [SilenceWatch.callsReturn, (raised_ne (hne y hy)).2]
            have hself : (sweepOver now fates xs (s.raised now x last)).1.watcher.silent x.1 = true :=
              (sweepOver_other hx).1.trans (raised_self s now last x).1
            rw [hgo]
            refine and_congr (iff_of_true (fun _ _ => hself) fun _ _ _ _ _ => hreturn) ?_
            refine Iff.trans ?_ ((ih (s := s.raised now x last) hn).trans
              (List.Pairwise.iff_of_mem fun {y z} hy hz => ?_))
            · refine forall₂_congr fun y hy => ?_
              rw [hover y hy, hcalls y hy]
            · rw [hover y hy, hover z hz, hcalls y hy, hcalls z hz]
          · -- nothing more is raised
            have hnone : ∀ y ∈ xs, (s.watcher.overdue now y).isSome →
                s'.watcher.silent y.1 = false := fun y hy hover => by
              obtain ⟨_, hover⟩ := Option.isSome_iff_exists.mp hover
              rw [(hsame y.1 (hne y hy)).1]
              exact (SilenceWatcher.overdue_eq_some.mp hover).1
            rw [hend]
            constructor
            · rintro ⟨-, hD⟩
              have hnot : ∀ y ∈ xs, (s.watcher.overdue now y).isSome →
                  ¬s.callsReturn fates y.1 := fun y hy hover hreturn => by
                have hsilent := hD y hy hover hreturn
                rw [hnone y hy hover] at hsilent
                cases hsilent
              refine ⟨fun y hy _ hover hreturn => absurd hreturn (hnot y hy hover), ?_⟩
              exact List.pairwise_of_forall_mem_list fun y hy z hz _ hover hreturn =>
                absurd hreturn (hnot z hz hover)
            · rintro ⟨hC, -⟩
              refine ⟨fun _ hreturn => absurd hreturn hfail, fun y hy hover hreturn => ?_⟩
              exact absurd (hC y hy rfl hover hreturn) hfail

/-! ### What a reading does, whatever comes of its calls -/

/-- A good reading of a probe that is not recorded silent makes no call. -/
theorem onReading_not_silent {r : SensorReading δ} {sensorType : String} {calls : ReadingFates}
    (hr : r.evaluable.isSome) (hs : s.watcher.silent r.sensorId = false) :
    s.onReading r sensorType now calls = (s.seen r.sensorId sensorType now, true) := by
  obtain ⟨value, hr⟩ := Option.isSome_iff_exists.mp hr
  simp [SilenceWatch.onReading, hr, hs]

/-- What may become of a probe that is recorded silent when it is read: its silence ends; it ends in
the record alone, by a call that reported an error; or nothing is cleared. -/
inductive HeardTo (calls : ReadingFates) (now : ℚ) (s : SilenceWatch δ) (d : δ) :
    SilenceWatch δ × Bool → Prop where
  | cleared {s' : SilenceWatch δ} {e : SilenceEpisode} (hopen : s.episodes d = some e)
      (hle : e.raisedAt ≤ now) (hfate : calls.clear = .succeeds)
      (hsilent : s'.watcher.silent = Function.update s.watcher.silent d false)
      (hepisodes : s'.episodes = Function.update s.episodes d none) :
      HeardTo calls now s d (s', calls.cadences && calls.publish)
  | adrift {s' : SilenceWatch δ} (hopen : (s.episodes d).isSome) (hfate : calls.clear = .lost)
      (hsilent : s'.watcher.silent = s.watcher.silent)
      (hepisodes : s'.episodes = Function.update s.episodes d none) :
      HeardTo calls now s d (s', false)
  | refused {s' : SilenceWatch δ}
      (hwhy : calls.clear = .succeeds → ∀ e, s.episodes d = some e → now < e.raisedAt)
      (hsilent : s'.watcher.silent = s.watcher.silent) (hepisodes : s'.episodes = s.episodes) :
      HeardTo calls now s d (s', false)

/-- **A good reading** of a probe that is recorded silent does one of three things. -/
theorem onReading_heardTo {r : SensorReading δ} {calls : ReadingFates} (sensorType : String)
    (hr : r.evaluable.isSome) (hs : s.watcher.silent r.sensorId = true) :
    HeardTo calls now s r.sensorId (s.onReading r sensorType now calls) := by
  obtain ⟨value, hr⟩ := Option.isSome_iff_exists.mp hr
  simp only [SilenceWatch.onReading, hr, hs, Option.isNone_some, Bool.false_eq_true, if_false,
    Bool.not_true]
  cases hc : (s.seen r.sensorId sensorType now).clearSilence r.sensorId now with
  | none =>
      have hwhy : ∀ e, s.episodes r.sensorId = some e → now < e.raisedAt := fun e he => by
        by_contra hle
        simp [SilenceWatch.clearSilence, SilenceWatch.seen, he, not_lt.mp hle] at hc
      cases hf : calls.clear <;> exact .refused (fun _ => hwhy) rfl rfl
  | some w =>
      obtain ⟨e, he, hle, rfl⟩ := clearSilence_eq_some.mp hc
      have he : s.episodes r.sensorId = some e := he
      cases hf : calls.clear with
      | fails => exact .refused (by simp [hf]) rfl rfl
      | lost => exact .adrift (by simp [he]) hf rfl rfl
      | succeeds =>
          simp only [CallFate.of]
          set marked := SilenceWatch.mark _ r.sensorId false with hmarked
          have hresult : ∃ s', (if calls.cadences = true then
              marked.emit (s.cleared r.sensorId sensorType now) calls.publish
              else (marked, false)) = (s', calls.cadences && calls.publish) ∧
              s'.watcher = marked.watcher ∧ s'.episodes = marked.episodes := by
            cases calls.cadences <;> cases calls.publish <;>
              simp [SilenceWatch.emit, cleared_accepted]
          obtain ⟨s', heq, hwatcher, hepisodes⟩ := hresult
          rw [heq]
          exact .cleared he hle hf (by rw [hwatcher]; rfl) (by rw [hepisodes]; rfl)

/-- **The memory follows the record** over a reading of which no clear is lost. -/
theorem onReading_mirrors (r : SensorReading δ) (sensorType : String) {calls : ReadingFates}
    (hclear : calls.clear ≠ .lost) (hm : ∀ d, s.watcher.silent d = (s.episodes d).isSome) (d : δ) :
    (s.onReading r sensorType now calls).1.watcher.silent d =
      ((s.onReading r sensorType now calls).1.episodes d).isSome := by
  cases hr : r.evaluable with
  | none => simpa [SilenceWatch.onReading, hr] using hm d
  | some value =>
      have hgood : r.evaluable.isSome := by simp [hr]
      cases hs : s.watcher.silent r.sensorId with
      | false =>
          rw [onReading_not_silent hgood hs]
          exact hm d
      | true =>
          have hheard : HeardTo calls now s r.sensorId (s.onReading r sensorType now calls) :=
            onReading_heardTo sensorType hgood hs
          generalize s.onReading r sensorType now calls = result at hheard ⊢
          cases hheard with
          | cleared hopen hle hfate hsilent hepisodes =>
              by_cases hd : d = r.sensorId
              · simp [hsilent, hepisodes, hd]
              · simpa [hsilent, hepisodes, hd] using hm d
          | adrift hopen hfate hsilent hepisodes => exact absurd hfate hclear
          | refused hwhy hsilent hepisodes => simpa [hsilent, hepisodes] using hm d

/-! ### Every run -/

/-- The memory and the record agree of a probe but where they have been put apart. -/
def Apart (p : Alerting δ × (δ → Bool)) : Prop :=
  ∀ d, p.2 d = false ↔ p.1.watch.watcher.silent d = (p.1.watch.episodes d).isSome

variable {refreshS : ℚ} {w w' : Alerting δ} {f : δ → Bool}

/-- **Step.**  What a sweep puts apart is noted. -/
theorem apart_sweep (h : Apart (w, f)) (now : ℚ) (fates : SweepFates δ) :
    Apart ({ w with watch := (w.watch.sweep now fates).1 },
      w.note (.sweep now fates) { w with watch := (w.watch.sweep now fates).1 } f) := by
  intro d
  have hd : f d = false ↔ w.watch.watcher.silent d = (w.watch.episodes d).isSome := h d
  have hswept : SweptTo (fates.raise d) w.watch (w.watch.sweep now fates).1 d := by
    rw [SilenceWatch.sweep]
    split
    · exact sweepOver_sweptTo w.watch.cadences.nodup d
    · exact .same rfl rfl
  simp only [Alerting.note]
  cases hswept with
  | same hsilent hepisode => simpa [hsilent, hepisode] using hd
  | raised hfate hnot hnone hsilent hepisode =>
      have hf : f d = false := hd.mpr (by simp [hnot, hnone])
      simp [hf, hfate, hsilent, hepisode]
  | adrift hfate hnot hnone hsilent hepisode =>
      have hne : (w.watch.sweep now fates).1.episodes d ≠ none := Option.isSome_iff_ne_none.mp hepisode
      simp [hfate, hnone, hne, hsilent, hepisode]

/-- **Step.**  So is what a reading puts apart. -/
theorem apart_reading (h : Apart (w, f)) (r : SensorReading δ) (sensorType : String)
    (calls : ReadingCalls) :
    Apart (w.onReading refreshS r sensorType calls,
      w.note (.reading r sensorType calls) (w.onReading refreshS r sensorType calls) f) := by
  intro d
  have hd : f d = false ↔ w.watch.watcher.silent d = (w.watch.episodes d).isSome := h d
  simp only [Alerting.note, Alerting.onReading_watch]
  cases hr : r.evaluable with
  | none => simpa [SilenceWatch.onReading, hr] using hd
  | some value =>
      have hgood : r.evaluable.isSome := by simp [hr]
      cases hs : w.watch.watcher.silent r.sensorId with
      | false =>
          rw [onReading_not_silent hgood hs]
          simpa [SilenceWatch.seen] using hd
      | true =>
          have hheard : HeardTo calls.silence calls.heardAt w.watch r.sensorId
            (w.watch.onReading r sensorType calls.heardAt calls.silence) :=
            onReading_heardTo sensorType hgood hs
          generalize w.watch.onReading r sensorType calls.heardAt calls.silence = result at hheard ⊢
          by_cases hid : d = r.sensorId
          · subst hid
            cases hheard with
            | cleared hopen hle hfate hsilent hepisodes =>
                have hf : f r.sensorId = false := hd.mpr (by simp [hs, hopen])
                simp [hf, hfate, hsilent, hepisodes]
            | adrift hopen hfate hsilent hepisodes =>
                have hne : w.watch.episodes r.sensorId ≠ none := Option.isSome_iff_ne_none.mp hopen
                simp [hfate, hsilent, hepisodes, hs, hne.symm]
            | refused hwhy hsilent hepisodes => simpa [hsilent, hepisodes] using hd
          · -- the probes that are not read
            cases hheard with
            | cleared hopen hle hfate hsilent hepisodes =>
                simpa [hsilent, hepisodes, hid] using hd
            | adrift hopen hfate hsilent hepisodes => simpa [hsilent, hepisodes, hid] using hd
            | refused hwhy hsilent hepisodes => simpa [hsilent, hepisodes] using hd

/-- **Every step** keeps account of what has been put apart. -/
theorem apart_step {a : AlertingAction δ} (h : Apart (w, f))
    (hs : (alerting δ refreshS).step w a = some w') : Apart (w', w.note a w' f) := by
  cases a with
  | declare cadences =>
      obtain rfl := Option.some.inj hs
      exact h
  | setThresholds d band now =>
      simp only [alerting, Alerting.step] at hs
      split at hs
      · obtain rfl := Option.some.inj hs
        exact h
      · cases hs
  | start now monotonic =>
      obtain rfl := Option.some.inj hs
      exact fun d => iff_of_true rfl rfl
  | sweep now fates =>
      obtain rfl := Option.some.inj hs
      exact apart_sweep h now fates
  | reading r sensorType calls =>
      obtain rfl := Option.some.inj hs
      exact apart_reading h r sensorType calls

/-- A good reading whose calls return ends the silence of its probe, unless the memory and the record
are apart or the silence was raised by a later clock. -/
theorem reading_iff (h : Apart (w, f)) {r : SensorReading δ} (sensorType : String)
    {calls : ReadingCalls} (hgood : r.evaluable.isSome) (hcalls : calls.returns) :
    EndsSilence w (w.onReading refreshS r sensorType calls) r ↔
      f r.sensorId = false ∧ ∀ e, w.watch.episodes r.sensorId = some e → e.raisedAt ≤ calls.heardAt := by
  obtain ⟨hcalm, hb, hres⟩ := hcalls
  have hd : f r.sensorId = false ↔
    w.watch.watcher.silent r.sensorId = (w.watch.episodes r.sensorId).isSome := h r.sensorId
  -- what is heard is evaluated
  have hjudged : (w.watch.onReading r sensorType calls.heardAt calls.silence).2 = true →
      (w.onReading refreshS r sensorType calls).watch.watcher.silent r.sensorId = false →
      ∀ t, (w.onReading refreshS r sensorType calls).thresholds r.sensorId = some t →
        t.configured = true →
        (w.onReading refreshS r sensorType calls).judged = w.judged ++ [(r, t)] :=
    fun hw hs t ht hc => Alerting.onReading_judged hw hb hres hgood hs ht hc
  simp only [EndsSilence, Alerting.onReading_watch] at hjudged ⊢
  cases hs : w.watch.watcher.silent r.sensorId with
  | false =>
      rw [onReading_not_silent hgood hs] at hjudged ⊢
      have hseen : (w.watch.seen r.sensorId sensorType calls.heardAt).watcher.silent r.sensorId = false :=
        hs
      constructor
      · rintro ⟨-, hnone, -⟩
        have hnone : w.watch.episodes r.sensorId = none := hnone
        exact ⟨hd.mpr (by simp [hs, hnone]), by simp [hnone]⟩
      · rintro ⟨hf, -⟩
        have hnone : w.watch.episodes r.sensorId = none := by simpa [hs] using (hd.mp hf).symm
        exact ⟨hseen, hnone, hjudged rfl hseen⟩
  | true =>
      have hheard : HeardTo calls.silence calls.heardAt w.watch r.sensorId
        (w.watch.onReading r sensorType calls.heardAt calls.silence) :=
        onReading_heardTo sensorType hgood hs
      generalize w.watch.onReading r sensorType calls.heardAt calls.silence = result at hheard hjudged ⊢
      cases hheard with
      | cleared hopen hle hfate hsilent hepisodes =>
          refine iff_of_true ⟨by simp [hsilent], by simp [hepisodes], ?_⟩ ⟨hd.mpr ?_, ?_⟩
          · exact hjudged (by rw [hcalm]; rfl) (by simp [hsilent])
          · simp [hs, hopen]
          · simpa [hopen] using hle
      | adrift hopen hfate hsilent hepisodes =>
          rw [hcalm] at hfate
          cases hfate
      | refused hwhy hsilent hepisodes =>
          refine iff_of_false (fun hD => ?_) fun hC => ?_
          · simp [hsilent, hs] at hD
          · obtain ⟨e, he⟩ := Option.isSome_iff_exists.mp ((hd.mp hC.1).symm.trans hs)
            exact absurd (hC.2 e he) (not_le.mpr (hwhy (by rw [hcalm]; rfl) e he))

/-- **A step contains its faults** exactly if it is unbroken. -/
theorem contained_iff {a : AlertingAction δ} (h : Apart (w, f))
    (hs : (alerting δ refreshS).step w a = some w') :
    Unbroken (w, f) a ↔ FaultsContained refreshS (w, f) a := by
  rw [FaultsContained, Machine.forall_step hs]
  cases a with
  | declare cadences => exact Iff.rfl
  | setThresholds d band now => exact Iff.rfl
  | start now monotonic => exact Iff.rfl
  | reading r sensorType calls =>
      obtain rfl := Option.some.inj hs
      exact forall₂_congr fun hgood hcalls => (reading_iff h sensorType hgood hcalls).symm
  | sweep now fates =>
      obtain rfl := Option.some.inj hs
      refine forall_congr' fun hread => ?_
      have hsweep : w.watch.sweep now fates = sweepOver now fates w.watch.cadences.rows w.watch :=
        if_pos hread
      rw [← sweepOver_raises w.watch.cadences.nodup, hsweep]
      refine forall₄_congr fun x _ hover _ => ?_
      obtain ⟨last, hover⟩ := Option.isSome_iff_exists.mp hover
      have hswept : SweptTo (fates.raise x.1) w.watch
        (sweepOver now fates w.watch.cadences.rows w.watch).1 x.1 :=
        sweepOver_sweptTo w.watch.cadences.nodup x.1
      have hnot := (SilenceWatcher.overdue_eq_some.mp hover).1
      exact ⟨fun hsilent => ⟨hsilent, hswept.mirrors hsilent hnot⟩, And.left⟩

/-- **Silence faults**, from a start over any record: every sweep raises what its own calls allow, and
every good reading whose calls return ends the silence of its probe and is evaluated, exactly in the
runs whose every step is unbroken. -/
theorem faults_contained_iff (refreshS : ℚ) (cadences : Cadences δ)
    (silences : δ → Option SilenceEpisode) (bands : δ → Option Thresholds)
    (episodes : δ → AlertBound → Option ℚ) (now monotonic : ℚ) {as : List (AlertingAction δ)}
    {q : Alerting δ × (δ → Bool)} :
    ((alerting δ refreshS).ghost Alerting.note).RunIf (FaultsContained refreshS)
        ((Alerting.stopped cadences silences bands episodes).start now monotonic, fun _ => false)
        as q ↔
      ((alerting δ refreshS).ghost Alerting.note).RunIf Unbroken
        ((Alerting.stopped cadences silences bands episodes).start now monotonic, fun _ => false)
        as q := by
  have hstart : Apart ((Alerting.stopped cadences silences bands episodes).start now monotonic,
      fun _ => false) := fun d => iff_of_true rfl rfl
  refine (Machine.RunIf.congr hstart ?_ ?_).symm
  · exact Machine.ghost_preserves fun s f a s' _ hI hs => apart_step hI hs
  · rintro ⟨s, f⟩ a q hI hs
    exact contained_iff hI (Machine.ghost_step.mp hs).1

/-- Two probes, every ten seconds; nothing is open, and the engine has started at 0. -/
def twoProbes : Alerting Bool :=
  (Alerting.stopped ⟨[(false, 10), (true, 10)], by decide⟩ (fun _ => none) (fun _ => none)
    fun _ _ => none).start 0 0

/-- The first raise commits, and reports an error. -/
def firstLost : SweepFates Bool :=
  ⟨true, fun d => if d then .succeeds else .lost, fun _ => true⟩

/-- All calls return. -/
def calmAt (now : ℚ) : ReadingCalls :=
  ⟨now, .calm, now, true, true, fun _ => now, fun _ => .succeeds, fun _ => true⟩

/-- The second probe is not raised by the sweep, and the first one's silence outlasts its next good
reading. -/
theorem not_faults_contained :
    ¬FaultsContained 60 (twoProbes, fun _ => false) (.sweep 100 firstLost) ∧
      ∃ p, ((alerting Bool 60).ghost Alerting.note).Run (twoProbes, fun _ => false)
        [.sweep 100 firstLost] p ∧ ¬FaultsContained 60 p
          (.reading ⟨false, some 25, .ok, by simp⟩ "ds18b20" (calmAt 200)) := by
  constructor
  · intro h
    have hnot : (twoProbes.watch.sweep 100 firstLost).1.watcher.silent true = false := by
      decide +kernel
    have hover : (twoProbes.watch.watcher.overdue 100 (true, 10)).isSome := by decide +kernel
    have hsilent := (h _ rfl rfl (true, 10) (by decide) hover ⟨rfl, rfl, rfl⟩).1
    rw [hnot] at hsilent
    cases hsilent
  · have hopen : ((twoProbes.watch.sweep 100 firstLost).1.onReading ⟨false, some 25, .ok, by simp⟩
        "ds18b20" 200 .calm).1.episodes false = some ⟨"unknown", 100, some 0⟩ := by decide +kernel
    refine ⟨_, .one trivial rfl, fun h => ?_⟩
    have hnone := (h _ rfl rfl ⟨rfl, rfl, rfl⟩).2.1
    rw [Alerting.onReading_watch] at hnone
    exact absurd (hopen.symm.trans hnone) (by simp)

end BellasReef.ControlEngine
