import BellasReef.ControlEngine.SilenceMessages

/-!
# ControlEngine — Silence tasks

`SilenceWatcher.sweep` on the main loop beside `SilenceWatcher.on_reading` on the subscription's
task.  Each runs to its next await: a call of the store, which commits and only then returns, or a
message.  There is one of each at most at a time.

* `silent_iff_open`: when neither is running, the memory and the record agree.
* `live_not_silent`: and no live probe is silent, if none is read while it is being raised.
-/

namespace BellasReef.ControlEngine
open BellasReef.Support

variable {δ : Type}

/-- Where the sweep is, its clock having been read: what it awaits, and what is left of its loop. -/
inductive SweepStage (δ : Type) where
  | idle
  | cadences (now : ℚ)
  /-- `raise_silence`, before it has committed and after, with what there is to say then. -/
  | raising (now : ℚ) (x : δ × ℚ) (m : SensorSilence δ) (rest : List (δ × ℚ))
  | raised (now : ℚ) (x : δ × ℚ) (m : SensorSilence δ) (rest : List (δ × ℚ))
  | publishing (now : ℚ) (m : SensorSilence δ) (rest : List (δ × ℚ))
  deriving DecidableEq

/-- Where the reading is. -/
inductive HearStage (δ : Type) where
  | idle
  /-- `clear_silence`, before it has committed and after. -/
  | clearing (d : δ) (sensorType : String) (now : ℚ)
  | cleared (d : δ) (sensorType : String) (now : ℚ)
  | cadences (d : δ) (sensorType : String) (now : ℚ)
  | publishing (m : SensorSilence δ)
  deriving DecidableEq

/-- The watcher with its two tasks, and the latest time that the clock has told. -/
structure SilenceTasks (δ : Type) where
  watch : SilenceWatch δ
  now : ℚ
  sweeping : SweepStage δ
  hearing : HearStage δ

/-- A sweep or a reading begins or goes on, or a call of one ends. -/
inductive TaskAction (δ : Type) where
  /-- A sweep begins. -/
  | sweep (now : ℚ)
  /-- A reading comes in. -/
  | reading (r : SensorReading δ) (sensorType : String) (now : ℚ)
  /-- What the sweep awaits is done, and it runs on; so with the reading. -/
  | goSweep
  | goReading

/-- The next of the probes that is overdue, by what the watcher knows now, and the rest. -/
def SilenceWatcher.nextOverdue (w : SilenceWatcher δ) (now : ℚ) :
    List (δ × ℚ) → Option ((δ × ℚ) × ℚ × List (δ × ℚ))
  | [] => none
  | x :: xs =>
      match w.overdue now x with
      | some last => some (x, last, xs)
      | none => w.nextOverdue now xs

section Steps
variable [DecidableEq δ]

omit [DecidableEq δ] in
/-- The sweep goes through its loop up to its next call. -/
def SilenceTasks.loop (s : SilenceTasks δ) (now : ℚ) (xs : List (δ × ℚ)) : SilenceTasks δ :=
  match s.watch.watcher.nextOverdue now xs with
  | some (x, last, rest) =>
      { s with sweeping := .raising now x (s.watch.watcher.breach now x last) rest }
  | none => { s with sweeping := .idle }

/-- The sweep goes on to its next await. -/
def SilenceTasks.goSweep (s : SilenceTasks δ) : Option (SilenceTasks δ) :=
  match s.sweeping with
  | .idle => none
  | .cadences now => some (s.loop now s.watch.cadences.rows)
  | .raising now x m rest =>
      match s.watch.raiseSilence x.1 ⟨m.sensorType, now, m.lastReadingAt⟩ with
      | some w => some { s with watch := w, sweeping := .raised now x m rest }
      | none => some { s with sweeping := .idle }  -- it raises, and so does the sweep
  | .raised now x m rest =>
      some { s with watch := s.watch.mark x.1 true, sweeping := .publishing now m rest }
  | .publishing now m rest =>
      match s.watch.emit m true with
      | (w, true) => some (SilenceTasks.loop { s with watch := w } now rest)
      | (w, false) => some { s with watch := w, sweeping := .idle }

/-- The reading goes on to its next await. -/
def SilenceTasks.goReading (s : SilenceTasks δ) : Option (SilenceTasks δ) :=
  match s.hearing with
  | .idle => none
  | .clearing d sensorType now =>
      match s.watch.clearSilence d now with
      | some w => some { s with watch := w, hearing := .cleared d sensorType now }
      | none => some { s with hearing := .idle }  -- it raises, and the reading is dropped
  | .cleared d sensorType now =>
      some { s with watch := s.watch.mark d false, hearing := .cadences d sensorType now }
  | .cadences d sensorType now =>
      some { s with hearing := .publishing (s.watch.cleared d sensorType now) }
  | .publishing m => some { s with watch := (s.watch.emit m true).1, hearing := .idle }

/-- `on_reading`, up to its first call if it makes one. -/
def SilenceTasks.hear (s : SilenceTasks δ) (r : SensorReading δ) (sensorType : String) (now : ℚ) :
    SilenceTasks δ :=
  if r.evaluable.isNone then { s with now := now }
  else
    { s with
      watch := s.watch.seen r.sensorId sensorType now
      now := now
      hearing :=
        if s.watch.watcher.silent r.sensorId then .clearing r.sensorId sensorType now else .idle }

/-- One step of one of the two tasks. -/
def SilenceTasks.step (s : SilenceTasks δ) : TaskAction δ → Option (SilenceTasks δ)
  | .sweep now =>
      match s.sweeping with
      | .idle => if s.now ≤ now then some { s with now := now, sweeping := .cadences now } else none
      | _ => none
  | .reading r sensorType now =>
      match s.hearing with
      | .idle => if s.now ≤ now then some (s.hear r sensorType now) else none
      | _ => none
  | .goSweep => s.goSweep
  | .goReading => s.goReading

/-- One `SilenceWatcher`, with both tasks. -/
def silenceTasks (δ : Type) [DecidableEq δ] : Machine (SilenceTasks δ) (TaskAction δ) where
  step := SilenceTasks.step

/-- `prime` has returned, over any record. -/
def SilenceTasks.primed (cadences : Cadences δ) (episodes : δ → Option SilenceEpisode) (now : ℚ) :
    SilenceTasks δ :=
  ⟨.primed cadences episodes now, now, .idle, .idle⟩

/-- When the last good reading of each probe came in. -/
def SilenceTasks.note (_ : SilenceTasks δ) (a : TaskAction δ) (_ : SilenceTasks δ)
    (heard : δ → Option ℚ) : δ → Option ℚ :=
  match a with
  | .reading r _ now =>
      if r.evaluable.isSome then Function.update heard r.sensorId (some now) else heard
  | _ => heard

end Steps

/-- Neither task is running. -/
def SilenceTasks.Rests (s : SilenceTasks δ) : Prop := s.sweeping = .idle ∧ s.hearing = .idle

/-- A probe is being raised. -/
def SweepStage.raises : SweepStage δ → δ → Prop
  | .raising _ x _ _, d | .raised _ x _ _, d => x.1 = d
  | _, _ => False

/-- And the record has it already. -/
def SweepStage.wrote : SweepStage δ → δ → Prop
  | .raised _ x _ _, d => x.1 = d
  | _, _ => False

/-- The silence of a probe is being cleared. -/
def HearStage.clears : HearStage δ → δ → Prop
  | .clearing d' _ _, d | .cleared d' _ _, d => d' = d
  | _, _ => False

/-- And the record has it already. -/
def HearStage.wrote : HearStage δ → δ → Prop
  | .cleared d' _ _, d => d' = d
  | _, _ => False

/-- No good reading comes in of a probe that is being raised, nor one that is stamped before the
silence of its probe. -/
def HeardApart (p : SilenceTasks δ × (δ → Option ℚ)) : TaskAction δ → Prop
  | .reading r _ now => r.evaluable.isSome → ¬p.1.sweeping.raises r.sensorId ∧
      ∀ e, p.1.watch.episodes r.sensorId = some e → e.raisedAt ≤ now
  | _ => True

/-! ### The memory and the record -/

/-- The watcher's memory, by the record and by what each task is about. -/
structure TasksInv (s : SilenceTasks δ) : Prop where
  /-- They agree but of what has just been written. -/
  agree : ∀ d, s.watch.watcher.silent d = (s.watch.episodes d).isSome ∨ s.sweeping.wrote d ∨
    s.hearing.wrote d
  raises : ∀ d, s.sweeping.raises d → s.watch.watcher.silent d = false
  raised : ∀ d, s.sweeping.wrote d → (s.watch.episodes d).isSome
  clears : ∀ d, s.hearing.clears d → s.watch.watcher.silent d = true
  cleared : ∀ d, s.hearing.wrote d → s.watch.episodes d = none

section Invariant
variable [DecidableEq δ] {s s' : SilenceTasks δ} {now : ℚ}

omit [DecidableEq δ] in
theorem SweepStage.wrote.raises {stage : SweepStage δ} {d : δ} (h : stage.wrote d) :
    stage.raises d := by
  cases stage <;> first | exact h | exact h.elim

omit [DecidableEq δ] in
theorem HearStage.wrote.clears {stage : HearStage δ} {d : δ} (h : stage.wrote d) :
    stage.clears d := by
  cases stage <;> first | exact h | exact h.elim

/-- A sweep begins where none is running. -/
theorem sweep_step (hs : (silenceTasks δ).step s (.sweep now) = some s') :
    s.sweeping = .idle ∧ s.now ≤ now ∧ s' = { s with now := now, sweeping := .cadences now } := by
  simp only [silenceTasks, SilenceTasks.step] at hs
  split at hs
  · next hidle =>
      obtain ⟨hnow, heq⟩ := Option.ite_none_right_eq_some.mp hs
      exact ⟨hidle, hnow, (Option.some.inj heq).symm⟩
  · cases hs

/-- A reading is taken in where none is being. -/
theorem reading_step {r : SensorReading δ} {sensorType : String}
    (hs : (silenceTasks δ).step s (.reading r sensorType now) = some s') :
    s.hearing = .idle ∧ s.now ≤ now ∧ s' = s.hear r sensorType now := by
  simp only [silenceTasks, SilenceTasks.step] at hs
  split at hs
  · next hidle =>
      obtain ⟨hnow, heq⟩ := Option.ite_none_right_eq_some.mp hs
      exact ⟨hidle, hnow, (Option.some.inj heq).symm⟩
  · cases hs

omit [DecidableEq δ] in
/-- The next of the probes that is overdue is one of them. -/
theorem nextOverdue_eq_some {w : SilenceWatcher δ} {xs rest : List (δ × ℚ)} {x : δ × ℚ} {last : ℚ}
    (h : w.nextOverdue now xs = some (x, last, rest)) :
    w.overdue now x = some last ∧ x ∈ xs ∧ rest ⊆ xs := by
  induction xs with
  | nil => cases h
  | cons y ys ih =>
      rw [SilenceWatcher.nextOverdue] at h
      split at h
      · next last' ho =>
          cases h
          exact ⟨ho, List.mem_cons_self, List.subset_cons_self _ _⟩
      · obtain ⟨ho, hx, hrest⟩ := ih h
        exact ⟨ho, List.mem_cons_of_mem y hx, fun z hz => List.mem_cons_of_mem y (hrest hz)⟩

omit [DecidableEq δ] in
/-- **The loop** stops at a probe that is overdue, or ends; and changes nothing else. -/
theorem loop_cases (s : SilenceTasks δ) (now : ℚ) (xs : List (δ × ℚ)) :
    s.loop now xs = { s with sweeping := .idle } ∨
      ∃ x last rest, s.watch.watcher.overdue now x = some last ∧ x ∈ xs ∧ rest ⊆ xs ∧
        s.loop now xs =
          { s with sweeping := .raising now x (s.watch.watcher.breach now x last) rest } := by
  rw [SilenceTasks.loop]
  split
  · next x last rest h =>
      obtain ⟨ho, hx, hrest⟩ := nextOverdue_eq_some h
      exact .inr ⟨x, last, rest, ho, hx, hrest, rfl⟩
  · exact .inl rfl

omit [DecidableEq δ] in
/-- Where the sweep was does not matter to the loop. -/
theorem loop_idle (s : SilenceTasks δ) (now : ℚ) (xs : List (δ × ℚ)) :
    s.loop now xs = SilenceTasks.loop { s with sweeping := .idle } now xs := by
  simp only [SilenceTasks.loop]

omit [DecidableEq δ] in
/-- A sweep comes to its next row. -/
theorem TasksInv.loop (h : TasksInv s) (hnot : ∀ d, ¬s.sweeping.wrote d) (now : ℚ)
    (xs : List (δ × ℚ)) : TasksInv (s.loop now xs) := by
  obtain ⟨hagree, -, -, hclears, hcleared⟩ := h
  have hagree : ∀ d, s.watch.watcher.silent d = (s.watch.episodes d).isSome ∨ s.hearing.wrote d :=
    fun d => (hagree d).imp_right fun hw => hw.resolve_left (hnot d)
  obtain heq | ⟨x, last, rest, ho, -, -, heq⟩ := loop_cases s now xs
  · rw [heq]
    exact ⟨fun d => (hagree d).imp_right .inr, fun _ => False.elim, fun _ => False.elim, hclears,
      hcleared⟩
  · rw [heq]
    refine ⟨fun d => (hagree d).imp_right .inr, ?_, fun _ => False.elim, hclears, hcleared⟩
    rintro d rfl
    exact (SilenceWatcher.overdue_eq_some.mp ho).1

/-- **Step.**  The sweep goes on. -/
theorem TasksInv.goSweep (h : TasksInv s) (hs : s.goSweep = some s') : TasksInv s' := by
  rw [SilenceTasks.goSweep] at hs
  split at hs
  · cases hs
  · next now hstage =>
      obtain rfl := Option.some.inj hs
      exact h.loop (fun d hw => by rw [hstage] at hw; exact hw) now _
  · next now x m rest hstage =>
      obtain ⟨hagree, hraises, -, hclears, hcleared⟩ := h
      have hagree : ∀ d, s.watch.watcher.silent d = (s.watch.episodes d).isSome ∨
          s.hearing.wrote d := fun d => (hagree d).imp_right fun hw =>
        hw.resolve_left (by rw [hstage]; exact id)
      have hx : s.watch.watcher.silent x.1 = false := hraises x.1 (by rw [hstage]; rfl)
      have hapart : ¬s.hearing.clears x.1 := fun hc => by simpa [hx] using hclears x.1 hc
      split at hs
      · next w hraise =>
          obtain rfl := Option.some.inj hs
          obtain ⟨-, rfl⟩ := raiseSilence_eq_some.mp hraise
          refine ⟨fun d => ?_, ?_, ?_, hclears, fun d hw => ?_⟩
          · by_cases hd : d = x.1
            · exact .inr (.inl hd.symm)
            · simpa [hd] using (hagree d).imp_right .inr
          · rintro d rfl
            exact hx
          · rintro d rfl
            simp
          · have hd : d ≠ x.1 := fun hd => hapart (hd ▸ hw.clears)
            simpa [hd] using hcleared d hw
      · obtain rfl := Option.some.inj hs
        exact ⟨fun d => (hagree d).imp_right .inr, fun _ => False.elim, fun _ => False.elim, hclears,
          hcleared⟩
  · next now x m rest hstage =>
      obtain ⟨hagree, hraises, hraised, hclears, hcleared⟩ := h
      obtain rfl := Option.some.inj hs
      have hopen : (s.watch.episodes x.1).isSome := hraised x.1 (by rw [hstage]; rfl)
      have hx : s.watch.watcher.silent x.1 = false := hraises x.1 (by rw [hstage]; rfl)
      refine ⟨fun d => ?_, fun _ => False.elim, fun _ => False.elim, fun d hc => ?_, hcleared⟩
      · by_cases hd : d = x.1
        · subst hd
          exact .inl (by simp [SilenceWatch.mark, hopen])
        · obtain hsame | hw | hw := hagree d
          · exact .inl (by simpa [SilenceWatch.mark, hd] using hsame)
          · rw [hstage] at hw
            exact absurd hw.symm hd
          · exact .inr (.inr hw)
      · have hd : d ≠ x.1 := by
          rintro rfl
          simpa [hx] using hclears _ hc
        simpa [SilenceWatch.mark, hd] using hclears d hc
  · next now m rest hstage =>
      obtain ⟨hagree, -, -, hclears, hcleared⟩ := h
      obtain ⟨hwatcher, hepisodes, -⟩ := emit_fields s.watch m true
      generalize s.watch.emit m true = result at hs hwatcher hepisodes
      obtain ⟨w, returned⟩ := result
      have hwatcher : w.watcher = s.watch.watcher := hwatcher
      have hepisodes : w.episodes = s.watch.episodes := hepisodes
      have hafter : ∀ stage : SweepStage δ, (∀ d, ¬stage.raises d) →
          TasksInv { s with watch := w, sweeping := stage } := by
        intro stage hnot
        refine ⟨fun d => ?_, fun d hr => absurd hr (hnot d), fun d hw => absurd hw.raises (hnot d),
          fun d hc => ?_, fun d hw => ?_⟩
        · simp only [hwatcher, hepisodes]
          refine (hagree d).imp_right fun hw => .inr (hw.resolve_left ?_)
          rw [hstage]
          exact id
        · simpa [hwatcher] using hclears d hc
        · simpa [hepisodes] using hcleared d hw
      cases returned with
      | false =>
          obtain rfl := Option.some.inj hs
          exact hafter .idle fun _ => id
      | true =>
          obtain rfl := Option.some.inj hs
          rw [loop_idle]
          exact (hafter .idle fun _ => id).loop (fun _ => id) now rest

/-- **Step.**  The reading goes on. -/
theorem TasksInv.goReading (h : TasksInv s) (hs : s.goReading = some s') : TasksInv s' := by
  obtain ⟨hagree, hraises, hraised, hclears, hcleared⟩ := h
  rw [SilenceTasks.goReading] at hs
  split at hs
  · cases hs
  · next d sensorType now hstage =>
      have hagree : ∀ d', s.watch.watcher.silent d' = (s.watch.episodes d').isSome ∨
          s.sweeping.wrote d' := fun d' => (hagree d').imp_right fun hw =>
        hw.resolve_right (by rw [hstage]; exact id)
      have hd : s.watch.watcher.silent d = true := hclears d (by rw [hstage]; rfl)
      split at hs
      · next w hclear =>
          obtain rfl := Option.some.inj hs
          obtain ⟨e, -, -, rfl⟩ := clearSilence_eq_some.mp hclear
          refine ⟨fun d' => ?_, hraises, fun d' hw => ?_, ?_, ?_⟩
          · by_cases hd' : d' = d
            · exact .inr (.inr hd'.symm)
            · simpa [hd'] using (hagree d').imp_right .inl
          · have hd' : d' ≠ d := by
              rintro rfl
              simpa [hd] using hraises _ hw.raises
            simpa [hd'] using hraised d' hw
          · rintro d' rfl
            exact hd
          · rintro d' rfl
            simp
      · obtain rfl := Option.some.inj hs
        exact ⟨fun d' => (hagree d').imp_right .inl, hraises, hraised, fun _ => False.elim,
          fun _ => False.elim⟩
  · next d sensorType now hstage =>
      obtain rfl := Option.some.inj hs
      have hd : s.watch.watcher.silent d = true := hclears d (by rw [hstage]; rfl)
      have hnone : s.watch.episodes d = none := hcleared d (by rw [hstage]; rfl)
      refine ⟨fun d' => ?_, fun d' hr => ?_, hraised, fun _ => False.elim, fun _ => False.elim⟩
      · by_cases hd' : d' = d
        · subst hd'
          exact .inl (by simp [SilenceWatch.mark, hnone])
        · obtain hsame | hw | hw := hagree d'
          · exact .inl (by simpa [SilenceWatch.mark, hd'] using hsame)
          · exact .inr (.inl hw)
          · rw [hstage] at hw
            exact absurd hw.symm hd'
      · have hd' : d' ≠ d := by
          rintro rfl
          simpa [hd] using hraises _ hr
        simpa [SilenceWatch.mark, hd'] using hraises d' hr
  · next d sensorType now hstage =>
      obtain rfl := Option.some.inj hs
      refine ⟨fun d' => (hagree d').imp_right ?_, hraises, hraised, fun _ => False.elim,
        fun _ => False.elim⟩
      exact fun hw => .inl (hw.resolve_right (by rw [hstage]; exact id))
  · next m hstage =>
      obtain rfl := Option.some.inj hs
      obtain ⟨hwatcher, hepisodes, -⟩ := emit_fields s.watch m true
      refine ⟨fun d' => ?_, fun d' hr => ?_, fun d' hw => ?_, fun _ => False.elim,
        fun _ => False.elim⟩
      · simp only [hwatcher, hepisodes]
        exact (hagree d').imp_right fun hw => .inl (hw.resolve_right (by rw [hstage]; exact id))
      · simpa [hwatcher] using hraises d' hr
      · simpa [hepisodes] using hraised d' hw

/-- **Step.**  A reading comes in. -/
theorem TasksInv.hear (h : TasksInv s) (hidle : s.hearing = .idle) (r : SensorReading δ)
    (sensorType : String) (now : ℚ) : TasksInv (s.hear r sensorType now) := by
  obtain ⟨hagree, hraises, hraised, hclears, hcleared⟩ := h
  have hagree : ∀ d, s.watch.watcher.silent d = (s.watch.episodes d).isSome ∨
      s.sweeping.wrote d := fun d => (hagree d).imp_right fun hw =>
    hw.resolve_right (by rw [hidle]; exact id)
  rw [SilenceTasks.hear]
  split
  · exact ⟨fun d => (hagree d).imp_right .inl, hraises, hraised, hclears, hcleared⟩
  · refine ⟨fun d => (hagree d).imp_right .inl, hraises, hraised, fun d hc => ?_, fun d hw => ?_⟩
    · simp only at hc
      split at hc
      · next hsilent =>
          obtain rfl : r.sensorId = d := hc
          exact hsilent
      · exact hc.elim
    · simp only at hw
      split at hw <;> exact hw.elim

/-- **Every step** of either task keeps the memory. -/
theorem tasksInv_step {a : TaskAction δ} (h : TasksInv s)
    (hs : (silenceTasks δ).step s a = some s') : TasksInv s' := by
  cases a with
  | sweep now =>
      obtain ⟨hidle, -, rfl⟩ := sweep_step hs
      obtain ⟨hagree, -, -, hclears, hcleared⟩ := h
      refine ⟨fun d => (hagree d).imp_right ?_, fun _ => False.elim, fun _ => False.elim, hclears,
        hcleared⟩
      exact fun hw => .inr (hw.resolve_left (by rw [hidle]; exact id))
  | reading r sensorType now =>
      obtain ⟨hidle, -, rfl⟩ := reading_step hs
      exact h.hear hidle r sensorType now
  | goSweep => exact h.goSweep hs
  | goReading => exact h.goReading hs

omit [DecidableEq δ] in
/-- **At rest** the memory is what the record says. -/
theorem TasksInv.silent_iff_open (h : TasksInv s) (hrest : s.Rests) (d : δ) :
    s.watch.watcher.silent d = true ↔ (s.watch.episodes d).isSome := by
  obtain hsame | hw | hw := h.agree d
  · rw [hsame]
  · rw [hrest.1] at hw
    exact hw.elim
  · rw [hrest.2] at hw
    exact hw.elim

end Invariant

/-! ### Who is live -/

/-- The clock of the sweep, the probe that it raises, and what is left of its loop. -/
def SweepStage.clock : SweepStage δ → Option ℚ
  | .idle => none
  | .cadences now | .raising now _ _ _ | .raised now _ _ _ | .publishing now _ _ => some now

/-- The row that the sweep is at. -/
def SweepStage.row : SweepStage δ → Option (δ × ℚ)
  | .raising _ x _ _ | .raised _ x _ _ => some x
  | _ => none

/-- The rows that it has still to come to. -/
def SweepStage.rest : SweepStage δ → List (δ × ℚ)
  | .raising _ _ _ rest | .raised _ _ _ rest | .publishing _ _ rest => rest
  | _ => []

/-- The last good reading of the probe is a deadline ago. -/
def Late (p : SilenceTasks δ × (δ → Option ℚ)) (x : δ × ℚ) : Prop :=
  ∀ heard, p.2 x.1 = some heard → heard + silenceDeadlineS x.2 ≤ p.1.now

/-- The probes that are silent are late, or are being cleared. -/
structure LiveInv (p : SilenceTasks δ × (δ → Option ℚ)) : Prop where
  stamps : ∀ d heard, p.2 d = some heard → p.1.watch.watcher.lastSeen d = some heard
  clock : ∀ now, p.1.sweeping.clock = some now → now ≤ p.1.now
  rest : p.1.sweeping.rest ⊆ p.1.watch.cadences.rows
  due : ∀ x, p.1.sweeping.row = some x → x ∈ p.1.watch.cadences.rows ∧ Late p x
  late : ∀ x ∈ p.1.watch.cadences.rows, p.1.watch.watcher.silent x.1 = true →
    p.1.hearing.clears x.1 ∨ Late p x
  takes : ∀ d sensorType now, p.1.hearing = .clearing d sensorType now →
    ∀ e, p.1.watch.episodes d = some e → e.raisedAt ≤ now

section Live
variable [DecidableEq δ] {s s' : SilenceTasks δ} {heard : δ → Option ℚ} {now : ℚ}

omit [DecidableEq δ] in
/-- A sweep comes to a row that is late, or to its end. -/
theorem LiveInv.loop (h : LiveInv (s, heard)) {xs : List (δ × ℚ)} (hxs : xs ⊆ s.watch.cadences.rows)
    (hnow : now ≤ s.now) : LiveInv (s.loop now xs, heard) := by
  obtain ⟨hstamps, -, -, -, hlate, htakes⟩ := h
  obtain heq | ⟨x, last, rest, ho, hx, hrest, heq⟩ := loop_cases s now xs
  · rw [heq]
    exact ⟨hstamps, by rintro _ ⟨⟩, by simp [SweepStage.rest], by rintro _ ⟨⟩, hlate, htakes⟩
  · rw [heq]
    obtain ⟨-, hlast, hover⟩ := SilenceWatcher.overdue_eq_some.mp ho
    refine ⟨hstamps, ?_, fun y hy => hxs (hrest hy), ?_, hlate, htakes⟩
    · rintro _ ⟨⟩
      exact hnow
    · rintro _ ⟨⟩
      refine ⟨hxs hx, fun t ht => ?_⟩
      -- the stamp that it goes by is that of the last good reading
      have hsame := (hstamps x.1 t ht).symm.trans hlast
      obtain rfl : t = last := Option.some.inj hsame
      change t + silenceDeadlineS x.2 ≤ s.now
      linarith

/-- **Step.**  A sweep that goes on raises nobody who is not late. -/
theorem LiveInv.goSweep (h : LiveInv (s, heard)) (htasks : TasksInv s)
    (hs : s.goSweep = some s') : LiveInv (s', heard) := by
  rw [SilenceTasks.goSweep] at hs
  split at hs
  · cases hs
  · next now hstage =>
      obtain rfl := Option.some.inj hs
      exact h.loop (fun _ hx => hx) (h.clock now (by rw [hstage]; rfl))
  · next now x m rest hstage =>
      obtain ⟨hstamps, hclock, hrest, hdue, hlate, htakes⟩ := h
      split at hs
      · next w hraise =>
          obtain rfl := Option.some.inj hs
          obtain ⟨hnone, rfl⟩ := raiseSilence_eq_some.mp hraise
          rw [hstage] at hclock hrest hdue
          refine ⟨hstamps, hclock, hrest, hdue, hlate, fun d sensorType now hc e he => ?_⟩
          -- the probe that is being cleared is another
          have hx : s.watch.watcher.silent x.1 = false := htasks.raises x.1 (by rw [hstage]; rfl)
          have hd : d ≠ x.1 := by
            rintro rfl
            have hc : s.hearing = .clearing x.1 sensorType now := hc
            simpa [hx] using htasks.clears x.1 (by rw [hc]; rfl)
          exact htakes d sensorType now hc e (by simpa [hd] using he)
      · obtain rfl := Option.some.inj hs
        exact ⟨hstamps, by rintro _ ⟨⟩, by simp [SweepStage.rest], by rintro _ ⟨⟩, hlate, htakes⟩
  · next now x m rest hstage =>
      obtain ⟨hstamps, hclock, hrest, hdue, hlate, htakes⟩ := h
      obtain rfl := Option.some.inj hs
      rw [hstage] at hclock hrest hdue
      obtain ⟨hx, hxlate⟩ := hdue x rfl
      refine ⟨hstamps, hclock, hrest, by rintro _ ⟨⟩, fun y hy hsilent => ?_, htakes⟩
      by_cases hyx : y.1 = x.1
      · obtain rfl := s.watch.cadences.eq_of_key hy hx hyx
        exact .inr hxlate
      · exact hlate y hy (by simpa [SilenceWatch.mark, hyx] using hsilent)
  · next now m rest hstage =>
      obtain ⟨hwatcher, hepisodes, hcadences⟩ := emit_fields s.watch m true
      generalize s.watch.emit m true = result at hs hwatcher hepisodes hcadences
      obtain ⟨w, returned⟩ := result
      have hwatcher : w.watcher = s.watch.watcher := hwatcher
      have hepisodes : w.episodes = s.watch.episodes := hepisodes
      have hcadences : w.cadences = s.watch.cadences := hcadences
      have hnow := h.clock now (by rw [hstage]; rfl)
      have hrest : s.sweeping.rest ⊆ s.watch.cadences.rows := h.rest
      rw [hstage] at hrest
      have hafter : LiveInv ({ s with watch := w, sweeping := .idle }, heard) := by
        obtain ⟨hstamps, -, -, -, hlate, htakes⟩ := h
        refine ⟨by simpa [hwatcher] using hstamps, by rintro _ ⟨⟩, by simp [SweepStage.rest],
          by rintro _ ⟨⟩, ?_, by simpa [hepisodes] using htakes⟩
        simp only [hwatcher, hcadences]
        exact hlate
      cases returned with
      | false =>
          obtain rfl := Option.some.inj hs
          exact hafter
      | true =>
          obtain rfl := Option.some.inj hs
          rw [loop_idle]
          exact hafter.loop (by rw [hcadences]; exact hrest) hnow

/-- **Step.**  A reading that goes on clears its probe. -/
theorem LiveInv.goReading (h : LiveInv (s, heard)) (htasks : TasksInv s)
    (hs : s.goReading = some s') : LiveInv (s', heard) := by
  obtain ⟨hstamps, hclock, hrest, hdue, hlate, htakes⟩ := h
  rw [SilenceTasks.goReading] at hs
  split at hs
  · cases hs
  · next d sensorType now hstage =>
      have hd : s.watch.watcher.silent d = true := htasks.clears d (by rw [hstage]; rfl)
      split at hs
      · next w hclear =>
          obtain rfl := Option.some.inj hs
          obtain ⟨e, -, -, rfl⟩ := clearSilence_eq_some.mp hclear
          refine ⟨hstamps, hclock, hrest, hdue, fun x hx hsilent => ?_, by rintro _ _ _ ⟨⟩⟩
          have hsame := hlate x hx hsilent
          rw [hstage] at hsame
          exact hsame
      · next hclear =>
          -- the record has the silence, since before the reading
          have hopen : (s.watch.episodes d).isSome := by
            obtain hsame | hw | hw := htasks.agree d
            · rw [← hsame, hd]
            · simpa [hd] using htasks.raises d hw.raises
            · rw [hstage] at hw
              exact hw.elim
          obtain ⟨e, he⟩ := Option.isSome_iff_exists.mp hopen
          have htaken := clearSilence_eq_some.mpr ⟨e, he, htakes d sensorType now hstage e he, rfl⟩
          cases hclear.symm.trans htaken
  · next d sensorType now hstage =>
      obtain rfl := Option.some.inj hs
      refine ⟨hstamps, hclock, hrest, hdue, fun x hx hsilent => ?_, by rintro _ _ _ ⟨⟩⟩
      have hne : x.1 ≠ d := by
        rintro rfl
        simp [SilenceWatch.mark] at hsilent
      refine .inr ((hlate x hx (by simpa [SilenceWatch.mark, hne] using hsilent)).resolve_left ?_)
      rw [hstage]
      exact Ne.symm hne
  · next d sensorType now hstage =>
      obtain rfl := Option.some.inj hs
      refine ⟨hstamps, hclock, hrest, hdue, fun x hx hsilent => .inr ?_, by rintro _ _ _ ⟨⟩⟩
      exact (hlate x hx hsilent).resolve_left (by rw [hstage]; exact id)
  · next m hstage =>
      obtain rfl := Option.some.inj hs
      obtain ⟨hwatcher, -, hcadences⟩ := emit_fields s.watch m true
      refine ⟨by simpa [hwatcher] using hstamps, hclock, by rw [hcadences]; exact hrest,
        by rw [hcadences]; exact hdue, fun x hx hsilent => .inr ?_, by rintro _ _ _ ⟨⟩⟩
      have hx : x ∈ s.watch.cadences.rows := by simpa [hcadences] using hx
      have hsilent : s.watch.watcher.silent x.1 = true := by simpa [hwatcher] using hsilent
      exact (hlate x hx hsilent).resolve_left (by rw [hstage]; exact id)

omit [DecidableEq δ] in
theorem SweepStage.raises_of_row {stage : SweepStage δ} {x : δ × ℚ} (h : stage.row = some x) :
    stage.raises x.1 := by
  cases stage <;> cases h <;> rfl

omit [DecidableEq δ] in
/-- A probe that is late stays so while it is not heard. -/
theorem Late.mono {x : δ × ℚ} {heard' : δ → Option ℚ} (h : Late (s, heard) x)
    (hnow : s.now ≤ s'.now) (hheard : heard' x.1 = heard x.1) : Late (s', heard') x := by
  intro t ht
  exact (h t (hheard.symm.trans ht)).trans hnow

/-- **Step.**  A reading comes in of a probe that the sweep is not raising. -/
theorem LiveInv.hear (h : LiveInv (s, heard)) (hidle : s.hearing = .idle) {r : SensorReading δ}
    (sensorType : String) (hnow : s.now ≤ now) (hC : HeardApart (s, heard) (.reading r sensorType now)) :
    LiveInv (s.hear r sensorType now,
      s.note (.reading r sensorType now) (s.hear r sensorType now) heard) := by
  obtain ⟨hstamps, hclock, hrest, hdue, hlate, htakes⟩ := h
  cases hr : r.evaluable with
  | none =>
      have hheard : s.hear r sensorType now = { s with now := now } := by
        simp [SilenceTasks.hear, hr]
      have hnote : ∀ s', s.note (.reading r sensorType now) s' heard = heard := fun s' => by
        simp [SilenceTasks.note, hr]
      rw [hnote, hheard]
      refine ⟨hstamps, fun t ht => (hclock t ht).trans hnow, hrest, fun x hx => ?_, fun x hx hs => ?_,
        htakes⟩
      · exact ⟨(hdue x hx).1, (hdue x hx).2.mono hnow rfl⟩
      · exact (hlate x hx hs).imp_right fun hl => hl.mono hnow rfl
  | some value =>
      have hgood : r.evaluable.isSome := by simp [hr]
      obtain ⟨hapart, htaken⟩ := hC hgood
      have hheard : s.hear r sensorType now = { s with
          watch := s.watch.seen r.sensorId sensorType now
          now := now
          hearing := if s.watch.watcher.silent r.sensorId then .clearing r.sensorId sensorType now
            else .idle } := by
        simp [SilenceTasks.hear, hr]
      have hnote : ∀ s', s.note (.reading r sensorType now) s' heard =
          Function.update heard r.sensorId (some now) := fun s' => if_pos hgood
      rw [hnote, hheard]
      refine ⟨fun d t ht => ?_, fun t ht => (hclock t ht).trans hnow, hrest, fun x hx => ?_,
        fun x hx hs => ?_, fun d st t hc => ?_⟩
      · by_cases hd : d = r.sensorId
        · simpa [SilenceWatch.seen, hd] using ht
        · simpa [SilenceWatch.seen, hd] using hstamps d t (by simpa [hd] using ht)
      · have hne : x.1 ≠ r.sensorId := fun he => hapart (he ▸ SweepStage.raises_of_row hx)
        exact ⟨(hdue x hx).1, (hdue x hx).2.mono hnow (by simp [hne])⟩
      · by_cases hd : x.1 = r.sensorId
        · have hsilent : s.watch.watcher.silent r.sensorId = true := hd ▸ hs
          simp only [hsilent, if_true]
          exact .inl hd.symm
        · have hlate := (hlate x hx hs).resolve_left (by rw [hidle]; exact id)
          exact .inr (hlate.mono hnow (by simp [hd]))
      · simp only at hc
        split at hc
        · cases hc
          exact htaken
        · cases hc

/-- **Every step** of either task keeps who is live, where none is heard while it is being raised. -/
theorem liveInv_step {a : TaskAction δ} (h : LiveInv (s, heard)) (htasks : TasksInv s)
    (hC : HeardApart (s, heard) a) (hs : (silenceTasks δ).step s a = some s') :
    LiveInv (s', s.note a s' heard) := by
  cases a with
  | sweep now =>
      obtain ⟨-, hnow, rfl⟩ := sweep_step hs
      obtain ⟨hstamps, -, -, -, hlate, htakes⟩ := h
      refine ⟨hstamps, ?_, by simp [SweepStage.rest], by rintro _ ⟨⟩, fun x hx hs => ?_, htakes⟩
      · rintro _ ⟨⟩
        exact le_rfl
      · exact (hlate x hx hs).imp_right fun hl => hl.mono hnow rfl
  | reading r sensorType now =>
      obtain ⟨hidle, hnow, rfl⟩ := reading_step hs
      exact h.hear hidle sensorType hnow hC
  | goSweep => exact h.goSweep htasks hs
  | goReading => exact h.goReading htasks hs

end Live

/-! ### Every run -/

variable [DecidableEq δ]

/-- At `prime` neither task is under way. -/
theorem tasksInv_primed (cadences : Cadences δ) (episodes : δ → Option SilenceEpisode) (now : ℚ) :
    TasksInv (SilenceTasks.primed cadences episodes now) :=
  ⟨fun _ => .inl rfl, fun _ => False.elim, fun _ => False.elim, fun _ => False.elim,
    fun _ => False.elim⟩

/-- With neither task running, the memory and the record agree, and no live probe is silent. -/
def RestsRight (p : SilenceTasks δ × (δ → Option ℚ)) : Prop :=
  p.1.Rests → (∀ d, p.1.watch.watcher.silent d = true ↔ (p.1.watch.episodes d).isSome) ∧
    ∀ x ∈ p.1.watch.cadences.rows, ∀ heard, p.2 x.1 = some heard →
      p.1.now < heard + silenceDeadlineS x.2 → p.1.watch.watcher.silent x.1 = false

/-- In every run, the memory and the record agree whenever neither task is running. -/
theorem silent_iff_open (cadences : Cadences δ) (episodes : δ → Option SilenceEpisode) (now : ℚ)
    {as : List (TaskAction δ)} {s : SilenceTasks δ}
    (h : (silenceTasks δ).Run (.primed cadences episodes now) as s) (hrest : s.Rests) (d : δ) :
    s.watch.watcher.silent d = true ↔ (s.watch.episodes d).isSome :=
  (h.invariant (tasksInv_primed cadences episodes now)
    fun _ _ _ _ hI hs => tasksInv_step hI hs).silent_iff_open hrest d

/-- **Silence tasks**, from a `prime` over any record: in a run in which no probe is heard while it is
being raised, no live probe is silent whenever neither task is running. -/
theorem live_not_silent (cadences : Cadences δ) (episodes : δ → Option SilenceEpisode) (now : ℚ)
    {as : List (TaskAction δ)} {p : SilenceTasks δ × (δ → Option ℚ)}
    (h : ((silenceTasks δ).ghost SilenceTasks.note).RunIf HeardApart
      (.primed cadences episodes now, fun _ => none) as p) : RestsRight p := by
  have hinv : TasksInv p.1 ∧ LiveInv p := by
    refine h.invariant (I := fun p => TasksInv p.1 ∧ LiveInv p) ⟨tasksInv_primed _ _ _, ?_⟩ ?_
    · refine ⟨by rintro _ _ ⟨⟩, by rintro _ ⟨⟩, by simp [SilenceTasks.primed, SweepStage.rest],
        by rintro _ ⟨⟩, fun x _ _ => .inr ?_, by rintro _ _ _ ⟨⟩⟩
      rintro _ ⟨⟩
    · exact Machine.ghost_preserves fun s g a s' hC hI hs =>
        ⟨tasksInv_step hI.1 hs, liveInv_step hI.2 hI.1 hC hs⟩
  obtain ⟨htasks, hlive⟩ := hinv
  intro hrest
  refine ⟨htasks.silent_iff_open hrest, fun x hx heard hheard hnow => ?_⟩
  refine Bool.eq_false_iff.mpr fun hsilent => absurd hnow (not_lt.mpr ?_)
  exact (hlive.late x hx hsilent).resolve_left (by rw [hrest.2]; exact id) heard hheard

/-- A probe that has been read ten seconds ago outlives a sweep. -/
theorem live_not_silent_ten :
    ∃ p, ((silenceTasks Unit).ghost SilenceTasks.note).Run
      (.primed tenSeconds (fun _ => none) 0, fun _ => none)
      [.reading goodReading "ds18b20" 0, .sweep 10, .goSweep] p ∧ RestsRight p := by
  have hrun : (((silenceTasks Unit).ghost SilenceTasks.note).exec
      (.primed tenSeconds (fun _ => none) 0, fun _ => none)
      [.reading goodReading "ds18b20" 0, .sweep 10, .goSweep]).isSome := by decide +kernel
  obtain ⟨p, hexec⟩ := Option.isSome_iff_exists.mp hrun
  have hp := Machine.exec_eq_some.mp hexec
  have hapart : ((silenceTasks Unit).ghost SilenceTasks.note).RunIf HeardApart
      (.primed tenSeconds (fun _ => none) 0, fun _ => none)
      [.reading goodReading "ds18b20" 0, .sweep 10, .goSweep] p := by
    cases hp with
    | more _ h₁ hp =>
        cases hp with
        | more _ h₂ hp =>
            cases hp with
            | more _ h₃ hp =>
                cases hp
                refine .more (fun _ => ⟨id, ?_⟩) h₁ (.more trivial h₂ (.one trivial h₃))
                rintro _ ⟨⟩
  exact ⟨p, hp, live_not_silent tenSeconds (fun _ => none) 0 hapart⟩

/-- A probe is read while its silence is being written, and is silent from then on. -/
theorem not_live_not_silent :
    ∃ p, ((silenceTasks Unit).ghost SilenceTasks.note).Run
      (.primed tenSeconds (fun _ => none) 0, fun _ => none)
      [.sweep 100, .goSweep, .reading goodReading "ds18b20" 100, .goSweep, .goSweep, .goSweep] p ∧
        ¬RestsRight p := by
  have hrun : (((silenceTasks Unit).ghost SilenceTasks.note).exec
      (.primed tenSeconds (fun _ => none) 0, fun _ => none)
      [.sweep 100, .goSweep, .reading goodReading "ds18b20" 100, .goSweep, .goSweep, .goSweep]).map
        (fun p => (decide (p.1.sweeping = .idle ∧ p.1.hearing = .idle),
          (p.1.watch.cadences.rows, p.1.now), (p.2 (), p.1.watch.watcher.silent ()))) =
      some (true, ([((), 10)], 100), (some 100, true)) := by decide +kernel
  obtain ⟨p, hexec, hresult⟩ := Option.map_eq_some_iff.mp hrun
  obtain ⟨hstages, hrest⟩ := Prod.mk.inj hresult
  obtain ⟨htable, hprobe⟩ := Prod.mk.inj hrest
  obtain ⟨hrows, hnow⟩ := Prod.mk.inj htable
  obtain ⟨hheard, hsilent⟩ := Prod.mk.inj hprobe
  refine ⟨p, Machine.exec_eq_some.mp hexec, fun hright => ?_⟩
  have hrests : p.1.Rests := by simpa [SilenceTasks.Rests] using hstages
  have hlive := (hright hrests).2 ((), 10) (by simp [hrows]) 100 hheard
    (by rw [hnow]; decide +kernel)
  rw [hsilent] at hlive
  cases hlive

end BellasReef.ControlEngine
