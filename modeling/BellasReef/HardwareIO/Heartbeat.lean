import BellasReef.HardwareIO.Reports

/-!
# HardwareIO — Heartbeat

When the watcher trips, on a schedule that runs its task whenever it is ready: `Prompt`.

A deadline counts from the last beat, and the watcher looks at it while it watches.  During a trip
it does not: it drives until the drive lands, reports, and then takes the beat that ends the trip,
which may be one that arrived in the meantime.  So a trip begins at the later of two instants, the
deadline and the one from which the watcher watched again: `heartbeat_exact`.
-/

namespace BellasReef.HardwareIO
open BellasReef.Contracts BellasReef.Support

variable {ι L : Type}

/-! ### The schedule -/

/-- When the watcher's task is to run next, if it waits for the clock or is ready. -/
def Reporting.wakesAt (A : Actuator L) (s : Reporting L) : Option ℚ :=
  match s.state.watchTask with
  | .watching =>
      some (if s.state.beat then s.state.now
        else max s.state.now (s.state.lastBeat + A.heartbeatTimeoutS))
  | .tripping (.backoff u) => some (max s.state.now u)
  | .tripped => if s.state.beat && !s.watcherBusy then some s.state.now else none
  | .tripping .driving | .tripping .reporting => none

/-- Time does not pass the instant at which the watcher is to run. -/
def Prompt (A : Actuator L) (s : Reporting L) : ReportingAction ι L → Prop
  | .act (.tick dt) => ∀ t ∈ s.wakesAt A, s.state.now + dt ≤ t
  | _ => True

instance (A : Actuator L) (s : Reporting L) (a : ReportingAction ι L) : Decidable (Prompt A s a) :=
  match a with
  | .act (.tick dt) => inferInstanceAs (Decidable (∀ t ∈ s.wakesAt A, s.state.now + dt ≤ t))
  | .act (.command _) | .act (.write _) | .act (.fail _) | .act (.complete _) | .act .heartbeat
  | .act .watchBeat | .act .watchTimeout | .act .watchReported | .act .watchRetry
  | .act .watchResume | .act .deadline | .act .runtimeReported | .act .runtimeRetry
  | .act .clearLatch | .act (.setClock _ _) | .sinkEnds _ => isTrue trivial

/-! ### What is watched -/

/-- Since when the watcher watches, and the trips it began since the last beat. -/
structure Watch where
  freeAt : ℚ
  trips : ℕ

/-- What is noted at a step. -/
def Watch.note (s : State L) (a : ReportingAction ι L) (g : Watch) : Watch :=
  match a with
  | .act .heartbeat => { g with trips := 0 }
  | .act .watchTimeout => { g with trips := g.trips + 1 }
  | .act .watchResume => { g with freeAt := s.now }
  | _ => g

variable [DecidableEq L]

/-- The reports, with the watch written down beside them. -/
abbrev watching (ι : Type) (A : Actuator L) : Machine (Reporting L × Watch) (ReportingAction ι L) :=
  (reporting ι A).ghost fun s a _ g => g.note s.state a

omit [DecidableEq L] in
/-- The watcher begins: a beat that is still to be taken is younger than the timeout. -/
structure Begins (A : Actuator L) (s : Reporting L) : Prop where
  watching : s.state.watchTask = .watching
  idle : Caller.heartbeat ∉ s.state.callers
  past : s.state.lastBeat ≤ s.state.now
  young : s.state.beat = true → s.state.now < s.state.lastBeat + A.heartbeatTimeoutS

/-- The instant at which a trip is due: the deadline, or when the watcher watches again. -/
def Reporting.dueAt (A : Actuator L) (s : Reporting L) (g : Watch) : ℚ :=
  max (s.state.lastBeat + A.heartbeatTimeoutS) g.freeAt

/-- **The watch is on time.** -/
structure OnTime (A : Actuator L) (s : Reporting L) (g : Watch) : Prop where
  /-- While it watches, no trip is overdue; -/
  due : s.state.watchTask = .watching → s.state.now ≤ s.dueAt A g
  /-- and none has begun since the last beat. -/
  armed : s.state.watchTask = .watching → g.trips = 0
  /-- No two trips begin between two beats. -/
  once : g.trips ≤ 1
  /-- A beat that arrives during a trip is kept, and it is the one that ends the trip. -/
  kept : s.state.watchTask ≠ .watching → (s.state.beat = true ↔ g.trips = 0)

/-- **What a step of the watch does.** -/
structure Exact (A : Actuator L) (s : Reporting L) (g : Watch) (a : ReportingAction ι L) :
    Prop where
  onTime : OnTime A s g
  /-- A trip begins when it is due, not while the last beat is younger than the timeout, and it is
  the first since that beat. -/
  trip : a = .act .watchTimeout → s.state.now = s.dueAt A g ∧
    s.state.lastBeat + A.heartbeatTimeoutS ≤ s.state.now ∧ g.trips = 0
  /-- A trip that is due can begin. -/
  ready : s.state.watchTask = .watching → s.dueAt A g ≤ s.state.now →
    ((reporting ι A).step s (.act .watchTimeout)).isSome
  /-- A trip that has been reported ends with a beat that arrived since it began. -/
  resumes : s.state.watchTask = .tripped → g.trips = 0 → s.watcherBusy = false →
    ((reporting ι A).step s (.act .watchResume)).isSome

/-! ### The watcher's own state -/

/-- What the watcher and the clock change. -/
structure Watcher where
  task : WatchTask
  beat : Bool
  lastBeat : ℚ
  now : ℚ

omit [DecidableEq L] in
/-- The watcher's part of a state. -/
def State.watcher (s : State L) : Watcher := ⟨s.watchTask, s.beat, s.lastBeat, s.now⟩

/-- Every step, with what it changes of the watcher. -/
inductive WatchMoves (A : Actuator L) (w : Watcher) : Action ι L → Watcher → Prop where
  | heartbeat : WatchMoves A w .heartbeat { w with lastBeat := w.now, beat := true }
  | watchBeat (h : w.task = .watching) : WatchMoves A w .watchBeat { w with beat := false }
  | watchTimeout (h : w.task = .watching) (hdue : w.lastBeat + A.heartbeatTimeoutS ≤ w.now) :
      WatchMoves A w .watchTimeout { w with task := .tripping .driving }
  | watchResume (h : w.task = .tripped) (hb : w.beat = true) :
      WatchMoves A w .watchResume { w with task := .watching, beat := false }
  | inTrip {a : Action ι L} {t : Trip} {task : WatchTask}
      (ha : a = .watchReported ∨ a = .watchRetry ∨ ∃ i, a = .complete i)
      (h : w.task = .tripping t) (htask : task ≠ .watching) :
      WatchMoves A w a { w with task := task }
  | tick {dt : ℚ} (hdt : 0 ≤ dt) : WatchMoves A w (.tick dt) { w with now := w.now + dt }
  | other {a : Action ι L} (ha : a ≠ .heartbeat ∧ a ≠ .watchTimeout ∧ a ≠ .watchResume ∧
      ∀ dt, a ≠ .tick dt) : WatchMoves A w a w

variable {A : Actuator L}

theorem watcher_noteLevel {s : State L} {l : L} : (s.noteLevel A l).watcher = s.watcher := by
  rw [State.noteLevel]
  split
  · rfl
  · split <;> rfl

/-- What the end of a call means to the watcher. -/
private theorem complete_watchMoves {s s' : State L} {i : ℕ} {c : Call L} {es : List SafetyEvent}
    (hw : Watched s) (hc : s.calls[i]? = some c) (h : s.complete A i c = some (s', es)) :
    WatchMoves (ι := ι) A s.watcher (.complete i) s'.watcher := by
  have hother : WatchMoves (ι := ι) A s.watcher (.complete i) s.watcher := .other (by simp)
  obtain ⟨who, p⟩ := c
  cases who with
  | command l =>
      cases p with
      | pending => cases h
      | written => cases h; rw [watcher_noteLevel]; exact hother
      | raised => cases h; exact hother
  | heartbeat =>
      have htask : ∃ t, s.watchTask = .tripping t := by
        have hd := hw.driving hc
        cases ht : s.watchTask with
        | tripping t => exact ⟨t, rfl⟩
        | watching | tripped => rw [ht] at hd; cases hd
      obtain ⟨t, ht⟩ := htask
      cases p with
      | pending => cases h
      | written => cases h; exact .inTrip (.inr (.inr ⟨i, rfl⟩)) ht nofun
      | raised => cases h; exact .inTrip (.inr (.inr ⟨i, rfl⟩)) ht nofun
  | runtime =>
      cases p with
      | pending => cases h
      | written => cases h; exact hother
      | raised => cases h; exact hother
  | abandoned =>
      cases p with
      | pending => cases h
      | written => cases h; exact hother
      | raised => cases h; exact hother

/-- **Inversion.**  A step does one of `WatchMoves` to the watcher. -/
theorem watchMoves {s s' : State L} {a : Action ι L} {es : List SafetyEvent} (hw : Watched s)
    (h : s.step A a = some (s', es)) : WatchMoves A s.watcher a s'.watcher := by
  cases a with
  | heartbeat => cases h; exact .heartbeat
  | watchBeat =>
      simp only [State.step] at h
      split at h
      · next hc => cases h; exact .watchBeat hc.1
      · cases h
  | watchTimeout =>
      simp only [State.step] at h
      split at h
      · next hc => cases h; exact .watchTimeout hc.1 hc.2
      · cases h
  | watchReported =>
      simp only [State.step] at h
      split at h
      · next hc => cases h; exact .inTrip (.inl rfl) hc (by rintro ⟨⟩)
      · cases h
  | watchRetry =>
      simp only [State.step] at h
      split at h
      · next u hc =>
          split at h
          · cases h; exact .inTrip (.inr (.inl rfl)) hc (by rintro ⟨⟩)
          · cases h
      · cases h
  | watchResume =>
      simp only [State.step] at h
      split at h
      · next hc => cases h; exact .watchResume hc.1 hc.2
      · cases h
  | tick dt =>
      simp only [State.step] at h
      split at h
      · next hdt => cases h; exact .tick hdt
      · cases h
  | complete i =>
      simp only [State.step, Option.bind_eq_some_iff] at h
      obtain ⟨c, hc, h⟩ := h
      split at h
      · exact complete_watchMoves hw hc h
      · cases h
  | clearLatch | setClock => cases h; exact .other (by simp)
  | command | write | fail | deadline | runtimeReported | runtimeRetry =>
      simp only [State.step] at h
      repeat' split at h
      all_goals first | (cases h; exact .other (by simp)) | cases h

/-- A step of the supervisor does one of them. -/
theorem act_watchMoves {s s' : Reporting L} {a : Action ι L} (hw : Watched s.state)
    (h : (reporting ι A).step s (.act a) = some s') :
    WatchMoves A s.state.watcher a s'.state.watcher := by
  change Reporting.step A s (.act a : ReportingAction ι L) = some s' at h
  rw [Reporting.step] at h
  split at h
  · cases h
  · obtain ⟨⟨st, es⟩, hs, rfl⟩ := Option.map_eq_some_iff.mp h
    exact watchMoves hw hs

/-! ### The invariant -/

/-- On time, with the clock ahead of the beats; and a beat that the watcher is still to take while
it watches is young. -/
structure Punctual (A : Actuator L) (s : Reporting L) (g : Watch) : Prop where
  watched : Watched s.state
  onTime : OnTime A s g
  past : s.state.lastBeat ≤ s.state.now ∧ g.freeAt ≤ s.state.now
  young : s.state.watchTask = .watching → s.state.beat = true →
    s.state.now < s.state.lastBeat + A.heartbeatTimeoutS

variable {s s' : Reporting L} {g : Watch}

/-- A beat is still to be taken while the watcher watches only if no trip is due. -/
theorem Punctual.beat_of_due (h : Punctual A s g) (hw : s.state.watchTask = .watching)
    (hdue : s.state.lastBeat + A.heartbeatTimeoutS ≤ s.state.now) : s.state.beat = false := by
  by_contra hb
  exact absurd (h.young hw (Bool.eq_true_of_not_eq_false hb)) (not_lt.mpr hdue)

omit [DecidableEq L] in
/-- Where the watcher's own state is known. -/
theorem watcher_eq {st : State L} {w : Watcher} (h : st.watcher = w) :
    st.watchTask = w.task ∧ st.beat = w.beat ∧ st.lastBeat = w.lastBeat ∧ st.now = w.now :=
  ⟨congrArg Watcher.task h, congrArg Watcher.beat h, congrArg Watcher.lastBeat h,
    congrArg Watcher.now h⟩

/-- A step into a trip, or within one, leaves the clock and the last beat. -/
theorem Punctual.away {g' : Watch} (h : Punctual A s g) (hw : Watched s'.state)
    (htask : s'.state.watchTask ≠ .watching) (hlb : s'.state.lastBeat = s.state.lastBeat)
    (hnow : s'.state.now = s.state.now) (hfree : g'.freeAt = g.freeAt) (honce : g'.trips ≤ 1)
    (hkept : s'.state.beat = true ↔ g'.trips = 0) : Punctual A s' g' where
  watched := hw
  onTime := ⟨fun hw => absurd hw htask, fun hw => absurd hw htask, honce, fun _ => hkept⟩
  past := by
    rw [hlb, hnow, hfree]
    exact h.past
  young := fun hw => absurd hw htask

/-- A step that does nothing to the watcher. -/
theorem Punctual.same (h : Punctual A s g) (hw : Watched s'.state)
    (hsame : s'.state.watcher = s.state.watcher) : Punctual A s' g := by
  obtain ⟨htask, hbeat, hlb, hnow⟩ := watcher_eq hsame
  refine ⟨hw, ⟨fun hw => ?_, fun hw => ?_, h.onTime.once, fun hne => ?_⟩, ?_, fun hw hb => ?_⟩
  · rw [Reporting.dueAt, hlb, hnow]
    exact h.onTime.due (htask.symm.trans hw)
  · exact h.onTime.armed (htask.symm.trans hw)
  · rw [hbeat]
    exact h.onTime.kept fun hw => hne (htask.trans hw)
  · rw [hlb, hnow]
    exact h.past
  · rw [hlb, hnow]
    exact h.young (htask.symm.trans hw) (hbeat.symm.trans hb)

/-- Time passes only as far as the instant at which the watcher wakes. -/
theorem Punctual.tick {dt : ℚ} (h : Punctual A s g)
    (hC : Prompt A s (.act (.tick dt) : ReportingAction ι L)) (hdt : 0 ≤ dt)
    (hw : Watched s'.state)
    (hmoves : s'.state.watcher = { s.state.watcher with now := s.state.now + dt }) :
    Punctual A s' g := by
  obtain ⟨hlast, hfree⟩ := h.past
  obtain ⟨htask, hbeat, hlb, hnow⟩ := watcher_eq hmoves
  have hwakes : s.state.watchTask = .watching → s.state.now + dt ≤
      if s.state.beat then s.state.now
      else max s.state.now (s.state.lastBeat + A.heartbeatTimeoutS) := by
    intro hw
    refine hC _ ?_
    rw [Reporting.wakesAt, hw]
    rfl
  refine ⟨hw, ⟨fun hw => ?_, fun hw => h.onTime.armed (htask.symm.trans hw), h.onTime.once,
    fun hne => ?_⟩, ?_, fun hw hb => ?_⟩
  · have hwatch : s.state.watchTask = .watching := htask.symm.trans hw
    have hdue : s.state.now ≤ max (s.state.lastBeat + A.heartbeatTimeoutS) g.freeAt :=
      h.onTime.due hwatch
    have hle := hwakes hwatch
    rw [Reporting.dueAt, hlb, hnow]
    refine hle.trans ?_
    split
    · exact hdue
    · exact max_le hdue (le_max_left _ _)
  · rw [hbeat]
    exact h.onTime.kept fun hw => hne (htask.trans hw)
  · rw [hlb, hnow]
    exact ⟨hlast.trans (le_add_of_nonneg_right hdt), hfree.trans (le_add_of_nonneg_right hdt)⟩
  · have hwatch : s.state.watchTask = .watching := htask.symm.trans hw
    have hb : s.state.beat = true := hbeat.symm.trans hb
    have hle := hwakes hwatch
    rw [if_pos hb] at hle
    rw [hlb, hnow]
    exact hle.trans_lt (h.young hwatch hb)

/-- **Step.**  The watcher trips in time, whatever the supervisor does. -/
theorem punctual_act {a : Action ι L} (h : Punctual A s g)
    (hC : Prompt A s (.act a : ReportingAction ι L)) (hw : Watched s'.state)
    (hm : WatchMoves A s.state.watcher a s'.state.watcher) :
    Punctual A s' (g.note s.state (.act a : ReportingAction ι L)) := by
  obtain ⟨hlast, hfree⟩ := h.past
  have htimeout := A.heartbeatTimeoutS_pos
  generalize hw' : s'.state.watcher = w' at hm
  obtain ⟨htask, hbeat, hlb, hnow⟩ := watcher_eq hw'
  cases hm with
  | heartbeat =>
      refine ⟨hw, ⟨fun _ => ?_, fun _ => rfl, Nat.zero_le 1, fun _ => ?_⟩, ?_, fun _ _ => ?_⟩
      · rw [Reporting.dueAt, hlb, hnow]
        exact le_max_of_le_left (by linarith)
      · exact iff_of_true hbeat rfl
      · exact ⟨(hlb.trans hnow.symm).le, hnow ▸ hfree⟩
      · rw [hlb, hnow]
        linarith
  | watchBeat hwatch =>
      refine ⟨hw, ⟨fun _ => ?_, fun _ => h.onTime.armed hwatch, h.onTime.once, fun hne => ?_⟩, ?_,
        fun _ hb => ?_⟩
      · rw [Reporting.dueAt, hlb, hnow]
        exact h.onTime.due hwatch
      · exact absurd (htask.trans hwatch) hne
      · rw [hlb, hnow]
        exact h.past
      · rw [hbeat] at hb
        cases hb
  | watchTimeout hwatch hdue =>
      have hquiet := h.beat_of_due hwatch hdue
      have htrips : (g.note s.state (.act .watchTimeout : ReportingAction ι L)).trips = 1 :=
        congrArg Nat.succ (h.onTime.armed hwatch)
      refine h.away hw (htask ▸ nofun) hlb hnow rfl htrips.le ?_
      rw [hbeat, htrips]
      exact iff_of_false (by simp [State.watcher, hquiet]) one_ne_zero
  | watchResume htripped hb =>
      have hne : s.state.watchTask ≠ .watching := by
        intro hw
        cases hw.symm.trans htripped
      refine ⟨hw, ⟨fun _ => ?_, fun _ => (h.onTime.kept hne).mp hb, h.onTime.once, fun hne => ?_⟩,
        ⟨?_, ?_⟩, fun _ hb => ?_⟩
      · rw [hnow]
        exact le_max_right _ _
      · exact absurd htask hne
      · rw [hlb, hnow]
        exact hlast
      · rw [hnow]
        exact le_refl _
      · rw [hbeat] at hb
        cases hb
  | @inTrip _ t task ha htrip hntask =>
      have hg : g.note s.state (.act a : ReportingAction ι L) = g := by
        rcases ha with rfl | rfl | ⟨i, rfl⟩ <;> rfl
      have hne : s.state.watchTask ≠ .watching := by
        intro hw
        cases hw.symm.trans htrip
      rw [hg]
      refine h.away hw (fun hw => hntask (htask.symm.trans hw)) hlb hnow rfl h.onTime.once ?_
      rw [hbeat]
      exact h.onTime.kept hne
  | tick hdt => exact h.tick hC hdt hw hw'
  | other ha =>
      have hg : g.note s.state (.act a : ReportingAction ι L) = g := by
        cases a with
        | heartbeat => exact absurd rfl ha.1
        | watchTimeout => exact absurd rfl ha.2.1
        | watchResume => exact absurd rfl ha.2.2.1
        | _ => rfl
      rw [hg]
      exact h.same hw hw'

/-- **Step.**  So it does while the sink is slow. -/
theorem punctual_step {a : ReportingAction ι L} (hC : Prompt A s a) (h : Punctual A s g)
    (hs : (reporting ι A).step s a = some s') : Punctual A s' (g.note s.state a) := by
  cases a with
  | act a =>
      obtain ⟨hm, -⟩ := act_step hs
      exact punctual_act h hC (watched_step h.watched hm) (act_watchMoves h.watched hs)
  | sinkEnds i =>
      obtain ⟨c, -, rfl⟩ := sinkEnds_step hs
      exact h.same h.watched rfl

/-- A watcher that begins is in time. -/
theorem Begins.punctual (h : Begins A s) : Punctual A s ⟨s.state.now, 0⟩ where
  watched := by
    rw [Watched, h.watching]
    exact List.count_eq_zero.mpr h.idle
  onTime := ⟨fun _ => le_max_right _ _, fun _ => rfl, Nat.zero_le 1, fun hne => absurd h.watching hne⟩
  past := ⟨h.past, le_refl _⟩
  young := fun _ => h.young

/-- A watcher that is in time trips when the timeout has passed, and not before. -/
theorem Punctual.exact {a : ReportingAction ι L} (h : Punctual A s g)
    (hs : (reporting ι A).step s a = some s') : Exact A s g a where
  onTime := h.onTime
  trip := by
    rintro rfl
    have hm := act_watchMoves h.watched hs
    generalize s'.state.watcher = w at hm
    cases hm with
    | watchTimeout hwatch hdue =>
        exact ⟨le_antisymm (h.onTime.due hwatch) (max_le hdue h.past.2), hdue, h.onTime.armed hwatch⟩
    | inTrip ha =>
        rcases ha with ha | ha | ⟨i, ha⟩ <;> cases ha
    | other ha => exact absurd rfl ha.2.1
  ready := by
    intro hw hdue
    have hdeadline : s.state.lastBeat + A.heartbeatTimeoutS ≤ s.state.now :=
      (le_max_left _ _).trans hdue
    change (Reporting.step A s (.act .watchTimeout : ReportingAction ι L)).isSome
    simp [Reporting.step, State.step, Action.resumes, hw, hdeadline]
  resumes := by
    intro htripped htrips hfree
    have hb : s.state.beat = true := (h.onTime.kept (by rw [htripped]; rintro ⟨⟩)).mpr htrips
    change (Reporting.step A s (.act .watchResume : ReportingAction ι L)).isSome
    simp [Reporting.step, State.step, htripped, hb, hfree]

/-- **The watch is exact**: on a prompt schedule, from where the watcher begins, each trip begins at
the later of the deadline and the instant from which the watcher watches again, and it is the only
one between two beats; and no beat is lost, whatever the driver and the sink take to return. -/
theorem heartbeat_exact (A : Actuator L) (s₀ : Reporting L) (h₀ : Begins A s₀)
    (as : List (ReportingAction ι L)) (p : Reporting L × Watch)
    (hrun : (watching ι A).RunIf (fun p a => Prompt A p.1 a) (s₀, ⟨s₀.state.now, 0⟩) as p) :
    (watching ι A).RunIf (fun p a => Exact A p.1 p.2 a) (s₀, ⟨s₀.state.now, 0⟩) as p ∧
      OnTime A p.1 p.2 := by
  have hstep : ∀ p a q, Prompt A p.1 a → Punctual A p.1 p.2 → (watching ι A).step p a = some q →
      Punctual A q.1 q.2 :=
    Machine.ghost_preserves fun _ _ _ _ hC hI hs => punctual_step hC hI hs
  refine ⟨hrun.keeps (I := fun p => Punctual A p.1 p.2) h₀.punctual hstep ?_,
    (hrun.invariant (I := fun p => Punctual A p.1 p.2) h₀.punctual hstep).onTime⟩
  intro p a q _ hI hs
  exact hI.exact (Machine.ghost_step.mp hs).1

/-- A light that is dark and watched. -/
theorem darkLight_begins : Begins (lightRegistration .pca9685) darkLight where
  watching := rfl
  idle := List.not_mem_nil
  past := le_refl _
  young := nofun

/-- A trip, its report, and the beat that ends it. -/
theorem heartbeat_exact_light : ∃ p, (watching Unit (lightRegistration .pca9685)).RunIf
      (fun p a => Exact (lightRegistration .pca9685) p.1 p.2 a) (darkLight, ⟨0, 0⟩)
      [.act (.tick 30), .act .watchTimeout, .act (.write 0), .act (.complete 0), .sinkEnds 0,
        .act .heartbeat, .act .watchResume] p := by
  let p := (watching Unit (lightRegistration .pca9685)).execIf
    (fun p a => Prompt (lightRegistration .pca9685) p.1 a) (darkLight, ⟨0, 0⟩)
    [.act (.tick 30), .act .watchTimeout, .act (.write 0), .act (.complete 0), .sinkEnds 0,
      .act .heartbeat, .act .watchResume]
  have hp : p.isSome := by decide +kernel
  have hrun := Machine.execIf_eq_some.mp (Option.some_get hp).symm
  exact ⟨p.get hp, (heartbeat_exact _ darkLight darkLight_begins _ _ hrun).1⟩

/-- Each trip begins at the deadline. -/
abbrev AtDeadline (A : Actuator L) (s : Reporting L) (a : ReportingAction ι L) : Prop :=
  a matches .act .watchTimeout → s.state.now = s.state.lastBeat + A.heartbeatTimeoutS

/-- No drive of a trip begins while the last beat is younger than the timeout. -/
abbrev AfterDeadline (A : Actuator L) (s : Reporting L) (a : ReportingAction ι L) : Prop :=
  a matches .act .watchTimeout ∨ a matches .act .watchRetry →
    s.state.lastBeat + A.heartbeatTimeoutS ≤ s.state.now

/-- A trip at 30 whose first drive fails; a beat at 30.5; the retry at 31, which takes until 71; and
the trip that this beat's deadline calls for, at 71. -/
theorem not_heartbeat_exact :
    ¬ (∀ (as : List (ReportingAction Unit ActuatorLevel)) (p : Reporting ActuatorLevel × Watch),
      (watching Unit (lightRegistration .pca9685)).RunIf
        (fun p a => Prompt (lightRegistration .pca9685) p.1 a) (darkLight, ⟨0, 0⟩) as p →
      (watching Unit (lightRegistration .pca9685)).RunIf
        (fun p a => AtDeadline (lightRegistration .pca9685) p.1 a) (darkLight, ⟨0, 0⟩) as p) ∧
    ¬ (∀ (as : List (ReportingAction Unit ActuatorLevel)) (p : Reporting ActuatorLevel × Watch),
      (watching Unit (lightRegistration .pca9685)).RunIf
        (fun p a => Prompt (lightRegistration .pca9685) p.1 a) (darkLight, ⟨0, 0⟩) as p →
      (watching Unit (lightRegistration .pca9685)).RunIf
        (fun p a => AfterDeadline (lightRegistration .pca9685) p.1 a) (darkLight, ⟨0, 0⟩) as p) := by
  let M := watching Unit (lightRegistration .pca9685)
  let as : List (ReportingAction Unit ActuatorLevel) :=
    [.act (.tick 30), .act .watchTimeout, .act (.fail 0), .act (.complete 0), .act .watchReported,
      .act (.tick (1 / 2)), .act .heartbeat, .act (.tick (1 / 2)), .act .watchRetry,
      .act (.tick 40), .act (.write 0), .act (.complete 0), .sinkEnds 0, .act .watchResume,
      .act .watchTimeout]
  let p := M.execIf (fun p a => Prompt (lightRegistration .pca9685) p.1 a) (darkLight, ⟨0, 0⟩) as
  have hp : p.isSome := by decide +kernel
  have hrun := Machine.execIf_eq_some.mp (Option.some_get hp).symm
  refine ⟨fun h => ?_, fun h => ?_⟩
  · have hlit := Machine.execIf_eq_some.mpr (h _ _ hrun)
    have hnone : (M.execIf (fun p a => AtDeadline (lightRegistration .pca9685) p.1 a)
      (darkLight, ⟨0, 0⟩) as).isSome = false := by decide +kernel
    rw [hlit] at hnone
    cases hnone
  · have hlit := Machine.execIf_eq_some.mpr (h _ _ hrun)
    have hnone : (M.execIf (fun p a => AfterDeadline (lightRegistration .pca9685) p.1 a)
      (darkLight, ⟨0, 0⟩) as).isSome = false := by decide +kernel
    rw [hlit] at hnone
    cases hnone

end BellasReef.HardwareIO
