import BellasReef.HardwareIO.W1Slave
import BellasReef.Support.Awaiting
import BellasReef.Support.Machine
import BellasReef.Support.Mutex

/-!
# HardwareIO — One wire

`DS18B20.read` (`drivers/onewire.py`), for any number of probes on any number of bus masters: the
lock of a bus, the threads that hold it for longer than anybody awaits them, and the samples.

* `Sound.step`: who holds a lock is in `_blocking_read`, and what a read came to is of its own
  thread.
* `probe_reads_iff`: reads of one bus do not overlap, each that is not cancelled ends with a sample,
  and the sample is truthful, exactly if no read gets a content in time that is not legible.
* `read_raises`: a byte that is not UTF-8 is one.
-/

namespace BellasReef.HardwareIO.OneWire
open BellasReef.Support
open BellasReef.ControlEngine (Quality)

variable {δ β κ ι : Type}

/-! ### Reads -/

/-- What `read_text` may raise. -/
inductive ThreadError where
  | osError
  | unicodeDecodeError

/-- Where `_read_locked` is, in its thread. -/
inductive Thread where
  /-- In the executor's queue, or at the lock. -/
  | queued
  /-- In `_blocking_read`, with the lock. -/
  | reading
  /-- The lock is released; there is no content where `read_text` raised `OSError`. -/
  | finished (content : Option ByteArray)

/-- What a thread that is finished returns, or raises. -/
def outcome : Option ByteArray → Except ThreadError Text
  | none => .error .osError
  | some content => (readText content).elim (.error .unicodeDecodeError) .ok

/-- Where `read` is. -/
inductive Stage (ι : Type) where
  /-- In `wait_for`. -/
  | waiting (w : Awaiting Text ThreadError Unit)
  | ended (result : Except ReadError (Sample ι))

/-- A call of `read`, with its thread.  A lock is named by the call that made it. -/
structure Reading (δ κ ι : Type) where
  probe : δ
  lock : κ
  thread : Thread
  /-- `read_timeout_s` has passed. -/
  expired : Bool
  /-- Somebody has cancelled it. -/
  cancelled : Bool
  stage : Stage ι

/-- The drivers: which bus master each is on, and what a letter or a digit is. -/
structure Drivers (δ β : Type) where
  busMaster : δ → β
  isAlnum : Char → Bool

/-- The module and its drivers, and the calls of `read` so far. -/
structure Wire (δ β κ ι : Type) where
  /-- `_BUS_LOCKS`. -/
  busLocks : β → Option κ
  holder : κ → Option κ
  calibration : δ → Calibration ι
  reads : κ → Option (Reading δ κ ι)

/-- A read begins, waits, takes the lock or ends; or a probe is calibrated. -/
inductive WireAction (δ κ ι : Type) where
  /-- `calibrate`, whatever it fits. -/
  | calibrates (d : δ) (c : Calibration ι)
  | begins (k : κ) (d : δ)
  /-- The thread gets the lock. -/
  | acquires (k : κ)
  /-- `read_text` is over. -/
  | reads (k : κ) (content : Option ByteArray)
  /-- The event loop hears of the thread. -/
  | delivers (k : κ)
  | expires (k : κ)
  | cancels (k : κ)
  /-- The event loop goes on with `read`. -/
  | resumes (k : κ)

/-- What is left of `read`, after its `await`.  A timeout is a cancellation that nobody else asked
for. -/
def Reading.result (D : Drivers δ β) (r : Reading δ κ ι) (c : Calibration ι) :
    Wakeup Text ThreadError Unit → Except ReadError (Sample ι)
  | .returns text => parse D.isAlnum c text
  | .raises .osError => .ok (fault c)
  | .raises .unicodeDecodeError => .error .unicodeDecodeError
  | .cancels _ => if r.cancelled then .error .cancelledError else .ok (fault c)

section Steps
variable [DecidableEq δ] [DecidableEq β] [DecidableEq κ]

/-- Read `k` is now at `r`. -/
def Wire.set (w : Wire δ β κ ι) (k : κ) (r : Reading δ κ ι) : Wire δ β κ ι :=
  { w with reads := Function.update w.reads k (some r) }

/-- `_bus_lock`. -/
def Wire.busLock (w : Wire δ β κ ι) (bus : β) (new : κ) : κ := (w.busLocks bus).getD new

/-- One step. -/
def Wire.step (D : Drivers δ β) (w : Wire δ β κ ι) : WireAction δ κ ι → Option (Wire δ β κ ι)
  | .calibrates d c => some { w with calibration := Function.update w.calibration d c }
  | .begins k d =>
      match w.reads k with
      | some _ => none
      | none =>
          let lock := w.busLock (D.busMaster d) k
          some { (w.set k ⟨d, lock, .queued, false, false, .waiting .pending⟩) with
            busLocks := Function.update w.busLocks (D.busMaster d) (some lock) }
  | .acquires k => (w.reads k).bind fun r =>
      match r.thread, w.holder r.lock with
      | .queued, none =>
          some { (w.set k { r with thread := .reading }) with
            holder := Function.update w.holder r.lock (some k) }
      | _, _ => none
  | .reads k content => (w.reads k).bind fun r =>
      match r.thread with
      | .reading =>
          some { (w.set k { r with thread := .finished content }) with
            holder := Function.update w.holder r.lock none }
      | _ => none
  | .delivers k => (w.reads k).bind fun r =>
      match r.thread, r.stage with
      | .finished content, .waiting .pending =>
          some (w.set k { r with stage := .waiting (.finished (outcome content) none) })
      | _, _ => none
  | .expires k => (w.reads k).bind fun r =>
      match r.expired, r.stage with
      | false, .waiting a =>
          some (w.set k { r with expired := true, stage := .waiting (a.cancel ()) })
      | _, _ => none
  | .cancels k => (w.reads k).bind fun r =>
      match r.stage with
      | .waiting a => some (w.set k { r with cancelled := true, stage := .waiting (a.cancel ()) })
      | .ended _ => none
  | .resumes k => (w.reads k).bind fun r =>
      match r.stage with
      | .waiting a => a.wakeup.map fun wakeup =>
          w.set k { r with stage := .ended (r.result D (w.calibration r.probe) wakeup) }
      | .ended _ => none

/-- The drivers at work. -/
def probes (κ ι : Type) [DecidableEq κ] (D : Drivers δ β) :
    Machine (Wire δ β κ ι) (WireAction δ κ ι) :=
  ⟨Wire.step D⟩

/-- Before the first read. -/
def Wire.start (calibration : δ → Calibration ι) : Wire δ β κ ι :=
  ⟨fun _ => none, fun _ => none, calibration, fun _ => none⟩

/-- The calibration that was in force, when a read went on. -/
def inForce (w : Wire δ β κ ι) (a : WireAction δ κ ι) (_ : Wire δ β κ ι)
    (n : κ → Option (Calibration ι)) : κ → Option (Calibration ι) :=
  match a with
  | .resumes k => Function.update n k ((w.reads k).map fun r => w.calibration r.probe)
  | _ => n

/-- The drivers at work, with the calibrations that were in force. -/
abbrev notedProbes (κ ι : Type) [DecidableEq κ] (D : Drivers δ β) :
    Machine (Wire δ β κ ι × (κ → Option (Calibration ι))) (WireAction δ κ ι) :=
  (probes κ ι D).ghost inForce

end Steps

/-! ### Invariants -/

/-- What `read` makes of its thread's content, if it is in time. -/
def answer (D : Drivers δ β) (c : Calibration ι) (content : Option ByteArray) :
    Except ReadError (Sample ι) :=
  match outcome content with
  | .ok text => parse D.isAlnum c text
  | .error .osError => .ok (fault c)
  | .error .unicodeDecodeError => .error .unicodeDecodeError

/-- A thread is in `_blocking_read`, with this lock. -/
def Holds (lock : κ) (r : Option (Reading δ κ ι)) : Prop :=
  ∃ r' ∈ r, r'.lock = lock ∧ r'.thread = .reading

/-- What a read that is over came to, of nothing but its own thread. -/
def OverOk (D : Drivers δ β) (r : Reading δ κ ι) (c : Calibration ι)
    (result : Except ReadError (Sample ι)) : Prop :=
  r.cancelled = true ∨ r.expired = true ∧ result = .ok (fault c) ∨
    r.expired = false ∧ ∃ content, r.thread = .finished content ∧ result = answer D c content

/-- What is known of a read, with the calibration that was in force. -/
def ReadingOk (D : Drivers δ β) (c : Option (Calibration ι)) (r : Reading δ κ ι) : Prop :=
  match r.stage with
  | .waiting a =>
      (a.told = none ↔ r.expired = false ∧ r.cancelled = false) ∧
        ∀ o msg, a = .finished o msg → ∃ content, r.thread = .finished content ∧ o = outcome content
  | .ended result => ∃ c' ∈ c, OverOk D r c' result

/-- One lock for a bus, whose holder is in `_blocking_read`; and what is known of each read. -/
structure Sound (D : Drivers δ β) (w : Wire δ β κ ι) (n : κ → Option (Calibration ι)) : Prop where
  locks : ∀ k r, w.reads k = some r → w.busLocks (D.busMaster r.probe) = some r.lock
  held : ∀ lock, Held (w.holder lock) (Holds lock) w.reads
  readings : ∀ k r, w.reads k = some r → ReadingOk D (n k) r

variable {D : Drivers δ β} {w w' : Wire δ β κ ι} {n : κ → Option (Calibration ι)}
  {a : WireAction δ κ ι} {k : κ} {r r' : Reading δ κ ι} {c : Calibration ι}

/-- Nothing is being read. -/
theorem sound_start (D : Drivers δ β) (calibration : δ → Calibration ι) :
    Sound D (.start calibration : Wire δ β κ ι) fun _ => none where
  locks _ _ h := by cases h
  held _ _ := iff_of_false nofun fun ⟨_, h, _⟩ => by cases h
  readings _ _ h := by cases h

/-- **Two reads of one bus are not in `_blocking_read` at once.** -/
theorem Sound.serial (hw : Sound D w n) {j : κ} (hj : w.reads j = some r) (hk : w.reads k = some r')
    (hbus : D.busMaster r.probe = D.busMaster r'.probe) (hr : r.thread = .reading)
    (hr' : r'.thread = .reading) : j = k := by
  have hlock : r.lock = r'.lock := by
    have hr := hw.locks j r hj
    rw [hbus, hw.locks k r' hk] at hr
    exact (Option.some.inj hr).symm
  exact (hw.held r'.lock).unique ⟨r, hj, hlock, hr⟩ ⟨r', hk, rfl, hr'⟩

/-- A thread goes on, while nothing is known of it. -/
theorem ReadingOk.goes {o : Option (Calibration ι)} {t : Thread} (hr : ReadingOk D o r)
    (ht : ∀ content, r.thread ≠ .finished content) : ReadingOk D o { r with thread := t } := by
  obtain ⟨d, l, th, e, x, stage⟩ := r
  cases stage with
  | waiting a =>
      refine ⟨hr.1, fun out msg he => ?_⟩
      obtain ⟨content, hc, -⟩ := hr.2 out msg he
      exact absurd hc (ht content)
  | ended result =>
      obtain ⟨c, hc, h | h | ⟨-, content, h, -⟩⟩ := hr
      · exact ⟨c, hc, .inl h⟩
      · exact ⟨c, hc, .inr (.inl h)⟩
      · exact absurd h (ht content)

/-- A cancellation, whoever asks for it, leaves the thread as it is. -/
theorem ReadingOk.cancel {o : Option (Calibration ι)} {aw : Awaiting Text ThreadError Unit}
    {expired cancelled : Bool} (hr : ReadingOk D o r) (hs : r.stage = .waiting aw)
    (hflag : expired = true ∨ cancelled = true) :
    ReadingOk D o { r with
      expired := expired, cancelled := cancelled, stage := .waiting (aw.cancel ()) } := by
  obtain ⟨d, l, th, e, x, stage⟩ := r
  obtain rfl : stage = .waiting aw := hs
  refine ⟨?_, fun out msg he => ?_⟩
  · have htold := aw.told_cancel ()
    refine iff_of_false (fun h => ?_) ?_
    · rw [h] at htold
      cases htold
    · rintro ⟨rfl, rfl⟩
      exact hflag.elim nofun nofun
  · obtain ⟨m, hm⟩ := Awaiting.finished_of_cancel he
    exact hr.2 out m hm

/-- **What a read comes to** is of its own thread, which was in time. -/
theorem ReadingOk.resume {o : Option (Calibration ι)} {aw : Awaiting Text ThreadError Unit}
    {wakeup : Wakeup Text ThreadError Unit} (hr : ReadingOk D o r) (hs : r.stage = .waiting aw)
    (hw : aw.wakeup = some wakeup) (c : Calibration ι) : OverOk D r c (r.result D c wakeup) := by
  obtain ⟨d, l, th, e, x, stage⟩ := r
  obtain rfl : stage = .waiting aw := hs
  obtain ⟨htold, hown⟩ := hr
  cases ht : aw.told with
  | none =>
      obtain ⟨rfl, rfl⟩ := htold.mp ht
      obtain ⟨out, rfl, rfl⟩ := Awaiting.finished_of_wakeup hw ht
      obtain ⟨content, hthread, rfl⟩ := hown out none rfl
      refine .inr (.inr ⟨rfl, content, hthread, ?_⟩)
      rw [answer]
      obtain ⟨_ | _⟩ | text := outcome content <;> rfl
  | some msg =>
      obtain rfl : wakeup = .cancels msg :=
        Option.some.inj (hw.symm.trans (Awaiting.wakeup_cancels_iff.mpr ht))
      cases x with
      | true => exact .inl rfl
      | false =>
          -- nobody has cancelled it but the timer
          have hexpired : ¬(e = false ∧ false = false) := fun h => by
            rw [htold.mpr h] at ht
            cases ht
          exact .inr (.inl ⟨by simpa using hexpired, rfl⟩)

section Steps
variable [DecidableEq κ]

/-- One read goes on, with its lock. -/
theorem Sound.set {holder : κ → Option κ} {m : κ → Option (Calibration ι)} (hw : Sound D w n)
    (hk : w.reads k = some r) (hprobe : r'.probe = r.probe) (hlock : r'.lock = r.lock)
    (hheld : ∀ lock, Held (holder lock) (Holds lock) (Function.update w.reads k (some r')))
    (hm : ∀ j, j ≠ k → m j = n j) (hr' : ReadingOk D (m k) r') :
    Sound D { w.set k r' with holder := holder } m := by
  refine ⟨fun j r₁ hj => ?_, hheld, fun j r₁ hj => ?_⟩
  · change Function.update w.reads k (some r') j = some r₁ at hj
    by_cases he : j = k
    · subst he
      obtain rfl : r' = r₁ := by simpa using hj
      rw [hprobe, hlock]
      exact hw.locks j r hk
    · rw [Function.update_of_ne he] at hj
      exact hw.locks j r₁ hj
  · change Function.update w.reads k (some r') j = some r₁ at hj
    by_cases he : j = k
    · subst he
      obtain rfl : r' = r₁ := by simpa using hj
      exact hr'
    · rw [Function.update_of_ne he] at hj
      rw [hm j he]
      exact hw.readings j r₁ hj

/-- A read goes on, and its thread does not. -/
theorem Sound.stays {m : κ → Option (Calibration ι)} (hw : Sound D w n) (hk : w.reads k = some r)
    (hprobe : r'.probe = r.probe) (hlock : r'.lock = r.lock) (hthread : r'.thread = r.thread)
    (hm : ∀ j, j ≠ k → m j = n j) (hr' : ReadingOk D (m k) r') : Sound D (w.set k r') m := by
  refine hw.set hk hprobe hlock (fun lock => (hw.held lock).keep ?_) hm hr'
  simp [Holds, hk, hlock, hthread]

/-- Of a read that goes on, another lock hears nothing. -/
theorem Sound.held_other {lock : κ} (hw : Sound D w n) (hk : w.reads k = some r)
    (hlock : r'.lock = r.lock) (he : lock ≠ r.lock) :
    Held (w.holder lock) (Holds lock) (Function.update w.reads k (some r')) := by
  refine (hw.held lock).keep (iff_of_false ?_ ?_)
  · rintro ⟨_, ⟨⟩, h, -⟩
    exact he (hlock.symm.trans h).symm
  · rintro ⟨_, hr, h, -⟩
    obtain rfl := Option.some.inj (hk.symm.trans hr)
    exact he h.symm

/-- A thread gets its lock, or releases it. -/
theorem Sound.turns {t : Thread} {holder : Option κ} (hw : Sound D w n) (hk : w.reads k = some r)
    (ht : ∀ content, r.thread ≠ .finished content)
    (hheld : Held holder (Holds r.lock)
      (Function.update w.reads k (some { r with thread := t }))) :
    Sound D { w.set k { r with thread := t } with
      holder := Function.update w.holder r.lock holder } n := by
  refine hw.set hk rfl rfl (fun lock => ?_) (fun _ _ => rfl) ((hw.readings k r hk).goes ht)
  by_cases he : lock = r.lock
  · subst he
    rwa [Function.update_self]
  · rw [Function.update_of_ne he]
    exact hw.held_other hk rfl he

variable [DecidableEq δ] [DecidableEq β]

omit [DecidableEq δ] in
/-- A call begins with the lock that its bus has, if it has one. -/
theorem Sound.begins {d : δ} (hw : Sound D w n) (hk : w.reads k = none) :
    Sound D { (w.set k ⟨d, w.busLock (D.busMaster d) k, .queued, false, false, .waiting .pending⟩) with
      busLocks := Function.update w.busLocks (D.busMaster d) (some (w.busLock (D.busMaster d) k)) }
      n := by
  refine ⟨fun j r hj => ?_, fun lock => (hw.held lock).keep ?_, fun j r hj => ?_⟩
  · change Function.update w.reads k _ j = some r at hj
    change Function.update w.busLocks _ _ _ = _
    by_cases he : j = k
    · subst he
      rw [Function.update_self] at hj
      obtain rfl := Option.some.inj hj
      exact Function.update_self ..
    · rw [Function.update_of_ne he] at hj
      have hlock := hw.locks j r hj
      by_cases hbus : D.busMaster r.probe = D.busMaster d
      · rw [hbus] at hlock ⊢
        rw [Function.update_self, Wire.busLock, hlock, Option.getD_some]
      · rw [Function.update_of_ne hbus, hlock]
  · simp [Holds, hk]
  · change Function.update w.reads k _ j = some r at hj
    by_cases he : j = k
    · subst he
      rw [Function.update_self] at hj
      obtain rfl := Option.some.inj hj
      exact ⟨by simp [Awaiting.told], fun o msg h => by cases h⟩
    · rw [Function.update_of_ne he] at hj
      exact hw.readings j r hj

/-- **Every step** keeps the locks and what is known of the reads. -/
theorem Sound.step (hw : Sound D w n) (hs : w.step D a = some w') :
    Sound D w' (inForce w a w' n) := by
  cases a with
  | calibrates d c =>
      obtain rfl := Option.some.inj hs
      exact ⟨hw.locks, hw.held, hw.readings⟩
  | begins k d =>
      rw [Wire.step] at hs
      split at hs
      · cases hs
      · next hk =>
          obtain rfl := Option.some.inj hs
          exact hw.begins hk
  | acquires k =>
      obtain ⟨r, hk, hs⟩ := Option.bind_eq_some_iff.mp hs
      split at hs
      · next hthread hfree =>
          obtain rfl := Option.some.inj hs
          have hheld : Held none (Holds r.lock) w.reads := hfree ▸ hw.held r.lock
          exact hw.turns hk (by rw [hthread]; nofun) (hheld.take ⟨_, rfl, rfl, rfl⟩)
      · cases hs
  | reads k content =>
      obtain ⟨r, hk, hs⟩ := Option.bind_eq_some_iff.mp hs
      split at hs
      · next hthread =>
          obtain rfl := Option.some.inj hs
          refine hw.turns hk (by rw [hthread]; nofun)
            ((hw.held r.lock).release ⟨r, hk, rfl, hthread⟩ ?_)
          rintro ⟨_, ⟨⟩, -, hthread'⟩
          cases hthread'
      · cases hs
  | delivers k =>
      obtain ⟨r, hk, hs⟩ := Option.bind_eq_some_iff.mp hs
      split at hs
      · next content hthread hstage =>
          obtain rfl := Option.some.inj hs
          refine hw.stays hk rfl rfl rfl (fun _ _ => rfl) ⟨?_, fun o msg h => ?_⟩
          · have hr := hw.readings k r hk
            rw [ReadingOk, hstage] at hr
            exact hr.1
          · obtain ⟨rfl, -⟩ := Awaiting.finished.inj h
            exact ⟨content, hthread, rfl⟩
      · cases hs
  | expires k =>
      obtain ⟨r, hk, hs⟩ := Option.bind_eq_some_iff.mp hs
      split at hs
      · next aw _ hstage =>
          obtain rfl := Option.some.inj hs
          exact hw.stays hk rfl rfl rfl (fun _ _ => rfl)
            ((hw.readings k r hk).cancel hstage (.inl rfl))
      · cases hs
  | cancels k =>
      obtain ⟨r, hk, hs⟩ := Option.bind_eq_some_iff.mp hs
      split at hs
      · next aw hstage =>
          obtain rfl := Option.some.inj hs
          exact hw.stays hk rfl rfl rfl (fun _ _ => rfl)
            ((hw.readings k r hk).cancel hstage (.inr rfl))
      · cases hs
  | resumes k =>
      obtain ⟨r, hk, hs⟩ := Option.bind_eq_some_iff.mp hs
      split at hs
      · next aw hstage =>
          obtain ⟨wakeup, hwakeup, rfl⟩ := Option.map_eq_some_iff.mp hs
          refine hw.stays hk rfl rfl rfl (fun j hj => Function.update_of_ne hj ..) ?_
          refine ⟨w.calibration r.probe, ?_, (hw.readings k r hk).resume hstage hwakeup _⟩
          simp [inForce, hk]
      · cases hs

/-- What a step does to the read `k`. -/
inductive Goes (D : Drivers δ β) (w : Wire δ β κ ι) (a : WireAction δ κ ι) (k : κ) :
    Option (Reading δ κ ι) → Option (Reading δ κ ι) → Prop where
  | stays (o : Option (Reading δ κ ι)) : Goes D w a k o o
  | begins (r : Reading δ κ ι) (aw) (hr : r.stage = .waiting aw) : Goes D w a k none (some r)
  | thread (r : Reading δ κ ι) (t : Thread) : Goes D w a k (some r) (some { r with thread := t })
  | awaits (r r' : Reading δ κ ι) (aw aw') (hr : r.stage = .waiting aw)
      (hr' : r'.stage = .waiting aw') : Goes D w a k (some r) (some r')
  | resumes (r : Reading δ κ ι) (aw wakeup) (ha : a = .resumes k) (hr : r.stage = .waiting aw)
      (hw : aw.wakeup = some wakeup) :
      Goes D w a k (some r)
        (some { r with stage := .ended (r.result D (w.calibration r.probe) wakeup) })

/-- A step takes each read on by one of `Goes`. -/
theorem step_goes (hs : w.step D a = some w') (k : κ) :
    Goes D w a k (w.reads k) (w'.reads k) := by
  -- only the read that steps is changed
  have hset : ∀ j r', (j = k → Goes D w a k (w.reads j) (some r')) →
      Goes D w a k (w.reads k) (Function.update w.reads j (some r') k) := by
    intro j r' h
    by_cases he : j = k
    · subst he
      rw [Function.update_self]
      exact h rfl
    · rw [Function.update_of_ne (Ne.symm he)]
      exact .stays _
  cases a with
  | calibrates d c =>
      obtain rfl := Option.some.inj hs
      exact .stays _
  | begins j d =>
      rw [Wire.step] at hs
      split at hs
      · cases hs
      · next hj =>
          obtain rfl := Option.some.inj hs
          exact hset j _ fun _ => hj ▸ .begins _ _ rfl
  | acquires j | reads j content =>
      obtain ⟨r, hj, hs⟩ := Option.bind_eq_some_iff.mp hs
      split at hs
      · obtain rfl := Option.some.inj hs
        exact hset j _ fun _ => hj ▸ .thread r _
      · cases hs
  | delivers j | expires j | cancels j =>
      obtain ⟨r, hj, hs⟩ := Option.bind_eq_some_iff.mp hs
      split at hs
      · next hstage =>
          obtain rfl := Option.some.inj hs
          exact hset j _ fun _ => hj ▸ .awaits _ _ _ _ hstage rfl
      · cases hs
  | resumes j =>
      obtain ⟨r, hj, hs⟩ := Option.bind_eq_some_iff.mp hs
      split at hs
      · next aw hstage =>
          obtain ⟨wakeup, hwakeup, rfl⟩ := Option.map_eq_some_iff.mp hs
          exact hset j _ fun he => hj ▸ .resumes r aw wakeup (he ▸ rfl) hstage hwakeup
      · cases hs

/-- A step leaves a read that is over as it is, but for its thread. -/
theorem over_step {result : Except ReadError (Sample ι)} (hk : w.reads k = some r)
    (hover : r.stage = .ended result) (hs : w.step D a = some w') :
    ∃ r', w'.reads k = some r' ∧ r'.cancelled = r.cancelled ∧ r'.stage = .ended result := by
  have hgoes := step_goes hs k
  rw [hk] at hgoes
  generalize w'.reads k = o at hgoes
  cases hgoes with
  | stays => exact ⟨r, rfl, rfl, hover⟩
  | thread _ t => exact ⟨_, rfl, rfl, hover⟩
  | awaits _ _ aw aw' hr hr' => cases hover.symm.trans hr
  | resumes _ aw wakeup ha hr hw => cases hover.symm.trans hr

/-- A read that is over was so, or has just gone on. -/
theorem over_origin {result : Except ReadError (Sample ι)} (hk : w'.reads k = some r')
    (hover : r'.stage = .ended result) (hs : w.step D a = some w') :
    (∃ r, w.reads k = some r ∧ r.cancelled = r'.cancelled ∧ r.stage = .ended result) ∨
      a = .resumes k ∧ ∃ r aw wakeup, w.reads k = some r ∧ r.stage = .waiting aw ∧
        aw.wakeup = some wakeup ∧ r.cancelled = r'.cancelled ∧
        result = r.result D (w.calibration r.probe) wakeup := by
  have hgoes := step_goes hs k
  rw [hk] at hgoes
  generalize w.reads k = o at hgoes
  cases hgoes with
  | stays => exact .inl ⟨r', rfl, rfl, hover⟩
  | begins _ aw hr => cases hover.symm.trans hr
  | thread r t => exact .inl ⟨r, rfl, rfl, hover⟩
  | awaits _ _ aw aw' hr hr' => cases hover.symm.trans hr'
  | resumes r aw wakeup ha hr hw =>
      exact .inr ⟨ha, r, aw, wakeup, rfl, hr, hw, rfl, (Stage.ended.inj hover).symm⟩

end Steps

/-! ### What a read gives -/

/-- A content that `read` gets through. -/
def Thread.legible (isAlnum : Char → Bool) : Thread → Bool
  | .finished (some content) => OneWire.legible isAlnum content
  | _ => true

/-- What a step must not be: `read` goes on, in time, with a content that is not legible. -/
def Legible (D : Drivers δ β) (p : Wire δ β κ ι × (κ → Option (Calibration ι))) :
    WireAction δ κ ι → Prop
  | .resumes k => ∀ r ∈ p.1.reads k, r.expired = false → r.cancelled = false →
      r.thread.legible D.isAlnum = true
  | _ => True

instance (p : Wire δ β κ ι × (κ → Option (Calibration ι))) :
    (a : WireAction δ κ ι) → Decidable (Legible D p a)
  | .resumes _ => inferInstanceAs (Decidable (∀ _ ∈ _, _))
  | .calibrates .. | .begins .. | .acquires _ | .reads .. | .delivers _ | .expires _ | .cancels _ =>
      .isTrue trivial

/-- A sample that does not lie. -/
structure Truthful (D : Drivers δ β) (r : Reading δ κ ι) (c : Calibration ι) (sample : Sample ι) :
    Prop where
  ok : sample.quality = .ok → r.expired = false ∧ ∃ content text group millic raw,
    r.thread = .finished (some content) ∧ readText content = some text ∧
      crcVerdict text = some yes ∧ temperature D.isAlnum text = some group ∧
      IntText.int group = some millic ∧ millic ≠ powerOnResetMillic ∧ celsius millic = some raw ∧
      sample.raw = some raw ∧ sample.value = some (raw + c.offset)
  otherwise : sample.quality ≠ .ok → sample = fault c

/-- What is promised of the reads so far, with the calibrations that were in force. -/
structure ProbeReads [DecidableEq δ] [DecidableEq β] [DecidableEq κ] (D : Drivers δ β)
    (w : Wire δ β κ ι) (n : κ → Option (Calibration ι)) : Prop where
  serial : ∀ j k r r', w.reads j = some r → w.reads k = some r' →
    D.busMaster r.probe = D.busMaster r'.probe → r.thread = .reading → r'.thread = .reading → j = k
  /-- Its own deadline ends a read. -/
  ends : ∀ k r, w.reads k = some r → r.cancelled = false → ∃ as w' r' result,
    (∀ a ∈ as, a = .expires k ∨ a = .resumes k) ∧ (probes κ ι D).Run w as w' ∧
      w'.reads k = some r' ∧ r'.cancelled = false ∧ r'.stage = .ended result
  samples : ∀ k r result, w.reads k = some r → r.cancelled = false → r.stage = .ended result →
    ∃ c ∈ n k, ∃ sample, result = .ok sample ∧ Truthful D r c sample

theorem truthful_fault (D : Drivers δ β) (r : Reading δ κ ι) (c : Calibration ι) :
    Truthful D r c (fault c) where
  ok h := by cases h
  otherwise _ := rfl

/-- A read returns what the driver could make out, or a fault; else it raises. -/
theorem answer_returns_iff {content : Option ByteArray} :
    (∃ sample, answer D c content = .ok sample) ↔
      (Thread.finished content).legible D.isAlnum = true := by
  cases content with
  | none => exact iff_of_true ⟨_, rfl⟩ rfl
  | some content =>
      rw [Thread.legible, OneWire.legible, answer, outcome]
      cases readText content with
      | none => simp
      | some text => exact parse_returns_iff

/-- A sample of a read's own thread, in time, does not lie. -/
theorem truthful_answer {content : Option ByteArray} {sample : Sample ι}
    (hexpired : r.expired = false) (hthread : r.thread = .finished content)
    (h : answer D c content = .ok sample) : Truthful D r c sample := by
  cases content with
  | none =>
      obtain rfl := Except.ok.inj h
      exact truthful_fault D r c
  | some content =>
      rw [answer, outcome] at h
      cases htext : readText content with
      | none =>
          rw [htext] at h
          cases h
      | some text =>
          rw [htext] at h
          obtain rfl | ⟨hyes, group, millic, raw, htemp, hint, hreset, hraw, rfl⟩ := parse_sound h
          · exact truthful_fault D r c
          · refine ⟨fun _ => ⟨hexpired, content, text, group, millic, raw, hthread, htext, hyes, htemp,
              hint, hreset, hraw, rfl, rfl⟩, fun hq => absurd rfl hq⟩

/-- A read that was not cancelled has raised. -/
def Raised (w : Wire δ β κ ι) : Prop :=
  ∃ k r e, w.reads k = some r ∧ r.cancelled = false ∧ r.stage = .ended (.error e)

section Steps
variable [DecidableEq δ] [DecidableEq β] [DecidableEq κ]

/-- A read that goes on with what is legible does not raise. -/
theorem Sound.not_raised (hw : Sound D w n) (hC : Legible D (w, n) a) (hr : ¬Raised w)
    (hs : w.step D a = some w') : ¬Raised w' := by
  rintro ⟨k, r', e, hk', hcancelled, hover⟩
  obtain ⟨r, hk, hsame, hr'⟩ | ⟨rfl, r, aw, wakeup, hk, hstage, hwakeup, hsame, hresult⟩ :=
    over_origin hk' hover hs
  · exact hr ⟨k, r, e, hk, hsame.trans hcancelled, hr'⟩
  · obtain h | ⟨-, h⟩ | ⟨hexpired, content, hthread, h⟩ :=
      (hw.readings k r hk).resume hstage hwakeup (w.calibration r.probe)
    · rw [hsame, hcancelled] at h
      cases h
    · rw [h] at hresult
      cases hresult
    · have hlegible := hC r hk hexpired (hsame.trans hcancelled)
      rw [hthread] at hlegible
      obtain ⟨sample, hsample⟩ := (answer_returns_iff (c := w.calibration r.probe)).mpr hlegible
      rw [h, hsample] at hresult
      cases hresult

/-- With what is not, it does. -/
theorem Sound.raises (hw : Sound D w n) (hC : ¬Legible D (w, n) a)
    (hs : w.step D a = some w') : Raised w' := by
  cases a with
  | resumes k =>
      simp only [Legible, not_forall] at hC
      obtain ⟨r, hk, hexpired, hcancelled, hlegible⟩ := hC
      obtain ⟨r₁, hk₁, hs⟩ := Option.bind_eq_some_iff.mp hs
      obtain rfl : r = r₁ := Option.some.inj (Eq.trans (Eq.symm hk) hk₁)
      split at hs
      · next aw hstage =>
          obtain ⟨wakeup, hwakeup, rfl⟩ := Option.map_eq_some_iff.mp hs
          obtain h | ⟨h, -⟩ | ⟨-, content, hthread, h⟩ :=
            (hw.readings k r hk₁).resume hstage hwakeup (w.calibration r.probe)
          · cases hcancelled.symm.trans h
          · cases hexpired.symm.trans h
          · rw [hthread, ← answer_returns_iff (c := w.calibration r.probe)] at hlegible
            cases hanswer : answer D (w.calibration r.probe) content with
            | ok sample => exact absurd ⟨sample, hanswer⟩ hlegible
            | error e =>
                refine ⟨k, { r with stage := .ended (.error e) }, e, ?_, hcancelled, rfl⟩
                rw [h, hanswer]
                exact Function.update_self ..
      · cases hs
  | _ => exact absurd trivial hC

/-- What has raised has raised. -/
theorem Raised.step (h : Raised w) (hs : w.step D a = some w') : Raised w' := by
  obtain ⟨k, r, e, hk, hcancelled, hover⟩ := h
  obtain ⟨r', hk', hsame, hover'⟩ := over_step hk hover hs
  exact ⟨k, r', e, hk', hsame.trans hcancelled, hover'⟩

omit [DecidableEq δ] [DecidableEq β] in
@[simp] theorem set_reads (w : Wire δ β κ ι) (k : κ) (r : Reading δ κ ι) :
    (w.set k r).reads k = some r :=
  Function.update_self ..

theorem step_resumes {aw : Awaiting Text ThreadError Unit}
    {wakeup : Wakeup Text ThreadError Unit} (hk : w.reads k = some r)
    (hstage : r.stage = .waiting aw) (hwakeup : aw.wakeup = some wakeup) :
    w.step D (.resumes k) = some (w.set k
      { r with stage := .ended (r.result D (w.calibration r.probe) wakeup) }) := by
  simp [Wire.step, hk, hstage, hwakeup]

theorem step_expires {aw : Awaiting Text ThreadError Unit} (hk : w.reads k = some r)
    (hstage : r.stage = .waiting aw) (hexpired : r.expired = false) :
    w.step D (.expires k) = some (w.set k
      { r with expired := true, stage := .waiting (aw.cancel ()) }) := by
  simp [Wire.step, hk, hstage, hexpired]

/-- **A read ends**, by its own deadline at the latest. -/
theorem Sound.ends (hw : Sound D w n) (hk : w.reads k = some r) (hcancelled : r.cancelled = false) :
    ∃ as w' r' result, (∀ a ∈ as, a = .expires k ∨ a = .resumes k) ∧
      (probes κ ι D).Run w as w' ∧ w'.reads k = some r' ∧ r'.cancelled = false ∧
        r'.stage = .ended result := by
  have hok := hw.readings k r hk
  cases hstage : r.stage with
  | ended result => exact ⟨[], w, r, result, by simp, .refl _, hk, hcancelled, hstage⟩
  | waiting aw =>
      rw [ReadingOk, hstage] at hok
      cases hwakeup : aw.wakeup with
      | some wakeup =>
          exact ⟨[.resumes k], _, _, _, by simp, .one trivial (step_resumes hk hstage hwakeup),
            set_reads .., hcancelled, rfl⟩
      | none =>
          -- nothing has come of it yet: it has its deadline
          obtain rfl : aw = .pending := by
            rcases aw with _ | ⟨_ | _, _ | _⟩ | _ <;> first | rfl | cases hwakeup
          have hexpires := step_expires (D := D) hk hstage (hok.1.mp rfl).1
          have hset :=
            set_reads w k { r with expired := true, stage := .waiting (Awaiting.cancelled ()) }
          have hresumes := step_resumes (D := D) hset rfl rfl
          exact ⟨[.expires k, .resumes k], _, _, _, by simp,
            .more trivial hexpires (.one trivial hresumes), set_reads .., hcancelled, rfl⟩

theorem Sound.probeReads (hw : Sound D w n) (hr : ¬Raised w) : ProbeReads D w n where
  serial j k r r' hj hk hbus hreading hreading' := hw.serial hj hk hbus hreading hreading'
  ends k r hk hcancelled := hw.ends hk hcancelled
  samples k r result hk hcancelled hover := by
    have hok := hw.readings k r hk
    rw [ReadingOk, hover] at hok
    obtain ⟨c, hc, h | ⟨-, rfl⟩ | ⟨hexpired, content, hthread, rfl⟩⟩ := hok
    · cases hcancelled.symm.trans h
    · exact ⟨c, hc, fault c, rfl, truthful_fault D r c⟩
    · cases hanswer : answer D c content with
      | ok sample => exact ⟨c, hc, sample, rfl, truthful_answer hexpired hthread hanswer⟩
      | error e => exact absurd ⟨k, r, e, hk, hcancelled, hanswer ▸ hover⟩ hr

theorem ProbeReads.not_raised (h : ProbeReads D w n) : ¬Raised w := by
  rintro ⟨k, r, e, hk, hcancelled, hover⟩
  obtain ⟨c, -, sample, hresult, -⟩ := h.samples k r _ hk hcancelled hover
  cases hresult

/-- **A probe's reads.**  Whatever the schedule, and whatever is in the files: reads of one bus do
not overlap, each that is not cancelled ends with a sample, and the sample is of its own thread and
true, exactly if no read that is in time goes on with a content that is not legible. -/
theorem probe_reads_iff {calibration : δ → Calibration ι} {as : List (WireAction δ κ ι)}
    (h : (notedProbes κ ι D).Run (.start calibration, fun _ => none) as (w, n)) :
    ProbeReads D w n ↔
      (notedProbes κ ι D).RunIf (Legible D) (.start calibration, fun _ => none) as (w, n) := by
  have h₀ : Sound D (.start calibration : Wire δ β κ ι) (fun _ => none) := sound_start D calibration
  have hsound : ∀ p a q, (notedProbes κ ι D).step p a = some q → Sound D p.1 p.2 →
      Sound D q.1 q.2 := by
    rintro ⟨v, m⟩ a ⟨v', m'⟩ hs hp
    obtain ⟨hs, hm⟩ := Machine.ghost_step.mp hs
    obtain rfl : m' = inForce v a v' m := hm
    exact hp.step hs
  have hstep : ∀ {p a q}, (notedProbes κ ι D).step p a = some q → p.1.step D a = some q.1 :=
    fun hs => (Machine.ghost_step.mp hs).1
  constructor
  · intro hreads
    refine h.of_not_bad (I := fun p => Sound D p.1 p.2) (B := fun p => Raised p.1) h₀ ?_ ?_ ?_
      hreads.not_raised
    · exact fun p a q _ hp hs => hsound p a q hs hp
    · exact fun p a q hC hp hs => hp.raises hC (hstep hs)
    · exact fun p a q hr hs => hr.step (hstep hs)
  · intro hif
    have hend : Sound D w n ∧ ¬Raised w := by
      refine hif.invariant (I := fun p => Sound D p.1 p.2 ∧ ¬Raised p.1) ⟨h₀, ?_⟩ ?_
      · rintro ⟨k, r, e, hk, -⟩
        cases hk
      · exact fun p a q hC hp hs => ⟨hsound p a q hs hp.1, hp.1.not_raised hC hp.2 (hstep hs)⟩
    exact hend.1.probeReads hend.2

end Steps

/-- Two probes on one bus, of which letters and digits are ASCII's. -/
def twoProbes : Drivers Bool Unit := ⟨fun _ => (), Char.isAlphanum⟩

/-- No probe is calibrated. -/
def uncalibrated (_ : Bool) : Calibration Unit := ⟨0, none⟩

/-- The first read is late, and the second waits for its thread. -/
def straggler : List (WireAction Bool ℕ Unit) :=
  [.begins 0 false, .acquires 0, .begins 1 true, .expires 0, .resumes 0,
    .reads 0 (some "crc=21 YES\nt=-1250\n".toUTF8), .acquires 1,
    .reads 1 (some "crc=57 YES\nt=25187\n".toUTF8), .delivers 1, .resumes 1]

theorem probe_reads_straggler :
    ∃ w n, (notedProbes ℕ Unit twoProbes).Run (.start uncalibrated, fun _ => none) straggler (w, n) ∧
      ProbeReads twoProbes w n := by
  have hsome : ((notedProbes ℕ Unit twoProbes).execIf (Legible twoProbes)
      (.start uncalibrated, fun _ => none) straggler).isSome = true := by decide +kernel
  obtain ⟨⟨w, n⟩, hexec⟩ := Option.isSome_iff_exists.mp hsome
  have hif := Machine.execIf_eq_some.mp hexec
  exact ⟨w, n, hif.toRun, (probe_reads_iff hif.toRun).mpr hif⟩

/-- Whether the read raises to a task that nobody has cancelled. -/
def Reading.raises (r : Reading δ κ ι) : Bool :=
  match r.cancelled, r.stage with
  | false, .ended (.error _) => true
  | _, _ => false

theorem Reading.raises_iff {r : Reading δ κ ι} :
    r.raises = true ↔ r.cancelled = false ∧ ∃ e, r.stage = .ended (.error e) := by
  rw [Reading.raises]
  constructor
  · intro h
    split at h
    · next e hcancelled hstage => exact ⟨hcancelled, e, hstage⟩
    · cases h
  · rintro ⟨hcancelled, e, hstage⟩
    rw [hcancelled, hstage]

/-- A byte that is in no UTF-8 text. -/
def corrupted : List (WireAction Bool ℕ Unit) :=
  [.begins 0 false, .acquires 0, .reads 0 (some ⟨#[0xff]⟩), .delivers 0, .resumes 0]

theorem read_raises :
    ¬∀ (D : Drivers Bool Unit) (calibration : Bool → Calibration Unit)
      (as : List (WireAction Bool ℕ Unit)) (w : Wire Bool Unit ℕ Unit)
      (n : ℕ → Option (Calibration Unit)),
      (notedProbes ℕ Unit D).Run (.start calibration, fun _ => none) as (w, n) →
        ProbeReads D w n := by
  intro h
  have hraises : ((notedProbes ℕ Unit twoProbes).exec (.start uncalibrated, fun _ => none)
      corrupted).any (fun p => (p.1.reads 0).any Reading.raises) = true := by decide +kernel
  obtain ⟨⟨w, n⟩, hexec, hread⟩ := (Option.any_eq_true _ _).mp hraises
  obtain ⟨r, hk, hr⟩ := (Option.any_eq_true _ _).mp hread
  have hreads := h twoProbes uncalibrated corrupted w n (Machine.exec_eq_some.mp hexec)
  obtain ⟨hcancelled, e, hstage⟩ := Reading.raises_iff.mp hr
  exact hreads.not_raised ⟨0, r, e, hk, hcancelled, hstage⟩

end BellasReef.HardwareIO.OneWire
