import BellasReef.HardwareIO.Consumer
import BellasReef.HardwareIO.Latch

/-!
# HardwareIO — Command queue

In which order commands reach the hardware.

The consumer works through new messages in the order they were published, but a message it sends
back with a nak waits out its delay while newer ones are applied, and the broker then delivers it
again.  Neither the supervisor nor the consumer keeps the sequence of what was last applied, so
unless it has expired by then the older command replaces the newer one's level.

`InOrder` is what a run has to keep to: no older command is outstanding and unexpired when a
command writes.  `landed_in_order` is the result.
-/

namespace BellasReef.HardwareIO
open BellasReef.Contracts BellasReef.Support

variable {ι L : Type}

/-- Fetched or sent back, and with a delivery left that could apply it. -/
def Hub.outstanding (s : Hub ι L) : List (Message ι L) :=
  s.batch ++ (s.delayed.map Nak.message).filter (·.delivered < maxDeliver)

/-- A newer command has reached the hardware. -/
def Hub.Overtaken (s : Hub ι L) (m : Message ι L) : Prop := ∃ n ∈ s.landed, m.seq < n

/-- The sequence the consumer is applying. -/
def Stage.current : Stage ι L → List ℕ
  | .driving m => [m.seq]
  | _ => []

/-- When a command writes, each older one outstanding has expired, and an overtaken one stays
expired when the host clock is set. -/
def Hub.InOrder (s : Hub ι L) : HubAction ι L → Prop
  | .guard a =>
      (s.guard.commandWrites a = true → ∀ n ∈ s.stage.current, ∀ x ∈ s.outstanding,
        x.seq < n → x.command.isExpired s.guard.wall = true) ∧
      ∀ x ∈ s.outstanding, s.Overtaken x → x.command.isExpired (s.guard.wallAfter a) = true
  | _ => True

instance (s : Hub ι L) (m : Message ι L) : Decidable (s.Overtaken m) :=
  inferInstanceAs (Decidable (∃ n ∈ s.landed, m.seq < n))

instance (s : Hub ι L) : (a : HubAction ι L) → Decidable (s.InOrder a)
  | .guard _ => inferInstanceAs (Decidable (_ ∧ _))
  | .publish _ | .fetch | .deliver | .redeliver _ | .fetched | .next | .ack | .sample _
  | .publishState => .isTrue trivial

/-! ### Where a message is -/

/-- The sequences fetched or sent back. -/
def Hub.waiting (s : Hub ι L) : List ℕ :=
  s.batch.map Message.seq ++ s.delayed.map fun d => d.message.seq

/-- Delivered: older than everything still queued. -/
def Hub.Delivered (s : Hub ι L) (n : ℕ) : Prop := n < s.published ∧ ∀ m ∈ s.queue, n < m.seq

/-- The invariant of a run that keeps to `InOrder`. -/
structure Ordered (s : Hub ι L) : Prop where
  attends : s.Attends
  sorted : s.landed.Pairwise (· < ·)
  queue : s.queue.Pairwise fun m m' => m.seq < m'.seq
  published : ∀ m ∈ s.queue, m.seq < s.published
  landed : ∀ n ∈ s.landed, s.Delivered n
  held : ∀ n ∈ s.stage.current ++ s.waiting, s.Delivered n
  nodup : (s.stage.current ++ s.waiting).Nodup
  /-- What has landed is done with. -/
  apart : ∀ n ∈ s.landed, n ∉ s.waiting
  /-- A command on its way to the hardware is newer than all that landed. -/
  current : ∀ m, s.stage = .driving m → (∀ c ∈ s.guard.commandCalls, c.phase ≠ .written) →
    ∀ n ∈ s.landed, n < m.seq
  /-- An outstanding one is newer too, or will be refused. -/
  outstanding : ∀ m ∈ s.outstanding, (∀ n ∈ s.landed, n < m.seq) ∨
    m.command.isExpired s.guard.wall = true

variable {A : Actuator L} {s s' : Hub ι L} {m : Message ι L}

theorem mem_waiting_of_outstanding (h : m ∈ s.outstanding) : m.seq ∈ s.waiting := by
  rcases List.mem_append.mp h with h | h
  · exact List.mem_append_left _ (List.mem_map_of_mem h)
  · obtain ⟨d, hd, rfl⟩ := List.mem_map.mp (List.mem_of_mem_filter h)
    exact List.mem_append_right _ (List.mem_map_of_mem hd)

/-- Not newer than all that landed means overtaken. -/
theorem Ordered.overtaken (h : Ordered s) (hm : m ∈ s.outstanding)
    (hn : ¬ ∀ n ∈ s.landed, n < m.seq) : s.Overtaken m := by
  obtain ⟨n, hn, hle⟩ : ∃ n ∈ s.landed, m.seq ≤ n := by simpa using hn
  refine ⟨n, hn, lt_of_le_of_ne hle fun he => ?_⟩
  exact h.apart n hn (he ▸ mem_waiting_of_outstanding hm)

/-- Nothing was published yet. -/
theorem ordered_started (A : Actuator L) (now wall : ℚ) (trusted : Bool) :
    Ordered (Hub.started (ι := ι) A now wall trusted) := by
  refine ⟨rfl, .nil, .nil, ?_, ?_, ?_, .nil, ?_, ?_, ?_⟩ <;>
    simp [Hub.started, Hub.waiting, Hub.outstanding, Stage.current]

theorem delivered_of_queue {n : ℕ} (h : s.Delivered n) (hp : s'.published = s.published)
    (hq : s'.queue.Sublist s.queue) : s'.Delivered n :=
  ⟨hp ▸ h.1, fun m hm => h.2 m (hq.subset hm)⟩

/-- A step that lands nothing and only moves messages between the batch, the naks and the
consumer. -/
theorem Ordered.moved (h : Ordered s) (hat : s'.Attends) (hl : s'.landed = s.landed)
    (hp : s'.published = s.published) (hq : s'.queue = s.queue)
    (hheld : List.Subperm (s'.stage.current ++ s'.waiting) (s.stage.current ++ s.waiting))
    (hwait : ∀ n ∈ s.landed, n ∉ s'.waiting)
    (hcur : ∀ m, s'.stage = .driving m → (∀ c ∈ s'.guard.commandCalls, c.phase ≠ .written) →
      ∀ n ∈ s.landed, n < m.seq)
    (hout : ∀ m ∈ s'.outstanding, (∀ n ∈ s.landed, n < m.seq) ∨
      m.command.isExpired s'.guard.wall = true) : Ordered s' where
  attends := hat
  sorted := hl ▸ h.sorted
  queue := hq ▸ h.queue
  published := by rw [hq, hp]; exact h.published
  landed := by
    rw [hl]
    exact fun n hn => delivered_of_queue (h.landed n hn) hp (hq ▸ .refl _)
  held := fun n hn => delivered_of_queue (h.held n (hheld.subset hn)) hp (hq ▸ .refl _)
  nodup := by
    obtain ⟨l, hperm, hsub⟩ := hheld
    exact hperm.nodup_iff.mp (h.nodup.sublist hsub)
  apart := hl ▸ hwait
  current := hl ▸ hcur
  outstanding := by rw [hl]; exact hout

/-- A step that changes neither the messages nor the guard. -/
theorem Ordered.staged (h : Ordered s) {st : Stage ι L} {r : ActuatorState L}
    (hat : Hub.Attends { s with stage := st, retained := r }) (hst : st.current = []) :
    Ordered { s with stage := st, retained := r } := by
  refine h.moved hat rfl rfl rfl ?_ h.apart ?_ h.outstanding
  · rw [hst]; exact (List.sublist_append_right _ _).subperm
  · rintro m rfl; cases hst

/-- A new command is the newest. -/
theorem ordered_publish (h : Ordered s) (c : ActuatorCommand ι L) : Ordered
    { s with queue := s.queue ++ [⟨s.published, c, 0⟩], published := s.published + 1 } := by
  have hdel : ∀ n, s.Delivered n → Hub.Delivered
      { s with queue := s.queue ++ [⟨s.published, c, 0⟩], published := s.published + 1 } n := by
    rintro n ⟨hn, hq⟩
    refine ⟨Nat.lt_succ_of_lt hn, fun m hm => ?_⟩
    rcases List.mem_append.mp hm with hm | hm
    · exact hq m hm
    · rw [List.mem_singleton.mp hm]; exact hn
  refine ⟨h.attends, h.sorted, ?_, fun m hm => ?_, fun n hn => hdel n (h.landed n hn),
    fun n hn => hdel n (h.held n hn), h.nodup, h.apart, h.current, h.outstanding⟩
  · refine List.pairwise_append.mpr ⟨h.queue, List.pairwise_singleton _ _, fun m hm m' hm' => ?_⟩
    rw [List.mem_singleton.mp hm']; exact h.published m hm
  · rcases List.mem_append.mp hm with hm | hm
    · exact Nat.lt_succ_of_lt (h.published m hm)
    · rw [List.mem_singleton.mp hm]; exact Nat.lt_succ_self _

/-- A message put at the end of the batch. -/
theorem waiting_batch (t : Hub ι L) {b : List (Message ι L)} (hb : t.batch = b ++ [m]) :
    t.waiting.Perm (m.seq :: (b.map Message.seq ++ t.delayed.map fun d => d.message.seq)) := by
  rw [Hub.waiting, hb, List.map_append, List.append_assoc]
  exact List.perm_middle

/-- A new message is newer than all that landed. -/
theorem ordered_deliver {rest : List (Message ι L)} (h : Ordered s) (hs : s.stage = .fetching)
    (hq : s.queue = m :: rest) (hat : Hub.Attends
      { s with queue := rest, batch := s.batch ++ [{ m with delivered := 1 }] }) :
    Ordered { s with queue := rest, batch := s.batch ++ [{ m with delivered := 1 }] } := by
  have hqueue := h.queue
  have hpub := h.published
  have hheld := h.held
  have hnodup := h.nodup
  rw [hq] at hqueue hpub
  rw [hs] at hheld hnodup
  obtain ⟨hfirst, hrest⟩ := List.pairwise_cons.mp hqueue
  have hbefore : ∀ n, s.Delivered n → n < m.seq := fun n hn =>
    hn.2 m (by rw [hq]; exact List.mem_cons_self)
  have hsub : rest.Sublist s.queue := by rw [hq]; exact List.sublist_cons_self ..
  have hperm := waiting_batch { s with
    queue := rest, batch := s.batch ++ [{ m with delivered := 1 }] } rfl
  refine ⟨hat, h.sorted, hrest, fun x hx => hpub x (List.mem_cons_of_mem _ hx),
    fun n hn => delivered_of_queue (h.landed n hn) rfl hsub, fun n hn => ?_, ?_, fun n hn hw => ?_,
    fun x hx => ?_, fun x hx => ?_⟩
  · simp only [hs] at hn
    rcases List.mem_cons.mp (hperm.subset hn) with rfl | hn
    · exact ⟨hpub m List.mem_cons_self, hfirst⟩
    · exact delivered_of_queue (hheld n hn) rfl hsub
  · simp only [hs]
    refine hperm.nodup_iff.mpr (List.nodup_cons.mpr ⟨fun hm => ?_, hnodup⟩)
    exact absurd (hbefore _ (hheld _ hm)) (lt_irrefl _)
  · rcases List.mem_cons.mp (hperm.subset hw) with rfl | hw
    · exact absurd (hbefore _ (h.landed _ hn)) (lt_irrefl _)
    · exact h.apart n hn hw
  · simp only [hs] at hx; cases hx
  · simp only [Hub.outstanding, List.mem_append, List.mem_singleton] at hx
    rcases hx with (hx | rfl) | hx
    · exact h.outstanding x (List.mem_append_left _ hx)
    · exact .inl fun n hn => hbefore n (h.landed n hn)
    · exact h.outstanding x (List.mem_append_right _ hx)

/-- A message that comes back is where it was. -/
theorem ordered_redeliver {i : ℕ} {due : ℚ} (h : Ordered s)
    (hd : s.delayed[i]? = some ⟨m, due⟩) (hm : m.delivered < maxDeliver) (hat : Hub.Attends
      { s with
        delayed := s.delayed.eraseIdx i
        batch := s.batch ++ [{ m with delivered := m.delivered + 1 }] }) :
    Ordered { s with
      delayed := s.delayed.eraseIdx i
      batch := s.batch ++ [{ m with delivered := m.delivered + 1 }] } := by
  have hback := ((perm_cons_eraseIdx hd).map fun d => d.message.seq).append_left
    (s.batch.map Message.seq)
  have hperm := (waiting_batch { s with
    delayed := s.delayed.eraseIdx i
    batch := s.batch ++ [{ m with delivered := m.delivered + 1 }] } rfl).trans
    (List.perm_middle.symm.trans hback)
  refine h.moved hat rfl rfl rfl (hperm.append_left _).subperm ?_ h.current fun x hx => ?_
  · exact fun n hn hw => h.apart n hn (hperm.subset hw)
  · simp only [Hub.outstanding, List.mem_append, List.mem_singleton] at hx
    rcases hx with (hx | rfl) | hx
    · exact h.outstanding x (List.mem_append_left _ hx)
    · refine h.outstanding m (List.mem_append_right _ (List.mem_filter.mpr ⟨?_, by simpa using hm⟩))
      exact List.mem_map_of_mem (f := Nak.message) (List.mem_of_getElem? hd)
    · refine h.outstanding x (List.mem_append_right _ ?_)
      obtain ⟨hx, hlt⟩ := List.mem_filter.mp hx
      obtain ⟨d, hmem, rfl⟩ := List.mem_map.mp hx
      exact List.mem_filter.mpr ⟨List.mem_map_of_mem (List.mem_of_mem_eraseIdx hmem), hlt⟩

/-- A message sent back. -/
theorem waiting_nak (t : Hub ι L) {d : List (Nak ι L)} (hd : t.delayed = d ++ [s.nak m]) :
    t.waiting.Perm (m.seq :: (t.batch.map Message.seq ++ d.map fun d => d.message.seq)) := by
  rw [Hub.waiting, hd, List.map_append, ← List.append_assoc]
  exact List.perm_append_singleton _ _

theorem mem_outstanding_nak {t : Hub ι L} {x : Message ι L} {d : List (Nak ι L)}
    (hd : t.delayed = d ++ [s.nak m]) (hx : x ∈ t.outstanding) :
    x ∈ t.batch ++ (d.map Nak.message).filter (·.delivered < maxDeliver) ∨ x = m := by
  rw [Hub.outstanding, hd, List.map_append, List.filter_append, ← List.append_assoc] at hx
  rcases List.mem_append.mp hx with hx | hx
  · exact .inl hx
  · exact .inr (List.mem_singleton.mp (List.mem_of_mem_filter hx))

/-! ### Steps of the guard -/

/-- **Step.**  The supervisor goes on, and commands land in order. -/
theorem ordered_guard {a : Action ι L} {g : State L} {r : ActuatorState L} (h : Ordered s)
    (hC : s.InOrder (.guard a)) (hw : g.wall = s.guard.wallAfter a) (hg : HubGuard s a g r s') :
    Ordered s' := by
  have hat := hg.attends h.attends
  -- whatever the clock was set to, what is outstanding is newer or expired
  have hout : ∀ x ∈ s.outstanding, (∀ n ∈ s.landed, n < x.seq) ∨
      x.command.isExpired g.wall = true := by
    intro x hx
    by_cases hn : ∀ n ∈ s.landed, n < x.seq
    · exact .inl hn
    · exact .inr (hw ▸ hC.2 x hx (h.overtaken hx hn))
  cases hg with
  | other hc =>
      refine h.moved hat rfl rfl rfl (.refl _) h.apart ?_ hout
      rw [hc]; exact h.current
  | @failed m l hs hc =>
      refine h.moved hat rfl rfl rfl (.refl _) h.apart (fun m hm _ => h.current m hm ?_) hout
      simp [hc]
  | @applied m l hs hc =>
      refine h.moved hat rfl rfl rfl (List.sublist_append_right _ _).subperm h.apart ?_ hout
      rintro m ⟨⟩
  | @naked m l hs hc =>
      have hnew : ∀ n ∈ s.landed, n < m.seq := h.current m hs (by simp [hc])
      have hperm := waiting_nak { s with
        guard := g
        retained := r
        stage := .looping
        delayed := s.delayed ++ [s.nak m] } rfl
      refine h.moved hat rfl rfl rfl ?_ (fun n hn hmem => ?_) (by rintro m ⟨⟩) fun x hx => ?_
      · rw [hs]; exact hperm.subperm
      · rcases List.mem_cons.mp (hperm.subset hmem) with rfl | hmem
        · exact absurd (hnew _ hn) (lt_irrefl _)
        · exact h.apart n hn hmem
      · rcases mem_outstanding_nak rfl hx with hx | rfl
        · exact hout x hx
        · exact .inl hnew
  | @wrote m l hs hc hc' hwr =>
      have hnew : ∀ n ∈ s.landed, n < m.seq := h.current m hs (by simp [hc])
      have hheld := h.held
      have hnodup := h.nodup
      rw [hs] at hheld hnodup
      obtain ⟨hm, hnodup'⟩ := List.nodup_cons.mp hnodup
      have hlast : ∀ n ∈ s.landed ++ [m.seq], n ∈ s.landed ∨ n = m.seq := by simp
      refine ⟨hat, ?_, h.queue, h.published, fun n hn => ?_, h.held, h.nodup, fun n hn => ?_, ?_,
        fun x hx => ?_⟩
      · exact List.pairwise_append.mpr ⟨h.sorted, List.pairwise_singleton _ _,
          fun n hn n' hn' => List.mem_singleton.mp hn' ▸ hnew n hn⟩
      · rcases hlast n hn with hn | rfl
        · exact h.landed n hn
        · exact hheld m.seq List.mem_cons_self
      · rcases hlast n hn with hn | rfl
        · exact h.apart n hn
        · exact hm
      · rintro - - hp
        exact absurd rfl (hp ⟨.command l, .written⟩ (hc' ▸ List.mem_singleton_self _))
      · -- the one that writes is newer than all that landed and than all that may still
        rcases hout x hx with hfresh | hexp
        · by_cases hlt : x.seq < m.seq
          · have hcur : m.seq ∈ s.stage.current := by rw [hs]; exact List.mem_singleton_self _
            have hexp := hC.1 hwr m.seq hcur x hx hlt
            have hwall : g.wall = s.guard.wall := by
              rw [hw]
              cases a <;> first | rfl | cases hwr
            exact .inr (hwall ▸ hexp)
          · refine .inl fun n hn => ?_
            rcases hlast n hn with hn | rfl
            · exact hfresh n hn
            · refine lt_of_le_of_ne (not_lt.mp hlt) fun he => hm ?_
              exact he ▸ mem_waiting_of_outstanding hx
        · exact .inr hexp

variable [DecidableEq L]

/-- **Commands stay in order** through every step that keeps to `InOrder`. -/
theorem ordered_step {a : HubAction ι L} (h : Ordered s) (hC : s.InOrder a)
    (hm : HubMoves A s a s') : Ordered s' := by
  have hat := attends_step h.attends hm
  cases hm with
  | publish c => exact ordered_publish h c
  | fetch | fetched | ack | sample | publishState => exact h.staged hat rfl
  | deliver hs hq => exact ordered_deliver h hs hq hat
  | redeliver hs hd hm => exact ordered_redeliver h hd hm hat
  | @refused m rest hs hb =>
      have hsub : rest.Sublist s.batch := by rw [hb]; exact List.sublist_cons_self ..
      have hwait := (hsub.map Message.seq).append_right (s.delayed.map fun d => d.message.seq)
      refine h.moved hat rfl rfl rfl (hwait.append_left _).subperm ?_ h.current fun x hx => ?_
      · exact fun n hn hw => h.apart n hn (hwait.subset hw)
      · exact h.outstanding x ((hsub.append_right _).subset hx)
  | @typeError m rest hs hb =>
      have hperm := waiting_nak { s with
        batch := rest, delayed := s.delayed ++ [s.nak m] } rfl
      have hwait : (m.seq :: (rest.map Message.seq ++ s.delayed.map fun d => d.message.seq)) =
          s.waiting := by rw [Hub.waiting, hb]; rfl
      rw [hwait] at hperm
      refine h.moved hat rfl rfl rfl (hperm.append_left _).subperm ?_ h.current fun x hx => ?_
      · exact fun n hn hw => h.apart n hn (hperm.subset hw)
      · rcases mem_outstanding_nak rfl hx with hx | rfl
        · exact h.outstanding x (by
            rw [Hub.outstanding, hb]; exact List.mem_cons_of_mem _ hx)
        · exact h.outstanding x (by rw [Hub.outstanding, hb]; exact List.mem_cons_self)
  | @begin m rest l hs hb ha =>
      have hout := h.outstanding
      rw [Hub.outstanding, hb] at hout
      have hfresh : ∀ n ∈ s.landed, n < m.seq := by
        rcases hout m List.mem_cons_self with hf | hexp
        · exact hf
        · rw [(admit_driving ha).1] at hexp; cases hexp
      have hwait : m.seq :: Hub.waiting { s with batch := rest } = s.waiting := by
        rw [Hub.waiting, Hub.waiting, hb]; rfl
      refine h.moved hat rfl rfl rfl ?_ (fun n hn hw => ?_) ?_ fun x hx => ?_
      · rw [hs]; exact (List.Perm.of_eq hwait).subperm
      · exact h.apart n hn (hwait ▸ List.mem_cons_of_mem _ hw)
      · rintro m ⟨⟩ -; exact hfresh
      · exact hout x (List.mem_cons_of_mem _ hx)
  | guard hc hg =>
      have hmv := step_moves (supervisor_step.mpr ⟨_, hg⟩)
      exact ordered_guard h hC (wall_step hmv) (hub_guard h.attends hc hmv)

/-- **No command is undone by an older one**, in a run that keeps to `InOrder`: the commands reach
the hardware in the order they were published. -/
theorem landed_in_order {now wall : ℚ} {trusted : Bool} {as : List (HubAction ι L)}
    (h : (hub ι A).RunIf Hub.InOrder (Hub.started A now wall trusted) as s) :
    s.landed.Pairwise (· < ·) :=
  (h.invariant (ordered_started A now wall trusted)
    fun _ _ _ hC hI hs => ordered_step hI hC (hub_moves hs)).sorted

/-- A command to a light, good for thirty seconds. -/
def lightCommand (d : Duty) : ActuatorCommand Unit ActuatorLevel :=
  ⟨(), .pwm d, 0, 30, by norm_num⟩

/-- Two commands to a light are published and fetched: on, then off. -/
def onThenOff : List (HubAction Unit ActuatorLevel) :=
  [.publish (lightCommand half), .publish (lightCommand Duty.zero), .fetch, .deliver, .deliver,
    .fetched]

/-- The next command is applied, and published. -/
def applyNext : List (HubAction Unit ActuatorLevel) :=
  [.next, .guard (.write 0), .guard (.complete 0), .ack, .sample false, .publishState]

/-- Two commands for a light land in order. -/
theorem landed_in_order_light :
    ∃ s, (hub Unit (lightRegistration .pca9685)).RunIf Hub.InOrder
        (Hub.started (lightRegistration .pca9685) 0 0 true)
        (onThenOff ++ applyNext ++ applyNext) s ∧
      s.landed = [0, 1] ∧ s.landed.Pairwise (· < ·) := by
  have hrun : ((hub Unit (lightRegistration .pca9685)).execIf Hub.InOrder
      (Hub.started (lightRegistration .pca9685) 0 0 true)
      (onThenOff ++ applyNext ++ applyNext)).map (·.landed) = some [0, 1] := by decide +kernel
  obtain ⟨s, hs, hl⟩ := Option.map_eq_some_iff.mp hrun
  have hs := Machine.execIf_eq_some.mp hs
  exact ⟨s, hs, hl, landed_in_order hs⟩

/-- The driver faults on the first command, and the broker delivers it again a second later: the
light ends up on. -/
theorem not_landed_in_order :
    ¬ ∀ (A : Actuator ActuatorLevel) (now wall : ℚ) (trusted : Bool)
      (as : List (HubAction Unit ActuatorLevel)) (s : Hub Unit ActuatorLevel),
      (hub Unit A).Run (Hub.started A now wall trusted) as s → s.landed.Pairwise (· < ·) := by
  intro h
  have hrun : ((hub Unit (lightRegistration .pca9685)).exec
      (Hub.started (lightRegistration .pca9685) 0 0 true)
      (onThenOff ++ [.next, .guard (.fail 0), .guard (.complete 0)] ++ applyNext ++
        [.guard (.tick 1), .fetch, .redeliver 0, .fetched] ++ applyNext)).map
      (fun s => (s.landed, s.guard.hardware)) = some ([1, 0], .pwm half) := by decide +kernel
  obtain ⟨s, hs, hl⟩ := Option.map_eq_some_iff.mp hrun
  have hlanded : s.landed = [1, 0] := congrArg Prod.fst hl
  have hsorted := h _ _ _ _ _ s (Machine.exec_eq_some.mp hs)
  rw [hlanded] at hsorted
  exact absurd hsorted (by decide)

end BellasReef.HardwareIO
