import BellasReef.Support.Machine
import BellasReef.Support.Retained
import Mathlib.Order.Nat

/-!
# Support — Mirror

A store that follows a stream that keeps the last message of each key.

The store takes one message at a time, whole or not at all, and shows of each key what the last
message that it took of the key says (`LastWins`).  Its reader starts at what is retained and sees
what is published meanwhile; a message that was sent may be sent again; the store may fail one; and
the reader may go and come back.

* `mirrored`: what the store shows of a key is what it showed at first, or what one message says;
  and it is the last message of the key where nothing of the key is to come and the last of it did
  not fail.
* `Mirror.forward`: it never goes back to an earlier message.
* `Mirror.heals`: a reader that comes back can bring the store up to what is retained.
-/

namespace BellasReef.Support

/-- A store that takes messages, and shows of each key what the last one says.  What else it reads
as it takes one, such as a clock, is of the type `ε`. -/
structure LastWins (κ μ τ β ε : Type*) [DecidableEq κ] where
  key : μ → κ
  /-- `none`: it refuses the message. -/
  take : ε → τ → μ → Option τ
  view : τ → κ → β
  value : μ → β
  view_take : ∀ e t m t', take e t m = some t' →
    ∀ k, view t' k = if key m = k then value m else view t k

/-- A message, with its number on the stream. -/
structure Sent (μ : Type*) where
  seq : ℕ
  body : μ
  deriving DecidableEq

/-- The stream, the reader with what it has still to hand over, and the store. -/
structure Mirror (μ τ : Type*) where
  count : ℕ
  retained : List (Sent μ)
  reader : Option (Drain (Sent μ))
  store : τ

/-- What the publisher, the broker and the reader do. -/
inductive MirrorAction (κ μ ε : Type*) where
  | publish (m : μ)
  | subscribe
  /-- The broker sends `n` messages. -/
  | deliver (n : ℕ)
  /-- It sends the last message of a key again. -/
  | redeliver (k : κ)
  /-- The reader hands a message to the store, which may fail: `none`. -/
  | handle (e : Option ε)
  /-- The reader goes. -/
  | stop
  deriving DecidableEq

/-- What was published, the number of the message that the store shows of a key, and the keys of
which the reader has failed the last message that it handled. -/
structure MirrorNotes (κ μ : Type*) where
  log : List (Sent μ)
  shown : κ → ℕ
  failed : List κ

section Steps
variable {κ μ τ β ε : Type*} [DecidableEq κ] (L : LastWins κ μ τ β ε)

/-- The key of a message that was sent. -/
def LastWins.sentKey (m : Sent μ) : κ := L.key m.body

/-- What the store comes to be, if it takes the message. -/
def LastWins.handled (t : τ) (m : Sent μ) (e : Option ε) : Option τ :=
  e.bind fun e => L.take e t m.body

/-- The store has taken the message. -/
def LastWins.Taken (m : Sent μ) : Prop := ∃ e t t', L.take e t m.body = some t'

/-- A message that is sent again is in the backlog no more. -/
def Mirror.redeliver (s : Mirror μ τ) (d : Drain (Sent μ)) (k : κ) : Option (Mirror μ τ) :=
  match last L.sentKey k s.retained with
  | some m =>
      if k ∈ d.backlog.map L.sentKey then none
      else some { s with reader := some ⟨d.batch, m :: d.backlog⟩ }
  | none => none

/-- One step of one of them. -/
def Mirror.step (s : Mirror μ τ) : MirrorAction κ μ ε → Option (Mirror μ τ)
  | .publish m =>
      some { s with
        count := s.count + 1
        retained := retain L.sentKey s.retained ⟨s.count + 1, m⟩
        reader := s.reader.map fun d => d.publish L.sentKey ⟨s.count + 1, m⟩ }
  | .subscribe =>
      match s.reader with
      | some _ => none
      | none => some { s with reader := some (Drain.start s.retained) }
  | .deliver n => s.reader.map fun d => { s with reader := some (d.fetch n) }
  | .redeliver k => s.reader.bind fun d => s.redeliver L d k
  | .handle e =>
      match s.reader with
      | some ⟨m :: batch, backlog⟩ =>
          some { s with
            reader := some ⟨batch, backlog⟩
            store := (L.handled s.store m e).getD s.store }
      | _ => none
  | .stop => some { s with reader := none }

/-- A message was handed to the store. -/
def MirrorNotes.handle (n : MirrorNotes κ μ) (k : κ) (seq : ℕ) (took : Bool) : MirrorNotes κ μ :=
  if took then { n with shown := Function.update n.shown k seq, failed := n.failed.filter (· ≠ k) }
  else { n with failed := k :: n.failed }

/-- What is noted at a step. -/
def Mirror.note (s : Mirror μ τ) (a : MirrorAction κ μ ε) (_ : Mirror μ τ) (n : MirrorNotes κ μ) :
    MirrorNotes κ μ :=
  match a, s.reader with
  | .publish m, _ => { n with log := ⟨s.count + 1, m⟩ :: n.log }
  | .subscribe, _ => { n with failed := [] }
  | .handle e, some ⟨m :: _, _⟩ => n.handle (L.sentKey m) m.seq (L.handled s.store m e).isSome
  | _, _ => n

/-- The mirror, with its notes. -/
abbrev mirror : Machine (Mirror μ τ × MirrorNotes κ μ) (MirrorAction κ μ ε) :=
  Machine.ghost ⟨Mirror.step L⟩ (Mirror.note L)

end Steps

/-- Nothing is published, and nobody reads. -/
def Mirror.start {μ τ : Type*} (store : τ) : Mirror μ τ := ⟨0, [], none, store⟩

/-- Nothing was published. -/
def MirrorNotes.start {κ μ : Type*} : MirrorNotes κ μ := ⟨[], fun _ => 0, []⟩

/-! ### What the store shows -/

section Runs
variable {κ μ τ β ε : Type*} [DecidableEq κ] {L : LastWins κ μ τ β ε} {store : τ}
variable {s s' : Mirror μ τ} {n n' : MirrorNotes κ μ} {a : MirrorAction κ μ ε} {k : κ} {m : Sent μ}
variable {d : Drain (Sent μ)}

/-- What the store shows, of what there was of it at first. -/
structure Mirrored (L : LastWins κ μ τ β ε) (store : τ) (s : Mirror μ τ) (n : MirrorNotes κ μ) :
    Prop where
  /-- Of each key, what one message says or what there was. -/
  whole : ∀ k, L.view s.store k = L.view store k ∧ n.shown k = 0 ∨ ∃ m ∈ n.log,
    L.Taken m ∧ L.sentKey m = k ∧ m.seq = n.shown k ∧ L.view s.store k = L.value m.body
  /-- What is not retained was never published. -/
  silent : ∀ k, last L.sentKey k s.retained = none → L.view s.store k = L.view store k
  /-- What is retained, where nothing is to come and nothing has failed. -/
  settled : ∀ d, s.reader = some d → ∀ k m, last L.sentKey k s.retained = some m →
    last L.sentKey k d.pending = none → k ∉ n.failed →
      L.Taken m ∧ L.view s.store k = L.value m.body

/-- The numbers of the messages of each key ascend. -/
def Ascending (L : LastWins κ μ τ β ε) (l : List (Sent μ)) : Prop :=
  l.Pairwise fun m m' => L.sentKey m = L.sentKey m' → m.seq ≤ m'.seq

/-- What the reader has to see. -/
structure Reads (L : LastWins κ μ τ β ε) (s : Mirror μ τ) (n : MirrorNotes κ μ) (d : Drain (Sent μ)) :
    Prop where
  trails : Trails L.sentKey s.retained d.pending
  ascending : Ascending L d.pending
  later : ∀ m ∈ d.pending, m ∈ n.log ∧ n.shown (L.sentKey m) ≤ m.seq
  unique : (d.backlog.map L.sentKey).Nodup
  settled : ∀ k m, last L.sentKey k s.retained = some m → last L.sentKey k d.pending = none →
    k ∉ n.failed → n.shown k = m.seq

/-- The invariant. -/
structure Follows (L : LastWins κ μ τ β ε) (store : τ) (s : Mirror μ τ) (n : MirrorNotes κ μ) :
    Prop where
  whole : ∀ k, L.view s.store k = L.view store k ∧ n.shown k = 0 ∨ ∃ m ∈ n.log,
    L.Taken m ∧ L.sentKey m = k ∧ m.seq = n.shown k ∧ L.view s.store k = L.value m.body
  numbers : (n.log.map Sent.seq).Nodup
  counted : ∀ m ∈ n.log, m.seq ≤ s.count
  positive : ∀ m ∈ n.log, 0 < m.seq
  unique : (s.retained.map L.sentKey).Nodup
  logged : ∀ m ∈ s.retained, m ∈ n.log
  latest : ∀ m ∈ n.log, ∃ r, last L.sentKey (L.sentKey m) s.retained = some r ∧ m.seq ≤ r.seq
  reads : ∀ d, s.reader = some d → Reads L s n d

/-- The number that is shown is that of a message, if it is of any. -/
theorem Follows.shown_le (h : Follows L store s n) {r : Sent μ}
    (hr : last L.sentKey k s.retained = some r) : n.shown k ≤ r.seq := by
  obtain ⟨-, h0⟩ | ⟨m, hm, -, rfl, hseq, -⟩ := h.whole k
  · rw [h0]
    exact Nat.zero_le _
  · obtain ⟨r', hr', hle⟩ := h.latest m hm
    obtain rfl := Option.some.inj (hr.symm.trans hr')
    exact hseq ▸ hle

theorem Follows.shown_le_count (h : Follows L store s n) : n.shown k ≤ s.count := by
  obtain ⟨-, h0⟩ | ⟨m, hm, -, rfl, hseq, -⟩ := h.whole k
  · rw [h0]
    exact Nat.zero_le _
  · exact hseq ▸ h.counted m hm

theorem Follows.mem_log (h : Follows L store s n) {r : Sent μ}
    (hr : last L.sentKey k s.retained = some r) : r ∈ n.log :=
  h.logged r (mem_of_last hr).1

/-- **What the invariant says.** -/
theorem Follows.mirrored (h : Follows L store s n) : Mirrored L store s n := by
  refine ⟨h.whole, fun k hk => ?_, fun d hd k m hm hp hf => ?_⟩
  · obtain ⟨he, -⟩ | ⟨m, hm, -, rfl, -, -⟩ := h.whole k
    · exact he
    · obtain ⟨r, hr, -⟩ := h.latest m hm
      rw [hk] at hr
      cases hr
  · have hseq := (h.reads d hd).settled k m hm hp hf
    have hmem := h.mem_log hm
    obtain ⟨-, h0⟩ | ⟨m', hm', ht, -, hseq', he⟩ := h.whole k
    · exact absurd (h0.symm.trans hseq) (h.positive m hmem).ne
    · obtain rfl := List.inj_on_of_nodup_map h.numbers hm' hmem (hseq'.trans hseq)
      exact ⟨ht, he⟩

/-! ### One step -/

theorem follows_start : Follows L store (.start store) .start := by
  refine ⟨fun k => .inl ⟨rfl, rfl⟩, .nil, ?_, ?_, .nil, ?_, ?_, ?_⟩
  · exact fun m hm => absurd hm List.not_mem_nil
  · exact fun m hm => absurd hm List.not_mem_nil
  · exact fun m hm => absurd hm List.not_mem_nil
  · exact fun m hm => absurd hm List.not_mem_nil
  · rintro d ⟨⟩

theorem Reads.publish (h : Reads L s n d) (hf : Follows L store s n) {m : μ} {p : Sent μ}
    (hp : p = ⟨s.count + 1, m⟩) :
    Reads L { s with count := s.count + 1, retained := retain L.sentKey s.retained p }
      { n with log := p :: n.log } (d.publish L.sentKey p) := by
  have hcount : p.seq = s.count + 1 := by rw [hp]
  refine ⟨?_, ?_, ?_, nodup_retain h.unique, ?_⟩
  · exact h.trails.publish fun _ => Drain.last_pending_publish
  · have hsub : (d.batch ++ d.backlog.filter (L.sentKey · ≠ L.sentKey p)).Sublist d.pending :=
      List.filter_sublist.append_left d.batch
    rw [Ascending, Drain.pending, Drain.publish, retain, ← List.append_assoc]
    refine List.pairwise_append.mpr ⟨h.ascending.sublist hsub, List.pairwise_singleton _ _, ?_⟩
    intro m' hm' x hx _
    rw [List.mem_singleton.mp hx, hcount]
    exact (hf.counted m' (h.later m' (hsub.subset hm')).1).trans (Nat.le_succ _)
  · intro m' hm'
    obtain hm' | rfl := Drain.mem_pending_publish hm'
    · exact ⟨List.mem_cons_of_mem _ (h.later m' hm').1, (h.later m' hm').2⟩
    · exact ⟨List.mem_cons_self, hcount ▸ hf.shown_le_count.trans (Nat.le_succ _)⟩
  · intro k r hr hnone hk
    rw [Drain.last_pending_publish] at hnone
    rw [last_retain] at hr
    split at hnone
    · cases hnone
    · next hne =>
        rw [if_neg hne] at hr
        exact h.settled k r hr hnone hk

theorem follows_publish (h : Follows L store s n) {m : μ} {p : Sent μ} (hp : p = ⟨s.count + 1, m⟩) :
    Follows L store { s with
        count := s.count + 1
        retained := retain L.sentKey s.retained p
        reader := s.reader.map fun d => d.publish L.sentKey p }
      { n with log := p :: n.log } := by
  have hcount : p.seq = s.count + 1 := by rw [hp]
  refine ⟨fun k => ?_, ?_, ?_, ?_, nodup_retain h.unique, ?_, ?_, ?_⟩
  · refine (h.whole k).imp_right ?_
    rintro ⟨m, hm, hk⟩
    exact ⟨m, List.mem_cons_of_mem _ hm, hk⟩
  · refine List.nodup_cons.mpr ⟨fun hm => ?_, h.numbers⟩
    obtain ⟨m, hm, hseq⟩ := List.mem_map.mp hm
    have := h.counted m hm
    omega
  · exact List.forall_mem_cons.mpr ⟨hcount.le, fun m hm => (h.counted m hm).trans (Nat.le_succ _)⟩
  · exact List.forall_mem_cons.mpr ⟨hcount ▸ Nat.succ_pos _, h.positive⟩
  · intro m hm
    obtain hm | rfl := mem_retain hm
    · exact List.mem_cons_of_mem _ (h.logged m hm)
    · exact List.mem_cons_self
  · refine List.forall_mem_cons.mpr ⟨⟨p, by rw [last_retain, if_pos rfl], le_refl _⟩, fun m hm => ?_⟩
    obtain ⟨r, hr, hle⟩ := h.latest m hm
    by_cases hk : L.sentKey p = L.sentKey m
    · exact ⟨p, by rw [last_retain, if_pos hk],
        hcount ▸ (h.counted m hm).trans (Nat.le_succ _)⟩
    · exact ⟨r, by rw [last_retain, if_neg hk, hr], hle⟩
  · intro d' hd'
    obtain ⟨d, hd, rfl⟩ := Option.map_eq_some_iff.mp hd'
    have hreads := (h.reads d hd).publish h hp
    exact ⟨hreads.trails, hreads.ascending, hreads.later, hreads.unique, hreads.settled⟩

theorem reads_start (h : Follows L store s n) {r : Option (Drain (Sent μ))} {failed : List κ} :
    Reads L { s with reader := r } { n with failed := failed } (.start s.retained) := by
  refine ⟨.refl, ?_, fun m hm => ?_, h.unique, fun k m hm hnone => ?_⟩
  · exact (List.pairwise_map.mp h.unique).imp fun hne he => absurd he hne
  · have hlast : last L.sentKey (L.sentKey m) s.retained = some m :=
      (last_eq_some_iff h.unique).mpr ⟨hm, rfl⟩
    exact ⟨h.logged m hm, h.shown_le hlast⟩
  · rw [show (Drain.start s.retained).pending = s.retained from rfl] at hnone
    change last L.sentKey k s.retained = some m at hm
    rw [hnone] at hm
    cases hm

theorem Reads.fetch (h : Reads L s n d) (i : ℕ) {r : Option (Drain (Sent μ))} :
    Reads L { s with reader := r } n (d.fetch i) := by
  refine ⟨?_, ?_, ?_, ?_, ?_⟩
  · rw [Drain.pending_fetch]
    exact h.trails
  · rw [Drain.pending_fetch]
    exact h.ascending
  · rw [Drain.pending_fetch]
    exact h.later
  · exact h.unique.sublist ((List.drop_sublist i d.backlog).map _)
  · rw [Drain.pending_fetch]
    exact h.settled

/-- What there is of a key, with a message in front of the backlog. -/
theorem last_redelivered : last L.sentKey k (Drain.mk d.batch (m :: d.backlog)).pending =
    ((last L.sentKey k d.backlog).or (if L.sentKey m = k then some m else none)).or
      (last L.sentKey k d.batch) := by
  rw [Drain.pending, last_append, last_cons]

theorem Reads.redeliver (h : Reads L s n d) (hf : Follows L store s n)
    (hm : last L.sentKey k s.retained = some m) (hk : k ∉ d.backlog.map L.sentKey)
    {r : Option (Drain (Sent μ))} : Reads L { s with reader := r } n ⟨d.batch, m :: d.backlog⟩ := by
  have hkey : L.sentKey m = k := (mem_of_last hm).2
  have hpend : ∀ x, x ∈ (Drain.mk d.batch (m :: d.backlog)).pending → x ∈ d.pending ∨ x = m := by
    intro x hx
    simp only [Drain.pending, List.mem_append, List.mem_cons] at hx ⊢
    tauto
  refine ⟨fun j x hx => ?_, ?_, fun x hx => ?_, ?_, fun j x hx hnone => ?_⟩
  · rw [last_redelivered] at hx
    cases hb : last L.sentKey j d.backlog with
    | some y =>
        rw [hb] at hx
        obtain rfl : y = x := by simpa using hx
        exact h.trails j y (by rw [Drain.pending, last_append, hb, Option.some_or])
    | none =>
        rw [hb, Option.none_or] at hx
        split at hx
        · next he =>
            obtain rfl : m = x := by simpa using hx
            rw [← he, hkey]
            exact hm
        · rw [Option.none_or] at hx
          exact h.trails j x (by rw [Drain.pending, last_append, hb, Option.none_or, hx])
  · obtain ⟨hbatch, hback, hcross⟩ := List.pairwise_append.mp h.ascending
    refine List.pairwise_append.mpr ⟨hbatch, List.pairwise_cons.mpr ⟨?_, hback⟩, ?_⟩
    · -- nothing of its key is behind it
      intro x hx he
      exact absurd (List.mem_map.mpr ⟨x, hx, he.symm.trans hkey⟩) hk
    · intro x hx y hy he
      obtain rfl | hy := List.mem_cons.mp hy
      · obtain ⟨r, hr, hle⟩ := hf.latest x (h.later x (List.mem_append_left _ hx)).1
        rw [he, hkey, hm] at hr
        cases hr
        exact hle
      · exact hcross x hx y hy he
  · obtain hx | rfl := hpend x hx
    · exact h.later x hx
    · exact ⟨hf.mem_log hm, hkey ▸ hf.shown_le hm⟩
  · exact List.nodup_cons.mpr ⟨hkey ▸ hk, h.unique⟩
  · refine h.settled j x hx ?_
    rw [last_redelivered] at hnone
    rw [Drain.pending, last_append]
    simp only [Option.or_eq_none_iff] at hnone ⊢
    exact ⟨hnone.1.1, hnone.2⟩

/-- A reader has what it had, and the rest is as it was. -/
theorem Follows.reading (h : Follows L store s n) {r : Option (Drain (Sent μ))}
    (hr : ∀ d, r = some d → Reads L { s with reader := r } n d) :
    Follows L store { s with reader := r } n :=
  ⟨h.whole, h.numbers, h.counted, h.positive, h.unique, h.logged, h.latest, hr⟩

@[simp] theorem shown_handle {took : Bool} {seq : ℕ} {j : κ} :
    (n.handle j seq took).shown k = if took = true ∧ k = j then seq else n.shown k := by
  cases took <;> simp [MirrorNotes.handle, Function.update_apply]

/-- What is behind a message that the reader has handled. -/
theorem Reads.next {batch backlog : List (Sent μ)} (h : Reads L s n ⟨m :: batch, backlog⟩) :
    m ∈ n.log ∧ n.shown (L.sentKey m) ≤ m.seq ∧
      (∀ m' ∈ batch ++ backlog, L.sentKey m = L.sentKey m' → m.seq ≤ m'.seq) := by
  have hcons : (Drain.mk (m :: batch) backlog).pending = m :: (batch ++ backlog) := rfl
  have hasc := h.ascending
  rw [Ascending, hcons, List.pairwise_cons] at hasc
  obtain ⟨hlog, hle⟩ := h.later m (hcons ▸ List.mem_cons_self)
  exact ⟨hlog, hle, hasc.1⟩

theorem Reads.taken {batch backlog : List (Sent μ)} (h : Reads L s n ⟨m :: batch, backlog⟩)
    {t : τ} : Reads L { s with reader := some ⟨batch, backlog⟩, store := t }
      (n.handle (L.sentKey m) m.seq true) ⟨batch, backlog⟩ := by
  obtain ⟨-, -, hnext⟩ := h.next
  refine ⟨h.trails.tail, (List.pairwise_cons.mp h.ascending).2, fun x hx => ?_, h.unique,
    fun k r hr hnone hk => ?_⟩
  · obtain ⟨hlog, hle⟩ := h.later x (List.mem_cons_of_mem _ hx)
    refine ⟨hlog, ?_⟩
    by_cases he : L.sentKey x = L.sentKey m
    · simpa [MirrorNotes.handle, he] using hnext x hx he.symm
    · simpa [MirrorNotes.handle, he] using hle
  · by_cases he : L.sentKey m = k
    · subst he
      have hlast : last L.sentKey (L.sentKey m) s.retained = some m := h.trails.head hnone
      obtain rfl := Option.some.inj (hr.symm.trans hlast)
      simp [MirrorNotes.handle]
    · have hk' : k ∉ n.failed := by simpa [MirrorNotes.handle, Ne.symm he] using hk
      have hpend : last L.sentKey k (Drain.mk (m :: batch) backlog).pending = none := by
        have hcons : (Drain.mk (m :: batch) backlog).pending = m :: (batch ++ backlog) := rfl
        rw [hcons, last_cons, if_neg he, Option.or_none]
        exact hnone
      simpa [MirrorNotes.handle, Ne.symm he] using h.settled k r hr hpend hk'

theorem Reads.refused {batch backlog : List (Sent μ)} (h : Reads L s n ⟨m :: batch, backlog⟩)
    {t : τ} : Reads L { s with reader := some ⟨batch, backlog⟩, store := t }
      (n.handle (L.sentKey m) m.seq false) ⟨batch, backlog⟩ := by
  refine ⟨h.trails.tail, (List.pairwise_cons.mp h.ascending).2,
    fun x hx => h.later x (List.mem_cons_of_mem _ hx), h.unique, fun k r hr hnone hk => ?_⟩
  obtain ⟨he, hk⟩ : k ≠ L.sentKey m ∧ k ∉ n.failed := by simpa [MirrorNotes.handle] using hk
  refine h.settled k r hr ?_ hk
  have hcons : (Drain.mk (m :: batch) backlog).pending = m :: (batch ++ backlog) := rfl
  rw [hcons, last_cons, if_neg (Ne.symm he), Option.or_none]
  exact hnone

theorem follows_handle (h : Follows L store s n) {batch backlog : List (Sent μ)}
    (hr : s.reader = some ⟨m :: batch, backlog⟩) (e : Option ε) :
    Follows L store { s with
        reader := some ⟨batch, backlog⟩
        store := (L.handled s.store m e).getD s.store }
      (n.handle (L.sentKey m) m.seq (L.handled s.store m e).isSome) := by
  have hreads := h.reads _ hr
  cases ht : L.handled s.store m e with
  | none =>
      refine ⟨h.whole, h.numbers, h.counted, h.positive, h.unique, h.logged, h.latest, ?_⟩
      rintro d ⟨⟩
      exact hreads.refused
  | some t =>
      obtain ⟨e, -, htake⟩ := Option.bind_eq_some_iff.mp ht
      refine ⟨fun k => ?_, h.numbers, h.counted, h.positive, h.unique, h.logged, h.latest, ?_⟩
      · rw [Option.getD_some, L.view_take _ _ _ _ htake]
        by_cases hk : L.key m.body = k
        · refine .inr ⟨m, hreads.next.1, ⟨e, s.store, t, htake⟩, hk, ?_, by rw [if_pos hk]⟩
          simp [MirrorNotes.handle, LastWins.sentKey, hk]
        · rw [if_neg hk]
          have hshown : (n.handle (L.sentKey m) m.seq (some t).isSome).shown k = n.shown k := by
            simp [MirrorNotes.handle, LastWins.sentKey, Ne.symm hk]
          rw [hshown]
          exact h.whole k
      · rintro d ⟨⟩
        exact hreads.taken

theorem note_handle {batch backlog : List (Sent μ)} (hr : s.reader = some ⟨m :: batch, backlog⟩)
    {e : Option ε} : s.note L (.handle e) s' n =
      n.handle (L.sentKey m) m.seq (L.handled s.store m e).isSome := by
  simp only [Mirror.note, hr]

/-- **A step** keeps the invariant. -/
theorem follows_step (h : Follows L store s n) (hs : s.step L a = some s') :
    Follows L store s' (s.note L a s' n) := by
  cases a with
  | publish m =>
      cases hs
      exact follows_publish h rfl
  | subscribe =>
      simp only [Mirror.step] at hs
      split at hs
      · cases hs
      · cases hs
        refine ⟨h.whole, h.numbers, h.counted, h.positive, h.unique, h.logged, h.latest, ?_⟩
        rintro d ⟨⟩
        exact reads_start h
  | deliver i =>
      obtain ⟨d, hd, rfl⟩ := Option.map_eq_some_iff.mp hs
      refine h.reading ?_
      rintro d' ⟨⟩
      exact (h.reads d hd).fetch i
  | redeliver k =>
      obtain ⟨d, hd, hs⟩ := Option.bind_eq_some_iff.mp hs
      unfold Mirror.redeliver at hs
      split at hs
      · next m hm =>
          split at hs
          · cases hs
          · next hk =>
              cases hs
              refine h.reading ?_
              rintro d' ⟨⟩
              exact (h.reads d hd).redeliver h hm hk
      · cases hs
  | handle e =>
      simp only [Mirror.step] at hs
      split at hs
      · next m batch backlog hr =>
          rw [note_handle hr]
          cases hs
          exact follows_handle h hr e
      · cases hs
  | stop =>
      cases hs
      refine h.reading ?_
      rintro d ⟨⟩

theorem follows_run {as : List (MirrorAction κ μ ε)}
    (h : (mirror L).Run (.start store, .start) as (s, n)) : Follows L store s n :=
  h.invariant (I := fun p => Follows L store p.1 p.2) follows_start
    (Machine.ghost_preserves fun _ _ _ _ _ hi hs => follows_step hi hs)

/-- **The mirror**, over every run. -/
theorem mirrored {as : List (MirrorAction κ μ ε)}
    (h : (mirror L).Run (.start store, .start) as (s, n)) : Mirrored L store s n :=
  (follows_run h).mirrored

/-! ### No way back -/

theorem shown_step (h : Follows L store s n) (hs : s.step L a = some s') :
    n.shown k ≤ (s.note L a s' n).shown k := by
  cases a with
  | handle e =>
      simp only [Mirror.step] at hs
      split at hs
      · next m batch backlog hr =>
          rw [note_handle hr, shown_handle]
          obtain ⟨-, hle, -⟩ := (h.reads _ hr).next
          split
          · next hk => exact hk.2 ▸ hle
          · exact le_refl _
      · cases hs
  | _ => exact le_refl _

/-- **The store never goes back**: of each key, the number of the message that it shows grows. -/
theorem Mirror.forward {as bs : List (MirrorAction κ μ ε)}
    (h : (mirror L).Run (.start store, .start) as (s, n)) (h' : (mirror L).Run (s, n) bs (s', n'))
    (k : κ) : n.shown k ≤ n'.shown k :=
  (h'.invariant (I := fun p => Follows L store p.1 p.2 ∧ n.shown k ≤ p.2.shown k)
    ⟨follows_run h, le_refl _⟩
    (Machine.ghost_preserves fun _ _ _ _ _ hi hs =>
      ⟨follows_step hi.1 hs, hi.2.trans (shown_step hi.1 hs)⟩)).2

/-! ### Catching up -/

/-- The reader hands over what it has, and nothing fails. -/
theorem drained (e : ε) (l : List (Sent μ)) (hs : s.reader = some ⟨l, []⟩) (hf : n.failed = [])
    (htake : ∀ m ∈ l, ∀ t, (L.take e t m.body).isSome) : ∃ as s' n',
      (mirror L).Run (s, n) as (s', n') ∧ s'.retained = s.retained ∧ s'.reader = some ⟨[], []⟩ ∧
        n'.failed = [] := by
  induction l generalizing s n with
  | nil => exact ⟨[], s, n, .refl _, rfl, hs, hf⟩
  | cons m l ih =>
      obtain ⟨hm, htake⟩ := List.forall_mem_cons.mp htake
      obtain ⟨t, ht⟩ := Option.isSome_iff_exists.mp (hm s.store)
      have hstep : s.step L (.handle (some e)) = some { s with reader := some ⟨l, []⟩, store := t } := by
        simp [Mirror.step, hs, LastWins.handled, ht]
      generalize hs₁ : { s with reader := some ⟨l, []⟩, store := t } = s₁ at hstep
      have hfail₁ : (s.note L (.handle (some e)) s₁ n).failed = [] := by
        rw [note_handle hs]
        simp [LastWins.handled, ht, MirrorNotes.handle, hf]
      have hread₁ : s₁.reader = some ⟨l, []⟩ := by rw [← hs₁]
      obtain ⟨as, s', n', hrun, hret, hread, hfail⟩ := ih hread₁ hfail₁ htake
      refine ⟨.handle (some e) :: as, s', n', ?_, ?_, hread, hfail⟩
      · exact .more trivial (Machine.ghost_step.mpr ⟨hstep, rfl⟩) hrun
      · rw [hret, ← hs₁]

/-- **A reader that comes back** can bring the store up to what is retained. -/
theorem Mirror.heals {as : List (MirrorAction κ μ ε)}
    (h : (mirror L).Run (.start store, .start) as (s, n)) (e : ε)
    (htake : ∀ m ∈ s.retained, ∀ t, (L.take e t m.body).isSome) : ∃ bs s' n',
      (mirror L).Run (s, n) bs (s', n') ∧ s'.retained = s.retained ∧
        ∀ k m, last L.sentKey k s.retained = some m → L.view s'.store k = L.value m.body := by
  have hstop : (mirror L).step (s, n) .stop = some ({ s with reader := none }, n) := by
    simp [Machine.ghost, Mirror.step, Mirror.note]
  have hsubscribe : (mirror L).step ({ s with reader := none }, n) .subscribe =
      some ({ s with reader := some (.start s.retained) }, { n with failed := [] }) := by
    simp [Machine.ghost, Mirror.step, Mirror.note]
  have hdeliver : (mirror L).step
      ({ s with reader := some (.start s.retained) }, { n with failed := [] })
      (.deliver s.retained.length) =
        some ({ s with reader := some ⟨s.retained, []⟩ }, { n with failed := [] }) := by
    simp [Machine.ghost, Mirror.step, Mirror.note, Drain.start, Drain.fetch]
  have hback := ((Machine.RunIf.one (C := fun _ _ => True) trivial hstop).snoc trivial
    hsubscribe).snoc trivial hdeliver
  obtain ⟨bs, s', n', hrun, hret, hread, hfail⟩ := drained (n := { n with failed := [] })
    (s := { s with reader := some ⟨s.retained, []⟩ }) e s.retained rfl rfl htake
  refine ⟨_, s', n', hback.append hrun, hret, fun k m hm => ?_⟩
  have hm' : last L.sentKey k s'.retained = some m := by
    rw [hret]
    exact hm
  refine ((mirrored ((h.append hback).append hrun)).settled _ hread k m hm' rfl ?_).2
  rw [hfail]
  exact List.not_mem_nil

end Runs

end BellasReef.Support
