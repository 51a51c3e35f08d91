import Mathlib.Data.List.Nodup

/-!
# Support — Retained

A stream that keeps the last message of each key (`retain`), and what a reader of it needs to
know of a list of messages: the last one of a key (`last`).

* `last_retain`: a publish replaces the message of its own key, and no other.
* `last_eq_some_iff`: where no key occurs twice, the last message is the only one.
* `foldl_last`: what a reader that takes the messages in order shows of a key is decided by the
  last message of that key.
* `Trails`: a list of messages on its way to a reader ends, key by key, with what is retained.
* `Drain` is a reader that starts at the retained messages and sees what is published meanwhile;
  `last_pending_publish` is what it has still to see.
-/

namespace BellasReef.Support

variable {κ μ : Type*} [DecidableEq κ] (key : μ → κ)

/-- The last message of a key. -/
def last (k : κ) (l : List μ) : Option μ := l.reverse.find? (key · = k)

/-- The stream after a publish: the message replaces the one of its key. -/
def retain (l : List μ) (m : μ) : List μ := l.filter (key · ≠ key m) ++ [m]

variable {key} {k : κ} {l l' : List μ} {m : μ}

theorem last_append : last key k (l ++ l') = (last key k l').or (last key k l) := by
  rw [last, List.reverse_append, List.find?_append]
  rfl

theorem last_concat : last key k (l ++ [m]) = if key m = k then some m else last key k l := by
  rw [last_append]
  by_cases h : key m = k <;> simp [last, h]

theorem last_cons :
    last key k (m :: l) = (last key k l).or (if key m = k then some m else none) := by
  rw [← List.singleton_append, last_append]
  congr 1
  by_cases h : key m = k <;> simp [last, h]

theorem mem_of_last (h : last key k l = some m) : m ∈ l ∧ key m = k :=
  ⟨List.mem_reverse.mp (List.mem_of_find?_eq_some h), by simpa using List.find?_some h⟩

theorem last_eq_none_iff : last key k l = none ↔ ∀ m ∈ l, key m ≠ k := by
  simp [last, List.find?_eq_none]

theorem isSome_last_of_mem (key : μ → κ) (h : m ∈ l) : (last key (key m) l).isSome := by
  rw [Option.isSome_iff_ne_none]
  exact fun hn => last_eq_none_iff.mp hn m h rfl

theorem last_filter_ne (h : key m ≠ k) : last key k (l.filter (key · ≠ key m)) = last key k l := by
  induction l with
  | nil => rfl
  | cons x l ih =>
      by_cases hx : key x = key m
      · rw [List.filter_cons_of_neg (by simpa using hx), ih, last_cons, hx, if_neg h, Option.or_none]
      · rw [List.filter_cons_of_pos (by simpa using hx), last_cons, last_cons, ih]

/-- **A publish replaces the message of its own key.** -/
theorem last_retain : last key k (retain key l m) = if key m = k then some m else last key k l := by
  rw [retain, last_concat]
  split
  · rfl
  · next h => exact last_filter_ne h

/-- A publish brings its own message, and no other. -/
theorem mem_retain {x : μ} (h : x ∈ retain key l m) : x ∈ l ∨ x = m :=
  (List.mem_append.mp h).imp (fun hx => (List.mem_filter.mp hx).1) List.mem_singleton.mp

theorem nodup_retain (h : (l.map key).Nodup) : ((retain key l m).map key).Nodup := by
  rw [retain, List.map_append, List.map_singleton]
  refine List.Nodup.append (h.sublist (List.filter_sublist.map key)) (List.nodup_singleton _) ?_
  intro k hk hm
  obtain ⟨x, hx, rfl⟩ := List.mem_map.mp hk
  have hne : key x ≠ key m := by simpa using List.of_mem_filter hx
  exact hne (List.mem_singleton.mp hm)

/-- Whatever was published, no key is retained twice. -/
theorem nodup_foldl_retain (h : (l.map key).Nodup) :
    ((l'.foldl (retain key) l).map key).Nodup := by
  induction l' generalizing l with
  | nil => exact h
  | cons m l' ih => exact ih (nodup_retain h)

/-- Where no key occurs twice, the last message of a key is its only one. -/
theorem last_eq_some_iff (h : (l.map key).Nodup) : last key k l = some m ↔ m ∈ l ∧ key m = k := by
  refine ⟨mem_of_last, ?_⟩
  rintro ⟨hm, rfl⟩
  obtain ⟨x, hx⟩ := Option.isSome_iff_exists.mp (isSome_last_of_mem key hm)
  obtain ⟨hxl, hk⟩ := mem_of_last hx
  rw [hx, List.inj_on_of_nodup_map h hxl hm hk]

/-- A message of the list published last, or else what was retained. -/
theorem last_foldl_retain :
    last key k (l'.foldl (retain key) l) = (last key k l').or (last key k l) := by
  induction l' generalizing l with
  | nil => rfl
  | cons m l' ih =>
      rw [List.foldl_cons, ih, last_retain, last_cons, Option.or_assoc]
      congr 1
      split <;> rfl

/-- **The last message decides.**  A reader that shows of a key what its last message says, shows
after a list of messages what the list's last message of that key says. -/
theorem foldl_last {σ β : Type*} (f : σ → μ → σ) (view : σ → β) (value : μ → β)
    (hf : ∀ s m, view (f s m) = if key m = k then value m else view s) (s : σ) :
    view (l.foldl f s) = (last key k l).elim (view s) value := by
  induction l generalizing s with
  | nil => rfl
  | cons m l ih =>
      rw [List.foldl_cons, ih, last_cons, hf]
      cases last key k l with
      | some x => rfl
      | none => split <;> rfl

/-! ### Following the stream -/

/-- A list of messages ends, for each key it has, with the message that is retained. -/
def Trails (key : μ → κ) (retained l : List μ) : Prop :=
  ∀ k m, last key k l = some m → last key k retained = some m

section Trails
variable {retained : List μ}

theorem Trails.nil : Trails key retained [] := by
  intro k m hm
  cases hm

theorem Trails.refl : Trails key l l := fun _ _ hm => hm

theorem Trails.tail (h : Trails key retained (m :: l)) : Trails key retained l := by
  intro k x hx
  refine h k x ?_
  rw [last_cons, hx]
  rfl

/-- The next message is retained, if no later one of its key is to come. -/
theorem Trails.head (h : Trails key retained (m :: l)) (hl : last key (key m) l = none) :
    last key (key m) retained = some m := by
  refine h (key m) m ?_
  rw [last_cons, hl, if_pos rfl]
  rfl

/-- A publish is what its key ends with, on the stream and on what follows it. -/
theorem Trails.publish (h : Trails key retained l)
    (hl : ∀ k, last key k l' = if key m = k then some m else last key k l) :
    Trails key (retain key retained m) l' := by
  intro k x hx
  rw [hl] at hx
  rw [last_retain]
  split at hx
  · next hk => rw [if_pos hk, hx]
  · next hk => rw [if_neg hk]; exact h k x hx

end Trails

/-! ### Draining -/

/-- A reader of the stream: what it has fetched, and what the broker has still to send it. -/
structure Drain (μ : Type*) where
  batch : List μ
  backlog : List μ
  deriving DecidableEq

namespace Drain

/-- A reader that starts at the retained messages. -/
def start (retained : List μ) : Drain μ := ⟨[], retained⟩

/-- What it has still to see. -/
def pending (d : Drain μ) : List μ := d.batch ++ d.backlog

/-- A publish, as it reaches the reader. -/
def publish (key : μ → κ) (d : Drain μ) (m : μ) : Drain μ := ⟨d.batch, retain key d.backlog m⟩

/-- `n` messages of the backlog. -/
def fetch (d : Drain μ) (n : ℕ) : Drain μ := ⟨d.batch ++ d.backlog.take n, d.backlog.drop n⟩

variable {d : Drain μ} {n : ℕ}

omit [DecidableEq κ] in
@[simp] theorem pending_fetch : (d.fetch n).pending = d.pending := by
  rw [pending, fetch, pending, List.append_assoc, List.take_append_drop]

/-- A publish is the last message of its key that the reader has to see. -/
theorem last_pending_publish :
    last key k (d.publish key m).pending = if key m = k then some m else last key k d.pending := by
  rw [pending, publish, pending, last_append, last_append, last_retain]
  split <;> rfl

theorem mem_pending_publish {x : μ} (h : x ∈ (d.publish key m).pending) :
    x ∈ d.pending ∨ x = m := by
  rcases List.mem_append.mp h with hx | hx
  · exact .inl (List.mem_append_left _ hx)
  · exact (mem_retain hx).imp_left (List.mem_append_right _)

end Drain

end BellasReef.Support
