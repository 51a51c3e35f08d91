import BellasReef.Support.StepSignal
import Mathlib.Algebra.Order.Floor.Ring
import Mathlib.Data.List.AList
import Mathlib.Data.List.Sort
import Mathlib.Data.Prod.Lex
import Mathlib.Data.Rat.Floor

/-!
# API — Step buckets

`step_buckets` (`history.py`): what an actuator's chart shows of a light, whose samples are
published on change and held until the next.  Instants are rational seconds and the arithmetic is
exact.

* `bucketOf_spec`: the walk over one bucket tiles the part of it on which the signal has a value.
* `step_buckets_exact`: the loop ends; its buckets are the pieces of the window with a value in
  them, each with the time-weighted integral and the extremes of the step signal; a coarse bucket
  has the extremes of the finer ones it is made of; and there are no more than were asked for.
-/

namespace BellasReef.Api.History
open BellasReef.Support

/-! ### Buckets -/

/-- One point of the envelope. -/
structure Bucket where
  «at» : ℚ
  minimum : ℚ
  average : ℚ
  maximum : ℚ
  deriving DecidableEq, Repr

/-- `MAX_BUCKETS`. -/
def maxBuckets : ℤ := 1000

/-- `HistoryReader.bucket_seconds`. -/
def bucketSeconds (start «end» : ℚ) (buckets : ℤ) : ℤ :=
  max 1 ⌈max («end» - start) 1 / (max 1 (min buckets maxBuckets) : ℤ)⌉

/-- `ordered`: a dict, in which the last sample wins on a shared time. -/
def ordered (samples : List (ℚ × ℚ)) : AList fun _ : ℚ => ℚ :=
  (samples.insertionSort fun a b => a.1 ≤ b.1).foldl (fun d s => d.insert s.1 s.2) ∅

/-- `points`: its items, sorted as tuples. -/
def points (samples : List (ℚ × ℚ)) : List (ℚ × ℚ) :=
  ((ordered samples).entries.map fun e => (e.1, e.2)).insertionSort fun a b => toLex a ≤ toLex b

/-- `held`: the last point at `t0` or before, found by a loop that breaks after it. -/
def heldAt (points : List (ℚ × ℚ)) (t0 : ℚ) : Option ℚ :=
  ((points.takeWhile fun p => p.1 ≤ t0).getLast?).map Prod.snd

/-- The walk across the bucket: its `segments`, from `cursor` on. -/
def walk (t1 cursor current : ℚ) : List (ℚ × ℚ) → List (ℚ × ℚ)
  | [] => if cursor < t1 then [(t1 - cursor, current)] else []
  | (t, value) :: rest =>
      (if cursor < t then [(t - cursor, current)] else []) ++ walk t1 t value rest

/-- What the segments come to. -/
def summarize (t0 : ℚ) (segments : List (ℚ × ℚ)) : Option Bucket :=
  let covered := (segments.map Prod.fst).sum
  let values := segments.map Prod.snd
  if covered ≤ 0 then none
  else
    match values.min?, values.max? with
    | some minimum, some maximum =>
        some ⟨t0, minimum, (segments.map fun s => s.1 * s.2).sum / covered, maximum⟩
    | _, _ => none

/-- One round of the loop. -/
def bucketOf (points : List (ℚ × ℚ)) (t0 t1 : ℚ) : Option Bucket :=
  let inside := points.filter fun p => t0 < p.1 ∧ p.1 < t1
  match heldAt points t0, inside with
  | some held, _ => summarize t0 (walk t1 t0 held inside)
  | none, (t, value) :: _ => summarize t0 (walk t1 t value inside)
  | none, [] => none

/-- `while t0 < end`; `none` where the fuel runs out. -/
def bucketLoop (points : List (ℚ × ℚ)) («end» : ℚ) (stepS : ℤ) : ℕ → ℚ → Option (List Bucket)
  | 0, _ => none
  | fuel + 1, t0 =>
      if t0 < «end» then
        let t1 := min (t0 + stepS) «end»
        (bucketLoop points «end» stepS fuel t1).map ((bucketOf points t0 t1).toList ++ ·)
      else some []

/-- `step_buckets`. -/
def stepBuckets (fuel : ℕ) (samples : List (ℚ × ℚ)) (start «end» : ℚ) (stepS : ℤ) :
    Option (List Bucket) :=
  if samples = [] ∨ «end» ≤ start then some []
  else bucketLoop (points samples) «end» stepS fuel start

/-! ### The points -/

variable {samples : List (ℚ × ℚ)} {t0 t1 τ v c : ℚ}

/-- In time order, and no others than the last sample of each time. -/
structure Resolves (samples ps : List (ℚ × ℚ)) : Prop where
  ascending : ps.Pairwise fun a b => a.1 < b.1
  mem_iff : ∀ τ v, (τ, v) ∈ ps ↔ lastAt samples τ = some v

instance totalFst : Std.Total fun a b : ℚ × ℚ => a.1 ≤ b.1 := ⟨fun a b => le_total a.1 b.1⟩
instance isTransFst : IsTrans (ℚ × ℚ) fun a b => a.1 ≤ b.1 := ⟨fun _ _ _ => le_trans⟩
instance totalToLex : Std.Total fun a b : ℚ × ℚ => toLex a ≤ toLex b :=
  ⟨fun a b => le_total (toLex a) (toLex b)⟩
instance isTransToLex : IsTrans (ℚ × ℚ) fun a b => toLex a ≤ toLex b := ⟨fun _ _ _ => le_trans⟩

/-- The sort is stable: on a shared time it leaves the samples as they came. -/
theorem lastAt_insertionSort (samples : List (ℚ × ℚ)) (τ : ℚ) :
    lastAt (samples.insertionSort fun a b => a.1 ≤ b.1) τ = lastAt samples τ := by
  have hsub : (samples.filter fun s => s.1 = τ).Sublist
      (samples.insertionSort fun a b => a.1 ≤ b.1) := by
    refine List.sublist_insertionSort (List.pairwise_of_forall_mem_list fun a ha b hb => ?_)
      List.filter_sublist
    have ha := of_decide_eq_true (List.mem_filter.mp ha).2
    have hb := of_decide_eq_true (List.mem_filter.mp hb).2
    exact (ha.trans hb.symm).le
  have hsub := hsub.filter fun s => decide (s.1 = τ)
  rw [List.filter_filter] at hsub
  simp only [Bool.and_self] at hsub
  have hperm := (List.perm_insertionSort (fun a b : ℚ × ℚ => a.1 ≤ b.1) samples).filter
    fun s => decide (s.1 = τ)
  rw [lastAt, lastAt, hsub.eq_of_length hperm.length_eq.symm]

/-- The last of several values of one time stays. -/
theorem lookup_foldl_insert (l : List (ℚ × ℚ)) (τ : ℚ) :
    (l.foldl (fun d s => d.insert s.1 s.2) (∅ : AList fun _ : ℚ => ℚ)).lookup τ = lastAt l τ := by
  induction l using List.reverseRecOn with
  | nil => rfl
  | append_singleton l s ih =>
      rw [List.foldl_append, List.foldl_cons, List.foldl_nil, lastAt, List.filter_append]
      by_cases h : s.1 = τ
      · subst h
        simp
      · rw [AList.lookup_insert_ne (Ne.symm h), ih]
        simp [lastAt, h]

/-- Each time has its last value. -/
theorem mem_points : (τ, v) ∈ points samples ↔ lastAt samples τ = some v := by
  rw [points, List.mem_insertionSort, ← lastAt_insertionSort samples τ, ← lookup_foldl_insert,
    ← Option.mem_def, AList.mem_lookup_iff]
  constructor
  · rintro h
    obtain ⟨e, he, heq⟩ := List.mem_map.mp h
    obtain ⟨rfl, rfl⟩ := Prod.mk.inj heq
    exact he
  · exact fun h => List.mem_map.mpr ⟨⟨τ, v⟩, h, rfl⟩

/-- **The points resolve the samples.** -/
theorem resolves_points (samples : List (ℚ × ℚ)) : Resolves samples (points samples) := by
  refine ⟨?_, fun τ v => mem_points⟩
  have hsorted : (points samples).Pairwise fun a b => toLex a ≤ toLex b :=
    List.pairwise_insertionSort _ _
  have hkeys : ((points samples).map Prod.fst).Nodup := by
    have hperm := (List.perm_insertionSort (fun a b : ℚ × ℚ => toLex a ≤ toLex b)
      ((ordered samples).entries.map fun e => (e.1, e.2))).map Prod.fst
    refine hperm.nodup_iff.mpr ?_
    rw [List.map_map]
    exact (ordered samples).nodupKeys
  refine (hsorted.and (List.pairwise_map.mp hkeys)).imp ?_
  rintro a b ⟨hle, hne⟩
  exact (Prod.Lex.le_iff.mp hle).elim id fun h => absurd h.1 hne

/-- What the samples are resolved to does not depend on their order, if no time is shared. -/
theorem points_perm {samples' : List (ℚ × ℚ)} (h : samples.Perm samples')
    (hnodup : (samples.map Prod.fst).Nodup) : points samples' = points samples := by
  -- where no time is shared, the last sample at a time is the one there is
  have hlast {l : List (ℚ × ℚ)} (hl : (l.map Prod.fst).Nodup) (τ v : ℚ) :
      lastAt l τ = some v ↔ (τ, v) ∈ l := by
    refine ⟨mem_of_lastAt, fun hmem => ?_⟩
    obtain ⟨w, hw⟩ := lastAt_isSome hmem
    obtain rfl : v = w := by
      have := List.inj_on_of_nodup_map hl hmem (mem_of_lastAt hw) rfl
      exact congrArg Prod.snd this
    exact hw
  have hmem : ∀ p, p ∈ points samples' ↔ p ∈ points samples := by
    rintro ⟨τ, v⟩
    rw [mem_points, mem_points, hlast hnodup, hlast ((h.map Prod.fst).nodup_iff.mp hnodup),
      h.mem_iff]
  have hasc := fun l => (resolves_points l).ascending
  -- two ascending lists of the same points are one
  have hperm : (points samples').Perm (points samples) :=
    (List.perm_ext_iff_of_nodup ((hasc _).imp fun h => by rintro rfl; exact lt_irrefl _ h)
      ((hasc _).imp fun h => by rintro rfl; exact lt_irrefl _ h)).mpr hmem
  have hasymm : ∀ a b : ℚ × ℚ, a ∈ points samples' → b ∈ points samples → a.1 < b.1 →
      b.1 < a.1 → a = b := fun a b _ _ hab hba => absurd hab hba.asymm
  exact hperm.eq_of_pairwise hasymm (hasc _) (hasc _)

/-! ### One bucket -/

variable {ps rest : List (ℚ × ℚ)}

/-- The signal's value at `x`, from a point that no other point up to `x` is after. -/
theorem Resolves.inForce (h : Resolves samples ps) {x : ℝ} (hτ : (τ, v) ∈ ps) (hle : (τ : ℝ) ≤ x)
    (hlast : ∀ p ∈ ps, (p.1 : ℝ) ≤ x → p.1 ≤ τ) : InForce samples x v := by
  refine ⟨τ, hle, (h.mem_iff τ v).mp hτ, fun s hs hsx => ?_⟩
  obtain ⟨w, hw⟩ := lastAt_isSome hs
  exact hlast (s.1, w) ((h.mem_iff _ _).mpr hw) hsx

/-- A value is in force from its time on. -/
theorem Resolves.exists_le (h : Resolves samples ps) {x : ℝ} (hv : InForce samples x v) :
    ∃ p ∈ ps, (p.1 : ℝ) ≤ x := by
  obtain ⟨τ, hτ, hlast, -⟩ := hv
  exact ⟨(τ, v), (h.mem_iff τ v).mpr hlast, hτ⟩

theorem heldAt_cons (p : ℚ × ℚ) (ps : List (ℚ × ℚ)) :
    heldAt (p :: ps) t0 = if p.1 ≤ t0 then (heldAt ps t0).or (some p.2) else none := by
  by_cases hle : p.1 ≤ t0
  · rw [if_pos hle, heldAt, heldAt, List.takeWhile_cons_of_pos (by simpa using hle),
      List.getLast?_cons]
    cases (ps.takeWhile fun p => p.1 ≤ t0).getLast? <;> rfl
  · rw [if_neg hle, heldAt, List.takeWhile_cons_of_neg (by simpa using hle)]
    rfl

/-- Nothing is held before the first point. -/
theorem heldAt_eq_none (hasc : ps.Pairwise fun a b => a.1 < b.1) (h : heldAt ps t0 = none) :
    ∀ p ∈ ps, t0 < p.1 := by
  cases ps with
  | nil => exact nofun
  | cons p ps =>
      have hp : t0 < p.1 := by
        by_contra hle
        simp [heldAt_cons, not_lt.mp hle] at h
      exact List.forall_mem_cons.mpr
        ⟨hp, fun q hq => hp.trans ((List.pairwise_cons.mp hasc).1 q hq)⟩

/-- What is held is the value of the last point before. -/
theorem heldAt_eq_some (hasc : ps.Pairwise fun a b => a.1 < b.1) (h : heldAt ps t0 = some v) :
    ∃ τ, (τ, v) ∈ ps ∧ τ ≤ t0 ∧ ∀ p ∈ ps, p.1 ≤ t0 → p.1 ≤ τ := by
  induction ps with
  | nil => cases h
  | cons p ps ih =>
      obtain ⟨hp, hasc⟩ := List.pairwise_cons.mp hasc
      rw [heldAt_cons] at h
      split at h
      case isFalse => cases h
      case isTrue hle =>
        cases hrest : heldAt ps t0 with
        | some w =>
            obtain rfl : w = v := by simpa [hrest] using h
            obtain ⟨τ, hτ, hτle, hlast⟩ := ih hasc hrest
            exact ⟨τ, List.mem_cons_of_mem _ hτ, hτle,
              List.forall_mem_cons.mpr ⟨fun _ => (hp _ hτ).le, hlast⟩⟩
        | none =>
            -- the loop breaks right after `p`
            obtain rfl : p.2 = v := by simpa [hrest] using h
            refine ⟨p.1, List.mem_cons_self, hle, List.forall_mem_cons.mpr ⟨fun _ => le_rfl, ?_⟩⟩
            exact fun q hq hqle => absurd hqle (not_le.mpr (heldAt_eq_none hasc hrest q hq))

/-- **The walk tiles what is left of the bucket**, from a cursor whose value is in force. -/
theorem walk_tiles (h : Resolves samples ps) (hτ : (τ, v) ∈ ps) (hle : τ ≤ c)
    (hlast : ∀ p ∈ ps, p.1 ≤ c → p.1 ≤ τ) (hc : c ≤ t1)
    (hasc : rest.Pairwise fun a b => a.1 < b.1)
    (hrest : ∀ p ∈ rest, p ∈ ps ∧ c < p.1 ∧ p.1 < t1)
    (hall : ∀ p ∈ ps, p.1 < t1 → p.1 ≤ c ∨ p ∈ rest) :
    Tiles (InForce samples) c t1 (walk t1 c v rest) := by
  -- the cursor `c` holds the value of the last point up to it, and `rest` is all that comes after
  induction rest generalizing c v τ with
  | nil =>
      rw [walk]
      obtain hc | rfl := hc.lt_or_eq
      · rw [if_pos hc]
        refine .cons hc (fun x hcx hxt => ?_) (.nil t1)
        refine h.inForce hτ ((Rat.cast_le.mpr hle).trans hcx) fun p hp hpx => ?_
        have hpt : p.1 < t1 := by exact_mod_cast hpx.trans_lt hxt
        exact hlast p hp ((hall p hp hpt).resolve_right (List.not_mem_nil))
      · rw [if_neg (lt_irrefl c)]
        exact .nil c
  | cons q rest ih =>
      obtain ⟨t, w⟩ := q
      obtain ⟨⟨hmem, hct, htt⟩, hrest⟩ := List.forall_mem_cons.mp hrest
      obtain ⟨hq, hasc⟩ := List.pairwise_cons.mp hasc
      rw [walk, if_pos hct, List.singleton_append]
      refine .cons hct (fun x hcx hxt => ?_) ?_
      · -- up to the next change the value stays
        refine h.inForce hτ ((Rat.cast_le.mpr hle).trans hcx) fun p hp hpx => ?_
        have hpt : p.1 < t := by exact_mod_cast hpx.trans_lt hxt
        obtain hpc | hpr := hall p hp (hpt.trans htt)
        · exact hlast p hp hpc
        · obtain rfl | hpr := List.mem_cons.mp hpr
          · exact absurd hpt (lt_irrefl _)
          · exact absurd hpt (hq p hpr).asymm
      · -- from there on, that change is the last point up to the cursor
        refine ih hmem le_rfl (fun p _ hpt => hpt) htt.le hasc
          (fun p hp => ⟨(hrest p hp).1, hq p hp, (hrest p hp).2.2⟩) fun p hp hpt => ?_
        obtain hpc | hpr := hall p hp hpt
        · exact .inl (hpc.trans hct.le)
        · obtain rfl | hpr := List.mem_cons.mp hpr
          · exact .inl le_rfl
          · exact .inr hpr

/-- The bucket of the step signal over `[t0, t1)`, on the part of which from `c` on it has a
value. -/
structure BucketSpec (samples : List (ℚ × ℚ)) (t0 t1 : ℚ) (b : Bucket) : Prop where
  start : b.at = t0
  covered : ∃ c : ℚ, t0 ≤ c ∧ c < t1 ∧
    (∀ x : ℝ, t0 ≤ x → x < t1 → ((∃ v, InForce samples x v) ↔ c ≤ x)) ∧
    (b.average : ℝ) = (∫ x in (c : ℝ)..t1, stepSignal samples x) / (t1 - c)
  isLeast : IsLeast {v | HeldFor (InForce samples) t0 t1 v} b.minimum
  isGreatest : IsGreatest {v | HeldFor (InForce samples) t0 t1 v} b.maximum
  minimum_le : b.minimum ≤ b.average
  le_maximum : b.average ≤ b.maximum

/-- Before the part with a value nothing is held. -/
theorem heldFor_covered (hc0 : t0 ≤ c)
    (hcov : ∀ x : ℝ, t0 ≤ x → x < t1 → ((∃ v, InForce samples x v) ↔ c ≤ x)) :
    {v | HeldFor (InForce samples) t0 t1 v} = {v | HeldFor (InForce samples) c t1 v} := by
  ext v
  refine ⟨?_, fun h => h.mono hc0 le_rfl⟩
  rintro ⟨x, y, hx, hxy, hy, hv⟩
  exact ⟨x, y, (hcov x hx (hxy.trans_le hy)).mp ⟨v, hv x le_rfl hxy⟩, hxy, hy, hv⟩

/-- **A bucket** of pieces that tile it is right about all of it. -/
theorem summarize_spec {segs : List (ℚ × ℚ)} (ht : Tiles (InForce samples) c t1 segs)
    (hc0 : t0 ≤ c) (hc : c < t1)
    (hcov : ∀ x : ℝ, t0 ≤ x → x < t1 → ((∃ v, InForce samples x v) ↔ c ≤ x)) :
    ∃ b, summarize t0 segs = some b ∧ BucketSpec samples t0 t1 b := by
  have hpos : 0 < (segs.map Prod.fst).sum := by rw [ht.total]; exact sub_pos.mpr hc
  have hne : segs.map Prod.snd ≠ [] := by
    rintro hnil
    rw [List.map_eq_nil_iff.mp hnil] at hpos
    exact lt_irrefl _ hpos
  obtain ⟨lo, hlo⟩ := Option.isSome_iff_exists.mp (List.isSome_min?_of_ne_nil hne)
  obtain ⟨hi, hhi⟩ := Option.isSome_iff_exists.mp (List.isSome_max?_of_ne_nil hne)
  refine ⟨⟨t0, lo, (segs.map fun s => s.1 * s.2).sum / (segs.map Prod.fst).sum, hi⟩, ?_, ?_⟩
  · simp only [summarize]
    rw [if_neg (not_le.mpr hpos), hlo, hhi]
  have huniq : ∀ x v w, InForce samples x v → InForce samples x w → v = w :=
    fun _ _ _ => InForce.unique
  have hheld := heldFor_covered hc0 hcov
  constructor
  · rfl
  · -- the weighted sum over the segments is the integral
    refine ⟨c, hc0, hc, hcov, ?_⟩
    rw [(ht.integral fun _ _ => stepSignal_eq).2, ht.total]
    push_cast
    rfl
  · rw [hheld]; exact ht.isLeast huniq hlo
  · rw [hheld]; exact ht.isGreatest huniq hhi
  · rw [le_div_iff₀ hpos]
    exact le_weighted ht.pos fun s hs =>
      (List.min?_eq_some_iff.mp hlo).2 _ (List.mem_map_of_mem hs)
  · rw [div_le_iff₀ hpos]
    exact weighted_le ht.pos fun s hs =>
      (List.max?_eq_some_iff.mp hhi).2 _ (List.mem_map_of_mem hs)

/-- **One round**: no bucket where no instant has a value, else the signal's. -/
theorem bucketOf_spec (h : Resolves samples ps) (hlt : t0 < t1) :
    (bucketOf ps t0 t1 = none ∧ ∀ x : ℝ, x < t1 → ∀ v, ¬InForce samples x v) ∨
      ∃ b, bucketOf ps t0 t1 = some b ∧ BucketSpec samples t0 t1 b := by
  set inside := ps.filter fun p => t0 < p.1 ∧ p.1 < t1 with hinside
  have hmem : ∀ p ∈ inside, p ∈ ps ∧ t0 < p.1 ∧ p.1 < t1 := fun p hp =>
    ⟨(List.mem_filter.mp hp).1, of_decide_eq_true (List.mem_filter.mp hp).2⟩
  have hin : ∀ p ∈ ps, t0 < p.1 → p.1 < t1 → p ∈ inside := fun p hp h0 h1 =>
    List.mem_filter.mpr ⟨hp, decide_eq_true ⟨h0, h1⟩⟩
  have hasc : inside.Pairwise fun a b => a.1 < b.1 := h.ascending.filter _
  rw [bucketOf, ← hinside]
  cases hheld : heldAt ps t0 with
  | some held =>
      -- a value is held already when the bucket begins
      obtain ⟨τ, hτ, hτ0, hlast⟩ := heldAt_eq_some h.ascending hheld
      have ht := walk_tiles h hτ hτ0 hlast hlt.le hasc hmem fun p hp hpt =>
        (le_or_gt p.1 t0).imp id fun h0 => hin p hp h0 hpt
      refine .inr (summarize_spec ht le_rfl hlt fun x hx hxt => ⟨fun _ => hx, fun _ => ?_⟩)
      obtain ⟨s, -, hs⟩ := ht.covers hx hxt
      exact ⟨s.2, hs⟩
  | none =>
      have hafter := heldAt_eq_none h.ascending hheld
      cases hcases : inside with
      | nil =>
          -- with no change in it, nothing has a value before the bucket ends
          refine .inl ⟨rfl, fun x hx v hv => ?_⟩
          obtain ⟨p, hp, hpx⟩ := h.exists_le hv
          have hpt : p.1 < t1 := by exact_mod_cast hpx.trans_lt hx
          have := hin p hp (hafter p hp) hpt
          rw [hcases] at this
          cases this
      | cons q rest =>
          -- the walk starts at the first change, whose own step is over at once
          obtain ⟨t, value⟩ := q
          rw [hcases] at hmem hin hasc
          obtain ⟨⟨htps, ht0, ht1⟩, hmem⟩ := List.forall_mem_cons.mp hmem
          obtain ⟨hfirst, hasc⟩ := List.pairwise_cons.mp hasc
          have hle : ∀ p ∈ ps, p.1 < t1 → p = (t, value) ∨ p ∈ rest := fun p hp hpt =>
            List.mem_cons.mp (hin p hp (hafter p hp) hpt)
          have ht := walk_tiles h htps le_rfl (fun _ _ hpt => hpt) ht1.le hasc
            (fun p hp => ⟨(hmem p hp).1, hfirst p hp, (hmem p hp).2.2⟩) fun p hp hpt =>
              (hle p hp hpt).imp (fun heq => (congrArg Prod.fst heq).le) id
          simp only [walk, if_neg (lt_irrefl t), List.nil_append]
          refine .inr (summarize_spec ht ht0.le ht1 fun x hx hxt => ⟨?_, fun hx => ?_⟩)
          · rintro ⟨v, hv⟩
            obtain ⟨p, hp, hpx⟩ := h.exists_le hv
            have hpt : p.1 < t1 := by exact_mod_cast hpx.trans_lt hxt
            refine le_trans (Rat.cast_le.mpr ?_) hpx
            obtain rfl | hp := hle p hp hpt
            · exact le_rfl
            · exact (hfirst p hp).le
          · obtain ⟨s, -, hs⟩ := ht.covers hx hxt
            exact ⟨s.2, hs⟩

/-! ### The loop -/

/-- The consecutive `stepS`-long pieces of `[start, end)`, the last one cut off at `end`. -/
def pieces (start «end» : ℚ) (stepS : ℤ) : List (ℚ × ℚ) :=
  (List.range ⌈(«end» - start) / stepS⌉₊).map fun k : ℕ =>
    (start + k * stepS, min (start + (k + 1) * stepS) «end»)

variable {start «end» x y : ℚ} {stepS : ℤ} {fuel : ℕ} {p : ℚ × ℚ}

theorem pieces_eq_nil (hstep : 1 ≤ stepS) (h : «end» ≤ start) : pieces start «end» stepS = [] := by
  have hstep : (0 : ℚ) < stepS := by exact_mod_cast hstep
  rw [pieces, Nat.ceil_eq_zero.mpr (div_nonpos_of_nonpos_of_nonneg (sub_nonpos.mpr h) hstep.le)]
  rfl

/-- The number of pieces, one by one. -/
theorem ceil_pieces (hstep : 1 ≤ stepS) (h : start < «end») :
    ⌈(«end» - start) / stepS⌉₊ = ⌈(«end» - min (start + stepS) «end») / stepS⌉₊ + 1 := by
  have hstep : (0 : ℚ) < stepS := by exact_mod_cast hstep
  obtain hle | hlt := le_or_gt (start + stepS) «end»
  · have hnonneg : 0 ≤ («end» - (start + stepS)) / stepS := div_nonneg (sub_nonneg.mpr hle) hstep.le
    rw [min_eq_left hle, ← Nat.ceil_add_one hnonneg]
    congr 1
    field_simp
    ring
  · rw [min_eq_right hlt.le, sub_self, zero_div, Nat.ceil_zero, zero_add,
      Nat.ceil_eq_iff one_ne_zero]
    constructor
    · simpa using div_pos (sub_pos.mpr h) hstep
    · simpa using (div_le_one hstep).mpr (by linarith)

/-- The first piece, and those of the rest. -/
theorem pieces_cons (hstep : 1 ≤ stepS) (h : start < «end») :
    pieces start «end» stepS = (start, min (start + stepS) «end») ::
      pieces (min (start + stepS) «end») «end» stepS := by
  rw [pieces, ceil_pieces hstep h, List.range_succ_eq_map, List.map_cons, List.map_map]
  refine congrArg₂ _ (by simp) ?_
  obtain hle | hlt := le_or_gt (start + stepS) «end»
  · rw [min_eq_left hle, pieces]
    refine List.map_congr_left fun k _ => ?_
    simp only [Function.comp_apply, Nat.succ_eq_add_one, Nat.cast_add, Nat.cast_one]
    exact congrArg₂ Prod.mk (by ring) (congrArg (min · «end») (by ring))
  · rw [min_eq_right hlt.le, pieces_eq_nil hstep le_rfl, sub_self, zero_div, Nat.ceil_zero]
    rfl

/-- **Every instant of the window is in a piece.** -/
theorem pieces_cover (hstep : 1 ≤ stepS) {x : ℝ} (hx : start ≤ x) (hlt : x < «end») :
    ∃ p ∈ pieces start «end» stepS, (p.1 : ℝ) ≤ x ∧ x < p.2 := by
  have hstep : (0 : ℝ) < stepS := by exact_mod_cast hstep
  have hq : 0 ≤ (x - start) / stepS := div_nonneg (sub_nonneg.mpr hx) hstep.le
  set k := ⌊(x - start) / stepS⌋₊ with hk
  have hle : k * stepS ≤ x - start := (le_div_iff₀ hstep).mp (Nat.floor_le hq)
  have hgt : x - start < (k + 1) * stepS := (div_lt_iff₀ hstep).mp (Nat.lt_floor_add_one _)
  refine ⟨_, List.mem_map.mpr ⟨k, List.mem_range.mpr (Nat.lt_ceil.mpr ?_), rfl⟩, ?_, ?_⟩
  · have : (k : ℝ) < («end» - start) / stepS := by
      rw [lt_div_iff₀ hstep]
      linarith
    exact_mod_cast this
  · push_cast
    linarith
  · push_cast
    exact lt_min (by linarith) hlt

/-- The buckets of the pieces that have one. -/
inductive BucketsOf (samples : List (ℚ × ℚ)) : List (ℚ × ℚ) → List Bucket → Prop where
  | nil : BucketsOf samples [] []
  | skip {p : ℚ × ℚ} {ps : List (ℚ × ℚ)} {bs : List Bucket}
      (hnone : ∀ x : ℝ, p.1 ≤ x → x < p.2 → ∀ v, ¬InForce samples x v)
      (h : BucketsOf samples ps bs) : BucketsOf samples (p :: ps) bs
  | bucket {p : ℚ × ℚ} {ps : List (ℚ × ℚ)} {b : Bucket} {bs : List Bucket}
      (hb : BucketSpec samples p.1 p.2 b) (h : BucketsOf samples ps bs) :
      BucketsOf samples (p :: ps) (b :: bs)

/-- **The loop ends** in as many rounds as there are pieces, and goes through them. -/
theorem bucketLoop_eq (hstep : 1 ≤ stepS) (fuel : ℕ) (t0 : ℚ) :
    bucketLoop ps «end» stepS fuel t0 = if ⌈(«end» - t0) / stepS⌉₊ < fuel then
      some ((pieces t0 «end» stepS).filterMap fun p => bucketOf ps p.1 p.2) else none := by
  induction fuel generalizing t0 with
  | zero => simp [bucketLoop]
  | succ fuel ih =>
      rw [bucketLoop]
      by_cases h : t0 < «end»
      · simp only [if_pos h, ih, ceil_pieces hstep h, pieces_cons hstep h]
        simp only [Nat.add_lt_add_iff_right]
        split
        · cases hb : bucketOf ps t0 (min (t0 + stepS) «end») <;> simp [hb]
        · rfl
      · have hnil := pieces_eq_nil hstep (not_lt.mp h)
        have hzero : ⌈(«end» - t0) / stepS⌉₊ = 0 := by simpa [pieces] using hnil
        rw [if_neg h, hnil, hzero, if_pos (Nat.succ_pos fuel)]
        rfl

/-! ### What the function returns -/

variable {qs : List (ℚ × ℚ)} {bs out : List Bucket} {b B : Bucket}

namespace BucketsOf

/-- There are no more buckets than pieces. -/
theorem length_le (h : BucketsOf samples qs bs) : bs.length ≤ qs.length := by
  induction h with
  | nil => exact le_rfl
  | skip _ _ ih => exact ih.trans (Nat.le_succ _)
  | bucket _ _ ih => exact Nat.succ_le_succ ih

/-- Every bucket is of a piece. -/
theorem piece_of_mem (h : BucketsOf samples qs bs) (hb : b ∈ bs) :
    ∃ q ∈ qs, BucketSpec samples q.1 q.2 b := by
  induction h with
  | nil => cases hb
  | skip _ _ ih =>
      obtain ⟨q, hq, hspec⟩ := ih hb
      exact ⟨q, List.mem_cons_of_mem _ hq, hspec⟩
  | bucket hspec _ ih =>
      obtain rfl | hb := List.mem_cons.mp hb
      · exact ⟨_, List.mem_cons_self, hspec⟩
      · obtain ⟨q, hq, hspec⟩ := ih hb
        exact ⟨q, List.mem_cons_of_mem _ hq, hspec⟩

/-- Every piece in which something was held has its bucket. -/
theorem mem_of_piece (h : BucketsOf samples qs bs) (hp : p ∈ qs)
    (hv : HeldFor (InForce samples) p.1 p.2 v) : ∃ b ∈ bs, BucketSpec samples p.1 p.2 b := by
  induction h with
  | nil => cases hp
  | skip hnone _ ih =>
      obtain rfl | hp := List.mem_cons.mp hp
      · obtain ⟨x, y, hx, hxy, hy, hv⟩ := hv
        exact absurd (hv x le_rfl hxy) (hnone x hx (hxy.trans_le hy) v)
      · exact ih hp
  | bucket hspec _ ih =>
      obtain rfl | hp := List.mem_cons.mp hp
      · exact ⟨_, List.mem_cons_self, hspec⟩
      · obtain ⟨b, hb, hspec⟩ := ih hp
        exact ⟨b, List.mem_cons_of_mem _ hb, hspec⟩

end BucketsOf

/-- The buckets of the code are those of the pieces. -/
theorem bucketsOf_filterMap (h : Resolves samples ps) (hlt : ∀ q ∈ qs, q.1 < q.2) :
    BucketsOf samples qs (qs.filterMap fun q => bucketOf ps q.1 q.2) := by
  induction qs with
  | nil => exact .nil
  | cons q qs ih =>
      obtain ⟨hq, hlt⟩ := List.forall_mem_cons.mp hlt
      rw [List.filterMap_cons]
      obtain ⟨hnone, hempty⟩ | ⟨b, hb, hspec⟩ := bucketOf_spec h hq
      · rw [hnone]
        exact .skip (fun x _ => hempty x) (ih hlt)
      · rw [hb]
        exact .bucket hspec (ih hlt)

/-- A piece is as long as the step, but for the last. -/
theorem mem_pieces (hstep : 1 ≤ stepS) (hp : p ∈ pieces start «end» stepS) :
    p.1 < p.2 ∧ p.2 = min (p.1 + stepS) «end» := by
  have hstep : (0 : ℚ) < stepS := by exact_mod_cast hstep
  obtain ⟨k, hk, rfl⟩ := List.mem_map.mp hp
  have hk := (lt_div_iff₀ hstep).mp (Nat.lt_ceil.mp (List.mem_range.mp hk))
  have hnext : start + (k + 1) * stepS = start + k * stepS + stepS := by ring
  exact ⟨lt_min (by linarith) (by linarith), congrArg (min · «end») hnext⟩

/-- With enough fuel it returns the buckets of the pieces. -/
theorem stepBuckets_eq (hstep : 1 ≤ stepS) (hwin : start < «end»)
    (hfuel : ⌈(«end» - start) / stepS⌉₊ < fuel) :
    stepBuckets fuel samples start «end» stepS =
      some ((pieces start «end» stepS).filterMap fun p => bucketOf (points samples) p.1 p.2) := by
  rw [stepBuckets]
  by_cases hnil : samples = []
  · subst hnil
    have hnone : ∀ p ∈ pieces start «end» stepS, bucketOf (points []) p.1 p.2 = none :=
      fun _ _ => rfl
    rw [if_pos (.inl rfl), List.filterMap_eq_nil_iff.mpr hnone]
  · rw [if_neg (not_or.mpr ⟨hnil, not_le.mpr hwin⟩), bucketLoop_eq hstep, if_pos hfuel]

/-- Whatever it returns is that. -/
theorem eq_of_stepBuckets (hstep : 1 ≤ stepS) (hwin : start < «end»)
    (h : stepBuckets fuel samples start «end» stepS = some out) :
    out = (pieces start «end» stepS).filterMap fun p => bucketOf (points samples) p.1 p.2 := by
  have henough : stepBuckets (⌈(«end» - start) / stepS⌉₊ + 1) samples start «end» stepS = _ :=
    stepBuckets_eq hstep hwin (Nat.lt_succ_self _)
  rw [stepBuckets] at h henough
  split at h
  case isTrue hnil =>
    rw [if_pos hnil] at henough
    exact (Option.some.inj h).symm.trans (Option.some.inj henough)
  case isFalse hnil =>
    rw [bucketLoop_eq hstep] at h
    exact (Option.some.inj (Option.ite_none_right_eq_some.mp h).2).symm

/-- A bucket's end, in a call with this step and end. -/
def Bucket.endsAt (b : Bucket) (stepS : ℤ) («end» : ℚ) : ℚ := min (b.at + stepS) «end»

/-- The buckets that lie between two instants. -/
def parts (bs : List Bucket) (stepS : ℤ) («end» t0 t1 : ℚ) : Set Bucket :=
  {b | b ∈ bs ∧ t0 ≤ b.at ∧ b.endsAt stepS «end» ≤ t1}

/-- The time between the instants is made of whole pieces. -/
def MadeOf (t0 t1 : ℚ) (qs : List (ℚ × ℚ)) : Prop :=
  ∀ x : ℝ, t0 ≤ x → x < t1 → ∃ q ∈ qs, (t0 ≤ q.1 ∧ q.2 ≤ t1) ∧ q.1 ≤ x ∧ x < q.2

/-- A bucket tells of its own piece. -/
theorem BucketsOf.spec_of_mem (hstep : 1 ≤ stepS)
    (h : BucketsOf samples (pieces start «end» stepS) bs) (hb : b ∈ bs) :
    BucketSpec samples b.at (b.endsAt stepS «end») b := by
  obtain ⟨q, hq, hspec⟩ := h.piece_of_mem hb
  rw [Bucket.endsAt, hspec.start, ← (mem_pieces hstep hq).2]
  exact hspec

/-- What is held for some time between the instants is what some bucket there holds. -/
theorem heldFor_parts (hstep : 1 ≤ stepS) (h : BucketsOf samples (pieces start «end» stepS) bs)
    (hmade : MadeOf t0 t1 (pieces start «end» stepS)) :
    HeldFor (InForce samples) t0 t1 v ↔ ∃ b ∈ parts bs stepS «end» t0 t1,
      v ∈ {v | HeldFor (InForce samples) b.at (b.endsAt stepS «end») v} := by
  constructor
  · intro hv
    have hcover : ∀ x : ℝ, t0 ≤ x → x < t1 → ∃ q, (q ∈ pieces start «end» stepS ∧
        t0 ≤ q.1 ∧ q.2 ≤ t1) ∧ q.1 ≤ x ∧ x < q.2 := fun x hx hxt =>
      let ⟨q, hq, hin, hqx⟩ := hmade x hx hxt
      ⟨q, ⟨hq, hin⟩, hqx⟩
    -- some piece has a share of the time that the value is held
    obtain ⟨q, ⟨hq, h0, h1⟩, hheld⟩ := hv.split hcover
    obtain ⟨b, hb, hspec⟩ := h.mem_of_piece hq hheld
    have hends : b.endsAt stepS «end» = q.2 := by
      rw [Bucket.endsAt, hspec.start, (mem_pieces hstep hq).2]
    refine ⟨b, ⟨hb, hspec.start ▸ h0, hends ▸ h1⟩, ?_⟩
    rw [Set.mem_ofPred_eq, hends, hspec.start]
    exact hheld
  · rintro ⟨b, ⟨-, h0, h1⟩, hheld⟩
    exact HeldFor.mono hheld h0 h1

/-- **The extremes of a bucket are those of its parts.** -/
theorem BucketSpec.of_parts (hB : BucketSpec samples t0 t1 B) (hstep : 1 ≤ stepS)
    (h : BucketsOf samples (pieces start «end» stepS) bs)
    (hmade : MadeOf t0 t1 (pieces start «end» stepS)) :
    IsLeast (Bucket.minimum '' parts bs stepS «end» t0 t1) B.minimum ∧
      IsGreatest (Bucket.maximum '' parts bs stepS «end» t0 t1) B.maximum := by
  have hheld : {v | HeldFor (InForce samples) t0 t1 v} = {v | ∃ b ∈ parts bs stepS «end» t0 t1,
      v ∈ {v | HeldFor (InForce samples) b.at (b.endsAt stepS «end») v}} := by
    ext v
    exact heldFor_parts hstep h hmade
  have hleast := hB.isLeast
  have hgreatest := hB.isGreatest
  rw [hheld] at hleast hgreatest
  exact ⟨isLeast_image (fun b hb => (h.spec_of_mem hstep hb.1).isLeast) hleast,
    isGreatest_image (fun b hb => (h.spec_of_mem hstep hb.1).isGreatest) hgreatest⟩

/-- With a step that divides the coarse one, every coarse piece is made of fine ones. -/
theorem madeOf_pieces {n : ℕ} (hstep : 1 ≤ stepS) (hp : p ∈ pieces start «end» (n * stepS)) :
    MadeOf p.1 p.2 (pieces start «end» stepS) := by
  intro x hx hxt
  have hstepR : (0 : ℝ) < stepS := by exact_mod_cast hstep
  obtain ⟨K, -, rfl⟩ := List.mem_map.mp hp
  push_cast at hx hxt
  have hstart : (start : ℝ) ≤ x :=
    le_trans (le_add_of_nonneg_right (mul_nonneg K.cast_nonneg (by positivity))) hx
  obtain ⟨q, hq, hqx, hxq⟩ := pieces_cover hstep hstart (hxt.trans_le (min_le_right _ _))
  refine ⟨q, hq, ?_, hqx, hxq⟩
  obtain ⟨k, -, rfl⟩ := List.mem_map.mp hq
  push_cast at hqx hxq
  -- counted in fine steps, the instant is in one of those that the coarse piece has
  have hlow : K * n < k + 1 := by
    have : (K * n : ℝ) * stepS < (k + 1) * stepS := by linarith [lt_min_iff.mp hxq]
    exact_mod_cast lt_of_mul_lt_mul_right this hstepR.le
  have hhigh : k < (K + 1) * n := by
    have : (k : ℝ) * stepS < ((K + 1) * n) * stepS := by linarith [lt_min_iff.mp hxt]
    exact_mod_cast lt_of_mul_lt_mul_right this hstepR.le
  have hstepQ : (0 : ℚ) ≤ stepS := by exact_mod_cast hstepR.le
  have hlow : (K * n : ℚ) ≤ k := by exact_mod_cast Nat.lt_succ_iff.mp hlow
  have hhigh : (k + 1 : ℚ) ≤ (K + 1) * n := by exact_mod_cast hhigh
  push_cast
  constructor
  · linarith [mul_le_mul_of_nonneg_right hlow hstepQ]
  · exact min_le_min_right _ (by linarith [mul_le_mul_of_nonneg_right hhigh hstepQ])

/-- With the step of `bucket_seconds` there are no more pieces than buckets asked for. -/
theorem length_pieces_bucketSeconds {buckets : ℤ} (hbuckets : 1 ≤ buckets) :
    ((pieces start «end» (bucketSeconds start «end» buckets)).length : ℤ) ≤
      min buckets maxBuckets := by
  have hpos : 1 ≤ min buckets maxBuckets := le_min hbuckets (by decide)
  have hq : (0 : ℚ) < (min buckets maxBuckets : ℤ) := by exact_mod_cast hpos
  have hstep : max («end» - start) 1 / (min buckets maxBuckets : ℤ) ≤
      bucketSeconds start «end» buckets := by
    rw [bucketSeconds, max_eq_right hpos]
    exact (Int.le_ceil _).trans (by exact_mod_cast le_max_right _ _)
  have hspan := (div_le_iff₀ hq).mp hstep
  have hone : (0 : ℚ) < bucketSeconds start «end» buckets := by
    exact_mod_cast Int.lt_iff_add_one_le.mpr (le_max_left _ _)
  rw [pieces, List.length_map, List.length_range]
  lift min buckets maxBuckets to ℕ using by omega with n
  refine Nat.cast_le.mpr (Nat.ceil_le.mpr ((div_le_iff₀ hone).mpr ?_))
  exact (le_max_left _ _).trans (hspan.trans_eq (mul_comm _ _))

/-- **The buckets of a step signal.** -/
theorem step_buckets_exact (samples : List (ℚ × ℚ)) {start «end» : ℚ} {stepS : ℤ}
    (hwin : start < «end») (hstep : 1 ≤ stepS) :
    ∃ out, (∀ fuel, ⌈(«end» - start) / stepS⌉₊ < fuel →
        stepBuckets fuel samples start «end» stepS = some out) ∧
      BucketsOf samples (pieces start «end» stepS) out ∧
      (∀ samples' fuel, samples.Perm samples' → (samples.map Prod.fst).Nodup →
        stepBuckets fuel samples' start «end» stepS = stepBuckets fuel samples start «end» stepS) ∧
      (∀ start' end' stepS' fuel fine, start' < end' → 1 ≤ stepS' →
        stepBuckets fuel samples start' end' stepS' = some fine →
        ∀ B ∈ out, MadeOf B.at (B.endsAt stepS «end») (pieces start' end' stepS') →
          IsLeast (Bucket.minimum '' parts fine stepS' end' B.at (B.endsAt stepS «end»))
              B.minimum ∧
            IsGreatest (Bucket.maximum '' parts fine stepS' end' B.at (B.endsAt stepS «end»))
              B.maximum) ∧
      ∀ buckets, 1 ≤ buckets → stepS = bucketSeconds start «end» buckets →
        (out.length : ℤ) ≤ min buckets maxBuckets := by
  have hbuckets {start «end» : ℚ} {stepS : ℤ} (hstep : 1 ≤ stepS) :
      BucketsOf samples (pieces start «end» stepS) _ :=
    bucketsOf_filterMap (resolves_points samples) fun q hq => (mem_pieces hstep hq).1
  refine ⟨_, fun fuel => stepBuckets_eq hstep hwin, hbuckets hstep, ?_, ?_, ?_⟩
  · -- the order of the samples
    intro samples' fuel hperm hnodup
    have hnil : samples' = [] ↔ samples = [] := by
      rw [← List.length_eq_zero_iff, ← List.length_eq_zero_iff, hperm.length_eq]
    rw [stepBuckets, stepBuckets, points_perm hperm hnodup]
    simp only [hnil]
  · -- a finer run
    intro start' end' stepS' fuel fine hwin' hstep' hfine B hB hmade
    obtain rfl := eq_of_stepBuckets hstep' hwin' hfine
    exact ((hbuckets hstep).spec_of_mem hstep hB).of_parts hstep' (hbuckets hstep') hmade
  · -- the number of buckets
    rintro buckets hasked rfl
    exact (Nat.cast_le.mpr (hbuckets hstep).length_le).trans (length_pieces_bucketSeconds hasked)

/-- A lamp at 30 since five seconds before the window, and at 60 from its third second on. -/
def lamp : List (ℚ × ℚ) := [(3, 60), (-5, 30)]

example : stepBuckets 4 lamp 0 10 4 =
    some [⟨0, 30, 75 / 2, 60⟩, ⟨4, 60, 60, 60⟩, ⟨8, 60, 60, 60⟩] := by
  decide +kernel

/-- The lamp's chart at four seconds a bucket and at two. -/
theorem step_buckets_exact_lamp : ∃ coarse fine,
    stepBuckets 4 lamp 0 10 4 = some coarse ∧ stepBuckets 6 lamp 0 10 2 = some fine ∧
    fine.length ≤ 5 ∧ ∀ B ∈ coarse,
      IsLeast (Bucket.minimum '' parts fine 2 10 B.at (B.endsAt 4 10)) B.minimum := by
  obtain ⟨coarse, hcoarse, hpieces, -, hparts, -⟩ :=
    step_buckets_exact lamp (by norm_num : (0 : ℚ) < 10) (by norm_num : (1 : ℤ) ≤ 4)
  obtain ⟨fine, hfine, -, -, -, hcount⟩ :=
    step_buckets_exact lamp (by norm_num : (0 : ℚ) < 10) (by norm_num : (1 : ℤ) ≤ 2)
  have hfine := hfine 6 (by norm_num)
  have hcoarse := hcoarse 4 (Nat.lt_succ_of_le (Nat.ceil_le.mpr (by norm_num)))
  refine ⟨coarse, fine, hcoarse, hfine, ?_, fun B hB => ?_⟩
  · have hstep : 2 = bucketSeconds 0 10 5 := by norm_num [bucketSeconds, maxBuckets]
    exact_mod_cast (hcount 5 (by norm_num) hstep).trans (min_le_left _ _)
  · refine (hparts 0 10 2 6 fine (by norm_num) (by norm_num) hfine B hB ?_).1
    obtain ⟨p, hp, hB⟩ := hpieces.piece_of_mem hB
    rw [Bucket.endsAt, hB.start, ← (mem_pieces (by norm_num) hp).2]
    exact madeOf_pieces (n := 2) (by norm_num) hp

end BellasReef.Api.History
