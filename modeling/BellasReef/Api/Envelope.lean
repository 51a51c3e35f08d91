import BellasReef.Api.StepBuckets
import Mathlib.Order.WithBot

/-!
# API — Envelope

`HistoryReader.series` (`history.py`): a probe's chart, whose buckets are what three range queries
answer.  The server evaluates each at `start`, `start + step` and so on up to `end`, over the
samples of the last `step` before the point, and answers with one series for each label set, in an
order of its own.

* `mem_sensorSeries`: a bucket is what the last series with a finite answer has, in each of the
  three.
* `envelope_iff`: what a bucket says is of samples in its window; but the envelope holds every
  sample if and only if none is stored after the last point and the series that come last are the
  ones that reach furthest.
-/

namespace BellasReef.Api.History
open BellasReef.Support

/-! ### The server -/

/-- A stored number.  A NaN marks staleness, and is no sample. -/
abbrev Value := WithBot (WithTop ℚ)

/-- `math.isfinite`, and the number. -/
def Value.finite? : Value → Option ℚ
  | WithBot.some (WithTop.some v) => some v
  | _ => none

/-- The samples stored under one label set. -/
abbrev Variant := List (ℚ × Value)

/-- The points at which a range query is evaluated. -/
def evalPoints (start «end» : ℚ) (step : ℤ) : List ℚ :=
  (List.range (⌊(«end» - start) / step⌋ + 1).toNat).map fun k : ℕ => start + k * step

/-- The values of the samples in the lookback of `t`. -/
def window (samples : Variant) (t : ℚ) (step : ℤ) : List Value :=
  (samples.filter fun s => t - step < s.1 ∧ s.1 ≤ t).map Prod.snd

/-- What a rollup says of a label set at `t`; nothing where the window is empty. -/
def answer {α : Type} (rollup : List Value → α) (samples : Variant) (t : ℚ) (step : ℤ) : Option α :=
  match window samples t step with
  | [] => none
  | values => some (rollup values)

/-- `query_range`: the points of each series, each number as what `float` and `isfinite` leave. -/
def queryRange (rollup : List Value → Option ℚ) (variants : List Variant) (start «end» : ℚ)
    (step : ℤ) : List (List (ℚ × Option ℚ)) :=
  variants.map fun samples => (evalPoints start «end» step).filterMap fun t =>
    (answer rollup samples t step).map (t, ·)

/-- `min_over_time`. -/
def minOverTime (values : List Value) : Option ℚ := values.min?.bind Value.finite?

/-- `max_over_time`. -/
def maxOverTime (values : List Value) : Option ℚ := values.max?.bind Value.finite?

/-! ### The reader -/

/-- `_points`, of a payload's `result`; `none` where there is no such list. -/
def payloadPoints : Option (List (List (ℚ × Option ℚ))) → AList fun _ : ℚ => ℚ
  | none => ∅
  | some result => result.flatten.foldl (fun d p => match p.2 with
      | some value => d.insert p.1 value
      | none => d) ∅

/-- The buckets of `series`, of the three payloads. -/
def seriesOf (minimum average maximum : Option (List (List (ℚ × Option ℚ)))) : List Bucket :=
  let minimum := payloadPoints minimum
  let average := payloadPoints average
  let maximum := payloadPoints maximum
  let common := minimum.keys.filter fun ts => ts ∈ average ∧ ts ∈ maximum
  (common.insertionSort (· ≤ ·)).filterMap fun ts => do
    some ⟨ts, ← minimum.lookup ts, ← average.lookup ts, ← maximum.lookup ts⟩

/-- The orders in which the three answers have the label sets. -/
structure Replies (variants : List Variant) where
  lows : List Variant
  means : List Variant
  highs : List Variant
  lows_perm : lows.Perm variants
  means_perm : means.Perm variants
  highs_perm : highs.Perm variants

variable {variants : List Variant}

/-- `HistoryReader.series`, with the server's `avg_over_time`. -/
def sensorSeries (avgOverTime : List Value → Option ℚ) (replies : Replies variants)
    (start «end» : ℚ) (buckets : ℤ) : List Bucket :=
  let step := bucketSeconds start «end» buckets
  seriesOf (some (queryRange minOverTime replies.lows start «end» step))
    (some (queryRange avgOverTime replies.means start «end» step))
    (some (queryRange maxOverTime replies.highs start «end» step))

/-! ### What is merged -/

variable {rollup avgOverTime : List Value → Option ℚ} {samples : Variant} {order : List Variant}
  {start «end» t τ v : ℚ} {step buckets : ℤ} {b : Bucket}

/-- The finite answer at `t` of the last series that has one. -/
def lastAnswer (rollup : List Value → Option ℚ) (order : List Variant) (t : ℚ) (step : ℤ) :
    Option ℚ :=
  (order.filterMap fun samples => (answer rollup samples t step).join).getLast?

/-- At one time the last point of any series is the one. -/
theorem lookup_payloadPoints (result : List (List (ℚ × Option ℚ))) (t : ℚ) :
    (payloadPoints (some result)).lookup t =
      lastAt (result.flatten.filterMap fun p => p.2.map (p.1, ·)) t := by
  rw [← lookup_foldl_insert, payloadPoints, List.foldl_filterMap]
  congr 2
  funext d p
  obtain ⟨ts, _ | value⟩ := p <;> rfl

/-- The points at which the store evaluates a range query. -/
theorem mem_evalPoints (hstep : 1 ≤ step) :
    t ∈ evalPoints start «end» step ↔ ∃ k : ℕ, start + k * step ≤ «end» ∧ t = start + k * step := by
  have hstep : (0 : ℚ) < step := by exact_mod_cast hstep
  have hk (k : ℕ) : k < (⌊(«end» - start) / step⌋ + 1).toNat ↔ start + k * step ≤ «end» := by
    rw [Int.lt_toNat, Int.lt_add_one_iff, Int.le_floor, le_div_iff₀ hstep, Int.cast_natCast,
      le_sub_iff_add_le']
  simp only [evalPoints, List.mem_map, List.mem_range, hk, eq_comm]

theorem nodup_evalPoints (hstep : 1 ≤ step) : (evalPoints start «end» step).Nodup := by
  have hstep : (step : ℚ) ≠ 0 := by exact_mod_cast (Int.lt_of_lt_of_le one_pos hstep).ne'
  refine List.nodup_range.map fun k k' h => ?_
  simpa [hstep] using h

theorem filterMap_of_nodup {α β : Type} {g : α → Option β} {l : List α} {a : α} (h : l.Nodup)
    (ha : a ∈ l) (hg : ∀ a' ∈ l, a' ≠ a → g a' = none) : l.filterMap g = (g a).toList := by
  induction l with
  | nil => cases ha
  | cons x l ih =>
      obtain ⟨hx, h⟩ := List.nodup_cons.mp h
      obtain ⟨hgx, hgl⟩ := List.forall_mem_cons.mp hg
      obtain rfl | ha := List.mem_cons.mp ha
      · have hrest : l.filterMap g = [] :=
          List.filterMap_eq_nil_iff.mpr fun a' ha' => hgl a' ha' fun heq => hx (heq ▸ ha')
        rw [List.filterMap_cons, hrest]
        cases g a <;> rfl
      · rw [List.filterMap_cons, hgx (fun heq => hx (heq ▸ ha)), ih h ha hgl]

/-- A series has no more than one point at an instant. -/
theorem filter_overTime (hstep : 1 ≤ step) (ht : t ∈ evalPoints start «end» step)
    (samples : Variant) :
    ((((evalPoints start «end» step).filterMap fun t =>
        (answer rollup samples t step).map (t, ·)).filterMap fun p => p.2.map (p.1, ·)).filter
      fun p : ℚ × ℚ => p.1 = t) =
      ((answer rollup samples t step).join.map (t, ·)).toList := by
  rw [List.filterMap_filterMap, List.filter_filterMap,
    filterMap_of_nodup (nodup_evalPoints hstep) ht]
  · cases answer rollup samples t step with
    | none => rfl
    | some value => cases value <;> simp [Option.filter]
  · intro t' _ hne
    cases answer rollup samples t' step with
    | none => rfl
    | some value => cases value <;> simp [Option.filter, hne]

/-- **What is merged** is the last finite answer. -/
theorem lookup_queryRange (hstep : 1 ≤ step) :
    (payloadPoints (some (queryRange rollup order start «end» step))).lookup t = some v ↔
      t ∈ evalPoints start «end» step ∧ lastAnswer rollup order t step = some v := by
  rw [lookup_payloadPoints, queryRange]
  by_cases ht : t ∈ evalPoints start «end» step
  · -- each series has one answer at `t` at most, and the last one is what the merge keeps
    rw [lastAt, List.filterMap_flatten, List.filter_flatten, List.map_map, List.map_map]
    simp only [Function.comp_def, filter_overTime hstep ht, ht, true_and]
    rw [← List.flatMap_def, ← List.filterMap_eq_flatMap_toList, ← List.map_filterMap,
      List.getLast?_map, Option.map_map, lastAnswer]
    simp [Function.comp_def]
  · refine iff_of_false (fun h => ht ?_) fun h => ht h.1
    obtain ⟨p, hp, heq⟩ := List.mem_filterMap.mp (mem_of_lastAt h)
    obtain ⟨series, hseries, hp⟩ := List.mem_flatten.mp hp
    obtain ⟨samples, -, rfl⟩ := List.mem_map.mp hseries
    obtain ⟨t', ht', hanswer⟩ := List.mem_filterMap.mp hp
    obtain ⟨value, -, rfl⟩ := Option.map_eq_some_iff.mp hanswer
    obtain ⟨value, -, heq⟩ := Option.map_eq_some_iff.mp heq
    obtain ⟨rfl, -⟩ := Prod.mk.inj heq
    exact ht'

/-- A bucket is one that all three queries answer. -/
theorem mem_seriesOf {minimum average maximum : Option (List (List (ℚ × Option ℚ)))} :
    b ∈ seriesOf minimum average maximum ↔ (payloadPoints minimum).lookup b.at = some b.minimum ∧
      (payloadPoints average).lookup b.at = some b.average ∧
      (payloadPoints maximum).lookup b.at = some b.maximum := by
  simp only [seriesOf, List.mem_filterMap, List.mem_insertionSort, List.mem_filter]
  constructor
  · rintro ⟨ts, -, hb⟩
    obtain ⟨lo, hlo, hb⟩ := Option.bind_eq_some_iff.mp hb
    obtain ⟨mean, hmean, hb⟩ := Option.bind_eq_some_iff.mp hb
    obtain ⟨hi, hhi, hb⟩ := Option.bind_eq_some_iff.mp hb
    obtain rfl := Option.some.inj hb
    exact ⟨hlo, hmean, hhi⟩
  · rintro ⟨hlo, hmean, hhi⟩
    refine ⟨b.at, ⟨?_, decide_eq_true ⟨?_, ?_⟩⟩, by rw [hlo, hmean, hhi]; rfl⟩
    · exact AList.mem_keys.mp (AList.lookup_isSome.mp (by rw [hlo]; rfl))
    · exact AList.lookup_isSome.mp (by rw [hmean]; rfl)
    · exact AList.lookup_isSome.mp (by rw [hhi]; rfl)

/-- A bucket has a second at least. -/
theorem one_le_bucketSeconds : 1 ≤ bucketSeconds start «end» buckets := le_max_left _ _

variable {replies : Replies variants}

/-- **A bucket** is what the last series with a finite answer has, in each of the three. -/
theorem mem_sensorSeries : b ∈ sensorSeries avgOverTime replies start «end» buckets ↔
    b.at ∈ evalPoints start «end» (bucketSeconds start «end» buckets) ∧
    lastAnswer minOverTime replies.lows b.at (bucketSeconds start «end» buckets) =
      some b.minimum ∧
    lastAnswer avgOverTime replies.means b.at (bucketSeconds start «end» buckets) =
      some b.average ∧
    lastAnswer maxOverTime replies.highs b.at (bucketSeconds start «end» buckets) =
      some b.maximum := by
  rw [sensorSeries, mem_seriesOf, lookup_queryRange one_le_bucketSeconds,
    lookup_queryRange one_le_bucketSeconds, lookup_queryRange one_le_bucketSeconds]
  tauto

/-- An answer is of a variant that has a sample in the window. -/
theorem window_of_lastAnswer (h : lastAnswer rollup order t step = some v) :
    ∃ samples ∈ order, window samples t step ≠ [] ∧ rollup (window samples t step) = some v := by
  obtain ⟨samples, hmem, hanswer⟩ := List.mem_filterMap.mp (List.mem_of_getLast? h)
  refine ⟨samples, hmem, ?_⟩
  cases hw : window samples t step with
  | nil => simp [answer, hw] at hanswer
  | cons value values => exact ⟨nofun, by simpa [answer, hw] using hanswer⟩

/-- What is in the window is no older than the step. -/
theorem mem_window {value : Value} (h : value ∈ window samples t step) :
    ∃ τ, (τ, value) ∈ samples ∧ t - step < τ ∧ τ ≤ t := by
  obtain ⟨s, hs, rfl⟩ := List.mem_map.mp h
  obtain ⟨hmem, hwin⟩ := List.mem_filter.mp hs
  exact ⟨s.1, hmem, of_decide_eq_true hwin⟩

/-- A finite value is a number. -/
theorem eq_of_finite? {value : Value} (h : value.finite? = some v) : value = (v : WithTop ℚ) := by
  unfold Value.finite? at h
  split at h
  · exact congrArg (fun w : ℚ => ((w : WithTop ℚ) : Value)) (Option.some.inj h)
  · cases h

/-! ### The envelope -/

/-- A number of a sample of the window at `t`. -/
def StoredIn (variants : List Variant) (t : ℚ) (step : ℤ) (v : ℚ) : Prop :=
  ∃ samples ∈ variants, ∃ τ, (τ, ((v : WithTop ℚ) : Value)) ∈ samples ∧ t - step < τ ∧ τ ≤ t

/-- A minimum is a value that is stored in the window. -/
theorem storedIn_min (hperm : order.Perm variants)
    (h : lastAnswer minOverTime order t step = some v) : StoredIn variants t step v := by
  obtain ⟨samples, hmem, -, hmin⟩ := window_of_lastAnswer h
  obtain ⟨value, hvalue, hfinite⟩ := Option.bind_eq_some_iff.mp hmin
  obtain ⟨τ, hτ⟩ := mem_window (List.min?_mem hvalue)
  obtain rfl := eq_of_finite? hfinite
  exact ⟨samples, hperm.mem_iff.mp hmem, τ, hτ⟩

/-- So is a maximum. -/
theorem storedIn_max (hperm : order.Perm variants)
    (h : lastAnswer maxOverTime order t step = some v) : StoredIn variants t step v := by
  obtain ⟨samples, hmem, -, hmax⟩ := window_of_lastAnswer h
  obtain ⟨value, hvalue, hfinite⟩ := Option.bind_eq_some_iff.mp hmax
  obtain ⟨τ, hτ⟩ := mem_window (List.max?_mem hvalue)
  obtain rfl := eq_of_finite? hfinite
  exact ⟨samples, hperm.mem_iff.mp hmem, τ, hτ⟩

/-- A finite sample of the chart's window. -/
def Charted (variants : List Variant) (start «end» τ v : ℚ) : Prop :=
  ∃ samples ∈ variants, (τ, ((v : WithTop ℚ) : Value)) ∈ samples ∧ start ≤ τ ∧ τ < «end»

/-- What the chart is to say. -/
structure EnvelopeSurvives (avgOverTime : List Value → Option ℚ) (replies : Replies variants)
    (start «end» : ℚ) (buckets : ℤ) : Prop where
  held : ∀ τ v, Charted variants start «end» τ v →
    ∃ b ∈ sensorSeries avgOverTime replies start «end» buckets,
      (b.at - bucketSeconds start «end» buckets < τ ∧ τ ≤ b.at) ∧ b.minimum ≤ v ∧ v ≤ b.maximum
  stored : ∀ b ∈ sensorSeries avgOverTime replies start «end» buckets,
    StoredIn variants b.at (bucketSeconds start «end» buckets) b.minimum ∧
      StoredIn variants b.at (bucketSeconds start «end» buckets) b.maximum
  gap : ∀ t, (∀ samples ∈ variants, window samples t (bucketSeconds start «end» buckets) = []) →
    ∀ b ∈ sensorSeries avgOverTime replies start «end» buckets, b.at ≠ t

/-- No sample comes after the last point, and at each point the series that come last have a
number for each rollup, the least of which no sample of its window is below, nor above the
greatest. -/
structure LastReachFurthest (avgOverTime : List Value → Option ℚ) (replies : Replies variants)
    (start «end» : ℚ) (step : ℤ) : Prop where
  reached : ∀ τ v, Charted variants start «end» τ v → ∃ t ∈ evalPoints start «end» step, τ ≤ t
  furthest : ∀ t ∈ evalPoints start «end» step, ∀ τ v, Charted variants start «end» τ v →
    t - step < τ → τ ≤ t →
      (∃ lo, lastAnswer minOverTime replies.lows t step = some lo ∧ lo ≤ v) ∧
      (∃ mean, lastAnswer avgOverTime replies.means t step = some mean) ∧
      ∃ hi, lastAnswer maxOverTime replies.highs t step = some hi ∧ v ≤ hi

/-- Each instant up to a point is in the window of one, -/
theorem exists_evalPoint (hstep : 1 ≤ step) (hstart : start ≤ τ)
    (hlast : ∃ t ∈ evalPoints start «end» step, τ ≤ t) :
    ∃ t ∈ evalPoints start «end» step, t - step < τ ∧ τ ≤ t := by
  have hpos : (0 : ℚ) < step := by exact_mod_cast hstep
  obtain ⟨t, ht, hτt⟩ := hlast
  obtain ⟨k, hk, rfl⟩ := (mem_evalPoints hstep).mp ht
  have hq : 0 ≤ (τ - start) / step := div_nonneg (sub_nonneg.mpr hstart) hpos.le
  have hle : ⌈(τ - start) / step⌉₊ ≤ k := Nat.ceil_le.mpr ((div_le_iff₀ hpos).mpr (by linarith))
  refine ⟨_, (mem_evalPoints hstep).mpr ⟨⌈(τ - start) / step⌉₊, ?_, rfl⟩, ?_, ?_⟩
  · linarith [mul_le_mul_of_nonneg_right (Nat.cast_le (α := ℚ).mpr hle) hpos.le]
  · have := (lt_div_iff₀ hpos).mp (sub_lt_iff_lt_add.mpr (Nat.ceil_lt_add_one hq))
    linarith
  · have := (div_le_iff₀ hpos).mp (Nat.le_ceil ((τ - start) / step))
    linarith

/-- and of no other. -/
theorem evalPoint_unique {t' : ℚ} (hstep : 1 ≤ step) (ht : t ∈ evalPoints start «end» step)
    (ht' : t' ∈ evalPoints start «end» step) (h : t - step < τ ∧ τ ≤ t)
    (h' : t' - step < τ ∧ τ ≤ t') : t = t' := by
  obtain ⟨k, -, rfl⟩ := (mem_evalPoints hstep).mp ht
  obtain ⟨k', -, rfl⟩ := (mem_evalPoints hstep).mp ht'
  have hstep : (0 : ℚ) < step := by exact_mod_cast hstep
  have hlt : (k : ℚ) * step < (k' + 1) * step := by linarith [h.1, h'.2]
  have hlt' : (k' : ℚ) * step < (k + 1) * step := by linarith [h'.1, h.2]
  have hk : k < k' + 1 := by exact_mod_cast lt_of_mul_lt_mul_right hlt hstep.le
  have hk' : k' < k + 1 := by exact_mod_cast lt_of_mul_lt_mul_right hlt' hstep.le
  rw [show k = k' by omega]

/-- **The envelope**: it survives if and only if the series that come last reach furthest, up to
the last sample. -/
theorem envelope_iff (avgOverTime : List Value → Option ℚ) (replies : Replies variants)
    (start «end» : ℚ) (buckets : ℤ) :
    EnvelopeSurvives avgOverTime replies start «end» buckets ↔
      LastReachFurthest avgOverTime replies start «end» (bucketSeconds start «end» buckets) := by
  have hstep : 1 ≤ bucketSeconds start «end» buckets := one_le_bucketSeconds
  constructor
  · intro h
    refine ⟨fun τ v hs => ?_, fun t ht τ v hs hlt hle => ?_⟩
    · obtain ⟨b, hb, ⟨-, hτ⟩, -⟩ := h.held τ v hs
      exact ⟨b.at, (mem_sensorSeries.mp hb).1, hτ⟩
    · obtain ⟨b, hb, hwindow, hlo, hhi⟩ := h.held τ v hs
      obtain ⟨hat, hmin, havg, hmax⟩ := mem_sensorSeries.mp hb
      -- the windows do not overlap, so that the bucket is the one asked about
      obtain rfl := evalPoint_unique hstep ht hat ⟨hlt, hle⟩ hwindow
      exact ⟨⟨_, hmin, hlo⟩, ⟨_, havg⟩, _, hmax, hhi⟩
  · intro h
    refine ⟨fun τ v hs => ?_, fun b hb => ?_, fun t hempty b hb hat => ?_⟩
    · obtain ⟨-, -, -, hstart, -⟩ := id hs
      -- the windows leave no gap up to the last point
      obtain ⟨t, ht, hlt, hle⟩ := exists_evalPoint hstep hstart (h.reached τ v hs)
      obtain ⟨⟨lo, hlo, hlov⟩, ⟨mean, hmean⟩, hi, hhi, hvhi⟩ := h.furthest t ht τ v hs hlt hle
      exact ⟨⟨t, lo, mean, hi⟩, mem_sensorSeries.mpr ⟨ht, hlo, hmean, hhi⟩, ⟨hlt, hle⟩, hlov, hvhi⟩
    · obtain ⟨-, hmin, -, hmax⟩ := mem_sensorSeries.mp hb
      exact ⟨storedIn_min replies.lows_perm hmin, storedIn_max replies.highs_perm hmax⟩
    · obtain ⟨-, hmin, -⟩ := mem_sensorSeries.mp hb
      obtain ⟨samples, hmem, hne, -⟩ := window_of_lastAnswer hmin
      exact hne (hat ▸ hempty samples (replies.lows_perm.mem_iff.mp hmem))

/-- **So does the one series** of a label set with finite numbers, over a window of whole steps. -/
theorem lastReachFurthest_single (replies : Replies [samples])
    (hfinite : ∀ s ∈ samples, ∃ v, s.2.finite? = some v)
    (hmean : ∀ values ≠ [], (∀ x ∈ values, ∃ v, x.finite? = some v) →
      ∃ mean, avgOverTime values = some mean)
    (hend : «end» ∈ evalPoints start «end» step) :
    LastReachFurthest avgOverTime replies start «end» step := by
  refine ⟨fun τ v hs => ?_, fun t _ τ v hs hlt hle => ?_⟩
  · obtain ⟨-, -, -, -, hτ⟩ := hs
    exact ⟨«end», hend, hτ.le⟩
  · obtain ⟨_, hmem, hs, -⟩ := hs
    rw [List.mem_singleton.mp hmem] at hs
    have hv : ((v : WithTop ℚ) : Value) ∈ window samples t step :=
      List.mem_map.mpr ⟨_, List.mem_filter.mpr ⟨hs, decide_eq_true ⟨hlt, hle⟩⟩, rfl⟩
    have hall : ∀ x ∈ window samples t step, ∃ v, x.finite? = some v := fun x hx =>
      let ⟨_, hx, _⟩ := mem_window hx
      hfinite _ hx
    -- with one series, the last answer is the only one
    have hlast (rollup : List Value → Option ℚ) :
        lastAnswer rollup [samples] t step = rollup (window samples t step) := by
      cases hw : window samples t step with
      | nil => simp [hw] at hv
      | cons x xs => cases h : rollup (x :: xs) <;> simp [lastAnswer, answer, hw, h]
    rw [List.perm_singleton.mp replies.lows_perm, List.perm_singleton.mp replies.means_perm,
      List.perm_singleton.mp replies.highs_perm, hlast, hlast, hlast]
    have hne := List.ne_nil_of_mem hv
    obtain ⟨lo, hlo⟩ := Option.isSome_iff_exists.mp (List.isSome_min?_of_ne_nil hne)
    obtain ⟨hi, hhi⟩ := Option.isSome_iff_exists.mp (List.isSome_max?_of_ne_nil hne)
    obtain ⟨l, hl⟩ := hall lo (List.min?_mem hlo)
    obtain ⟨h, hh⟩ := hall hi (List.max?_mem hhi)
    have hlov := (List.min?_eq_some_iff.mp hlo).2 _ hv
    have hvhi := (List.max?_eq_some_iff.mp hhi).2 _ hv
    rw [eq_of_finite? hl, WithBot.coe_le_coe, WithTop.coe_le_coe] at hlov
    rw [eq_of_finite? hh, WithBot.coe_le_coe, WithTop.coe_le_coe] at hvhi
    exact ⟨⟨l, by rw [minOverTime, hlo]; exact hl, hlov⟩, hmean _ hne hall,
      h, by rw [maxOverTime, hhi]; exact hh, hvhi⟩

/-- The mean of finite numbers. -/
def meanOverTime (values : List Value) : Option ℚ :=
  (values.mapM Value.finite?).map fun vs => vs.sum / vs.length

/-- Every answer in the order in which the label sets are stored. -/
def inOrder (variants : List Variant) : Replies variants := ⟨_, _, _, .rfl, .rfl, .rfl⟩

/-- One reading, a second into a window of one and a half. -/
def lateReading : List Variant := [[(1, ((20 : ℚ) : WithTop ℚ))]]

/-- A spike of one quality, and a reading of another. -/
def shadowedSpike : List Variant :=
  [[(5, ((31 : ℚ) : WithTop ℚ))], [(5, ((24 : ℚ) : WithTop ℚ))]]

/-- The reading comes after the last point; the spike is overwritten in the merge. -/
theorem not_envelope : ¬EnvelopeSurvives meanOverTime (inOrder lateReading) 0 (3 / 2) 1 ∧
    ¬EnvelopeSurvives meanOverTime (inOrder shadowedSpike) 0 10 1 := by
  constructor
  · intro h
    have hstep : bucketSeconds 0 (3 / 2) 1 = 2 := by norm_num [bucketSeconds, maxBuckets]
    obtain ⟨b, hb, ⟨-, hle⟩, -⟩ :=
      h.held 1 20 ⟨_, List.mem_singleton_self _, List.mem_singleton_self _, by norm_num⟩
    have hat := (mem_sensorSeries.mp hb).1
    rw [hstep, show evalPoints 0 (3 / 2) 2 = [0] by decide +kernel, List.mem_singleton] at hat
    norm_num [hat] at hle
  · intro h
    have hstep : bucketSeconds 0 10 1 = 10 := by norm_num [bucketSeconds, maxBuckets]
    obtain ⟨b, hb, ⟨-, hle⟩, -, hmax⟩ :=
      h.held 5 31 ⟨_, List.mem_cons_self, List.mem_singleton_self _, by norm_num⟩
    obtain ⟨hat, -, -, hhi⟩ := mem_sensorSeries.mp hb
    rw [hstep, show evalPoints 0 10 10 = [0, 10] by decide +kernel, List.mem_pair] at hat
    obtain hat | hat := hat
    · norm_num [hat] at hle
    · have heval : lastAnswer maxOverTime (inOrder shadowedSpike).highs 10 10 = some 24 := by
        decide +kernel
      rw [hat, hstep, heval] at hhi
      norm_num [← Option.some.inj hhi] at hmax

end BellasReef.Api.History
