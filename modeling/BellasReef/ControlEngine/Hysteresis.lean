import BellasReef.ControlEngine.Alerts
import BellasReef.Support.Binary64
import BellasReef.Support.Trigger
import Mathlib.Data.List.Forall2

/-!
# ControlEngine — Hysteresis

The evaluator of `alerts.py` in the doubles that it runs on: `Thresholds` as its `__post_init__`
admits them, `evaluate`, and a history of readings with its transitions applied.

Each bound is a trigger (`Thresholds.trigger`): it trips beyond the bound and resets at the clear
point, which is the bound and the margin added up in doubles.  A NaN margin is admitted, and then
nothing resets either of them.
-/

namespace BellasReef.ControlEngine.Binary64
open BellasReef.Support

/-- `Thresholds.__post_init__`. -/
def postInit (minimum maximum : Option Double) (clearMargin : Double) : Except String Unit :=
  if clearMargin ≤ 0 then .error "clear_margin must be > 0"
  else
    match minimum, maximum with
    | some minimum, some maximum =>
        if maximum ≤ minimum then .error "minimum must be below maximum"
        else if maximum - clearMargin ≤ minimum + clearMargin then
          .error "clear_margin is wider than half the band: no reading could ever clear"
        else .ok ()
    | _, _ => .ok ()

/-- What a sensor is allowed to read, and how far back it must come. -/
structure Thresholds where
  minimum : Option Double
  maximum : Option Double
  clearMargin : Double
  post_init : postInit minimum maximum clearMargin = .ok ()
  deriving DecidableEq

/-- `Transition`: a change of alert state for one bound. -/
structure Transition where
  bound : AlertBound
  state : AlertState
  value : Double
  threshold : Double
  deriving DecidableEq

/-- Decide what changed, given a reading and what is already in breach. -/
def evaluate (value : Double) (thresholds : Thresholds) (openBounds : AlertBound → Bool) :
    List Transition :=
  (match thresholds.minimum with
    | some minimum =>
        if !openBounds .min && value < minimum then [⟨.min, .breach, value, minimum⟩]
        else if openBounds .min && minimum + thresholds.clearMargin ≤ value then
          [⟨.min, .clear, value, minimum⟩]
        else []
    | none => []) ++
  (match thresholds.maximum with
    | some maximum =>
        if !openBounds .max && maximum < value then [⟨.max, .breach, value, maximum⟩]
        else if openBounds .max && value ≤ maximum - thresholds.clearMargin then
          [⟨.max, .clear, value, maximum⟩]
        else []
    | none => [])

/-- What `on_reading` makes of the open bounds. -/
def applied (openBounds : AlertBound → Bool) (transitions : List Transition) : AlertBound → Bool :=
  transitions.foldl (fun o t => Function.update o t.bound (decide (t.state = .breach))) openBounds

/-- The transitions of a history of readings. -/
def transitions (t : Thresholds) : (AlertBound → Bool) → List Double → List Transition
  | _, [] => []
  | o, value :: values =>
      evaluate value t o ++ transitions t (applied o (evaluate value t o)) values

/-- The bounds that are open after it. -/
def openAfter (t : Thresholds) (o : AlertBound → Bool) (values : List Double) :
    AlertBound → Bool :=
  values.foldl (fun o value => applied o (evaluate value t o)) o

/-- `Field(gt=0)`; what it does with NaN is not in the source. -/
def gtZero (nanPasses : Bool) (x : Double) : Bool := if x = .nan then nanPasses else 0 < x

/-- The part of a `SensorAlert` that its validators read. -/
structure SensorAlert where
  state : AlertState
  bound : AlertBound
  value : Double
  threshold : Double
  clearMargin : Double

/-- `_breach_is_actually_outside_the_band`. -/
def SensorAlert.breachIsActuallyOutsideTheBand (a : SensorAlert) : Bool :=
  match a.state, a.bound with
  | .breach, .min => !(a.threshold ≤ a.value : Bool)
  | .breach, .max => !(a.value ≤ a.threshold : Bool)
  | .clear, _ => true

/-- The message passes its own validators. -/
def SensorAlert.accepts (nanPasses : Bool) (a : SensorAlert) : Bool :=
  gtZero nanPasses a.clearMargin && a.breachIsActuallyOutsideTheBand

/-- The alert that `on_reading` makes of a transition. -/
def Thresholds.alert (t : Thresholds) (change : Transition) : SensorAlert :=
  ⟨change.state, change.bound, change.value, change.threshold, t.clearMargin⟩

/-! ### The two triggers -/

/-- The limit of a bound. -/
def Thresholds.limit (t : Thresholds) : AlertBound → Option Double
  | .min => t.minimum
  | .max => t.maximum

/-- Where a breach of the bound clears. -/
def Thresholds.clearPoint (t : Thresholds) : AlertBound → Option Double
  | .min => t.minimum.map (· + t.clearMargin)
  | .max => t.maximum.map (· - t.clearMargin)

/-- The reading is beyond the bound. -/
def Thresholds.crosses (t : Thresholds) : AlertBound → Double → Bool
  | .min, value => t.minimum.any fun minimum => value < minimum
  | .max, value => t.maximum.any fun maximum => maximum < value

/-- The reading has come back to the clear point. -/
def Thresholds.comesBack (t : Thresholds) : AlertBound → Double → Bool
  | .min, value => (t.clearPoint .min).any fun clear => clear ≤ value
  | .max, value => (t.clearPoint .max).any fun clear => value ≤ clear

variable {t : Thresholds} {b : AlertBound} {o : AlertBound → Bool} {value : Double}
  {values : List Double}

/-- A margin that is a number is positive. -/
theorem Thresholds.clearMargin_pos (h : t.clearMargin ≠ .nan) : 0 < t.clearMargin := by
  refine Double.lt_of_not_le h (by rintro ⟨⟩) fun hle => ?_
  have := t.post_init
  simp [postInit, hle] at this

/-- What the constructor checks of a band with both bounds. -/
theorem Thresholds.band {lo hi : Double} (hlo : t.minimum = some lo) (hhi : t.maximum = some hi) :
    ¬hi ≤ lo ∧ ¬hi - t.clearMargin ≤ lo + t.clearMargin := by
  have := t.post_init
  rw [hlo, hhi] at this
  simp only [postInit] at this
  split_ifs at this with _ hle hzone
  exact ⟨hle, hzone⟩

theorem ne_nan_of_add {x m : Double} (h : x + m ≠ .nan) : m ≠ .nan := by
  rintro rfl
  cases x <;> exact h rfl

theorem ne_nan_of_sub {x m : Double} (h : x - m ≠ .nan) : m ≠ .nan := by
  rintro rfl
  cases x <;> exact h rfl

/-- A reading beyond the minimum is below its clear point. -/
theorem lt_clearPoint_min {minimum : Double} (hcross : value < minimum)
    (hm : t.clearMargin ≠ .nan) : value < minimum + t.clearMargin := by
  refine Double.lt_of_lt_of_le hcross (Double.le_add ?_ ?_ (Thresholds.clearMargin_pos hm))
  · exact (Double.ne_nan_of_le (Double.le_of_lt hcross)).2
  · exact Double.ne_bot_of_lt hcross

/-- Above the upper bound is above its clear point. -/
theorem clearPoint_lt_max {maximum : Double} (hcross : maximum < value)
    (hm : t.clearMargin ≠ .nan) : maximum - t.clearMargin < value := by
  refine Double.lt_of_le_of_lt (Double.sub_le ?_ ?_ (Thresholds.clearMargin_pos hm)) hcross
  · exact (Double.ne_nan_of_le (Double.le_of_lt hcross)).1
  · exact Double.ne_top_of_lt hcross

/-- **A reading that crosses a bound** has not come back to it. -/
theorem Thresholds.not_comesBack_of_crosses (h : t.crosses b value = true) :
    t.comesBack b value = false := by
  refine Bool.eq_false_iff.mpr fun hback => ?_
  cases b with
  | min =>
      obtain ⟨minimum, hmin, hlt⟩ := (Option.any_eq_true _ _).mp h
      simp only [comesBack, clearPoint, hmin, Option.map_some, Option.any_some,
        decide_eq_true_eq] at hback hlt
      have hm := ne_nan_of_add (Double.ne_nan_of_le hback).1
      exact Double.not_le_of_lt (lt_clearPoint_min hlt hm) hback
  | max =>
      obtain ⟨maximum, hmax, hlt⟩ := (Option.any_eq_true _ _).mp h
      simp only [comesBack, clearPoint, hmax, Option.map_some, Option.any_some,
        decide_eq_true_eq] at hback hlt
      have hm := ne_nan_of_sub (Double.ne_nan_of_le hback).2
      exact Double.not_le_of_lt (clearPoint_lt_max hlt hm) hback

/-- Each bound has two thresholds. -/
def Thresholds.trigger (t : Thresholds) (b : AlertBound) : Trigger Double where
  trips := t.crosses b
  resets := t.comesBack b
  exclusive _ := Thresholds.not_comesBack_of_crosses

/-- The transition that an edge of the trigger is. -/
def transitionOf (b : AlertBound) (threshold : Double) (edge : Bool × Double) : Transition :=
  ⟨b, if edge.1 then .breach else .clear, edge.2, threshold⟩

/-- What the evaluator says of one bound. -/
def changeOf (t : Thresholds) (o : AlertBound → Bool) (value : Double) (b : AlertBound) :
    Option Transition :=
  (t.limit b).bind fun threshold =>
    ((t.trigger b).fires (o b) value).map fun edge => transitionOf b threshold (edge, value)

/-- `evaluate` looks at each bound on its own. -/
theorem evaluate_eq :
    evaluate value t o = (changeOf t o value .min).toList ++ (changeOf t o value .max).toList := by
  rw [evaluate]
  congr 1
  · cases hmin : t.minimum with
    | none => simp [changeOf, Thresholds.limit, hmin]
    | some minimum =>
        cases ho : o .min <;>
          simp [changeOf, Thresholds.limit, Thresholds.trigger, Thresholds.crosses,
            Thresholds.comesBack, Thresholds.clearPoint, Trigger.fires, transitionOf, hmin, ho] <;>
          split <;> rfl
  · cases hmax : t.maximum with
    | none => simp [changeOf, Thresholds.limit, hmax]
    | some maximum =>
        cases ho : o .max <;>
          simp [changeOf, Thresholds.limit, Thresholds.trigger, Thresholds.crosses,
            Thresholds.comesBack, Thresholds.clearPoint, Trigger.fires, transitionOf, hmax, ho] <;>
          split <;> rfl

/-- A bound that is not set does nothing. -/
theorem fires_of_limit_eq_none (h : t.limit b = none) : (t.trigger b).fires (o b) value = none := by
  cases b <;> simp only [Thresholds.limit] at h <;>
    simp [Thresholds.trigger, Thresholds.crosses, Thresholds.comesBack, Thresholds.clearPoint,
      Trigger.fires, h]

theorem changeOf_bound {change : Transition} (h : changeOf t o value b = some change) :
    change.bound = b := by
  obtain ⟨threshold, -, h⟩ := Option.bind_eq_some_iff.mp h
  obtain ⟨edge, -, rfl⟩ := Option.map_eq_some_iff.mp h
  rfl

/-- The evaluator's word on one bound is the trigger's edge. -/
theorem filter_evaluate :
    (evaluate value t o).filter (·.bound = b) = (changeOf t o value b).toList := by
  have hkeep : ∀ b', (changeOf t o value b').toList.filter (·.bound = b) =
      if b' = b then (changeOf t o value b').toList else [] := by
    intro b'
    cases hc : changeOf t o value b' with
    | none => simp
    | some change => by_cases hb : b' = b <;> simp [changeOf_bound hc, hb]
  rw [evaluate_eq, List.filter_append, hkeep, hkeep]
  cases b <;> simp

/-- A bound hears of its own transitions only. -/
theorem applied_filter (ts : List Transition) :
    applied o ts b = applied o (ts.filter (·.bound = b)) b := by
  have hcongr : ∀ (l : List Transition) (o o' : AlertBound → Bool), o b = o' b →
      (∀ x ∈ l, x.bound = b) → applied o l b = applied o' l b := by
    intro l
    induction l with
    | nil => exact fun _ _ h _ => h
    | cons x l ih =>
        intro o o' _ hl
        obtain rfl := hl x List.mem_cons_self
        exact ih _ _ (by simp) fun y hy => hl y (List.mem_cons_of_mem x hy)
  induction ts generalizing o with
  | nil => rfl
  | cons x ts ih =>
      by_cases hx : x.bound = b
      · rw [List.filter_cons_of_pos (by simpa using hx)]
        exact ih
      · rw [List.filter_cons_of_neg (by simpa using hx)]
        refine ih.trans (hcongr _ _ _ (by simp [Ne.symm hx]) ?_)
        simp

/-- **Applied, the transitions move each trigger on.** -/
theorem applied_evaluate :
    applied o (evaluate value t o) b = (t.trigger b).next (o b) value := by
  rw [applied_filter, filter_evaluate, Trigger.next]
  cases hl : t.limit b with
  | none => simp [changeOf, hl, fires_of_limit_eq_none hl, applied]
  | some threshold =>
      cases hf : (t.trigger b).fires (o b) value with
      | none => simp [changeOf, hl, hf, applied]
      | some edge => cases edge <;> simp [changeOf, hl, hf, applied, transitionOf]

/-- A bound is a trigger with a reset. -/
theorem openAfter_eq : openAfter t o values b = (t.trigger b).after (o b) values := by
  induction values generalizing o with
  | nil => rfl
  | cons value values ih =>
      exact ih.trans (congrArg (fun on => (t.trigger b).after on values) applied_evaluate)

/-- **The transitions of a bound are the edges of its trigger.** -/
theorem filter_transitions {threshold : Double} (hl : t.limit b = some threshold) :
    (transitions t o values).filter (·.bound = b) =
      ((t.trigger b).edges (o b) values).map (transitionOf b threshold) := by
  induction values generalizing o with
  | nil => rfl
  | cons value values ih =>
      rw [transitions, List.filter_append, ih, filter_evaluate, applied_evaluate, Trigger.edges,
        List.map_append, changeOf, hl]
      cases (t.trigger b).fires (o b) value <;> rfl

/-- A bound that is not set has no transitions. -/
theorem filter_transitions_of_none (hl : t.limit b = none) :
    (transitions t o values).filter (·.bound = b) = [] := by
  induction values generalizing o with
  | nil => rfl
  | cons value values ih =>
      rw [transitions, List.filter_append, ih, filter_evaluate, changeOf, hl]
      rfl

/-! ### The two bounds together -/

/-- What a crossed minimum is. -/
theorem Thresholds.minimum_of_crosses (h : t.crosses .min value = true) :
    ∃ lo, t.minimum = some lo ∧ value < lo ∧ lo ≠ .nan ∧ lo ≠ .infinity true := by
  obtain ⟨lo, hlo, hlt⟩ := (Option.any_eq_true _ _).mp h
  have hlt : value < lo := of_decide_eq_true hlt
  exact ⟨lo, hlo, hlt, (Double.ne_nan_of_le (Double.le_of_lt hlt)).2, Double.ne_bot_of_lt hlt⟩

/-- What crosses the upper bound is above it. -/
theorem Thresholds.maximum_of_crosses (h : t.crosses .max value = true) :
    ∃ hi, t.maximum = some hi ∧ hi < value ∧ hi ≠ .nan ∧ hi ≠ .infinity false := by
  obtain ⟨hi, hhi, hlt⟩ := (Option.any_eq_true _ _).mp h
  have hlt : hi < value := of_decide_eq_true hlt
  exact ⟨hi, hhi, hlt, (Double.ne_nan_of_le (Double.le_of_lt hlt)).1, Double.ne_top_of_lt hlt⟩

/-- **Where both can be crossed**, the one clear point is below the other. -/
theorem Thresholds.clear_zone {lo hi : Double} (hlo : t.minimum = some lo)
    (hhi : t.maximum = some hi) (hm : t.clearMargin ≠ .nan) (hlo' : lo ≠ .nan ∧ lo ≠ .infinity true)
    (hhi' : hi ≠ .nan ∧ hi ≠ .infinity false) :
    lo ≤ lo + t.clearMargin ∧ lo + t.clearMargin < hi - t.clearMargin ∧ hi - t.clearMargin ≤ hi := by
  have hpos := clearMargin_pos hm
  have hadd := Double.le_add hlo'.1 hlo'.2 hpos
  have hsub := Double.sub_le hhi'.1 hhi'.2 hpos
  refine ⟨hadd, Double.lt_of_not_le ?_ ?_ (band hlo hhi).2, hsub⟩
  · exact (Double.ne_nan_of_le hsub).1
  · exact (Double.ne_nan_of_le hadd).2

/-- What crosses the one bound has come back from the other. -/
theorem Thresholds.comesBack_of_crosses (hm : t.clearMargin ≠ .nan) {low high : Double}
    (hlow : t.crosses .min low = true) (hhigh : t.crosses .max high = true) :
    t.comesBack .max low = true ∧ t.comesBack .min high = true := by
  obtain ⟨lo, hlo, hlt, hlo'⟩ := minimum_of_crosses hlow
  obtain ⟨hi, hhi, hgt, hhi'⟩ := maximum_of_crosses hhigh
  obtain ⟨hadd, hzone, hsub⟩ := clear_zone hlo hhi hm hlo' hhi'
  simp only [comesBack, clearPoint, hlo, hhi, Option.map_some, Option.any_some, decide_eq_true_eq]
  constructor
  · exact Double.le_of_lt (Double.lt_of_lt_of_le hlt (Double.le_trans hadd (Double.le_of_lt hzone)))
  · exact Double.le_of_lt (Double.lt_of_le_of_lt (Double.le_trans (Double.le_of_lt hzone) hsub) hgt)

/-- A bound that nothing crosses stays closed. -/
theorem after_of_not_crosses (h : ∀ v, t.crosses b v = false) :
    (t.trigger b).after false values = false := by
  refine Bool.eq_false_iff.mpr fun hon => ?_
  obtain ⟨hoff, -⟩ | ⟨_, v, _, _, htrips, _⟩ := Trigger.after_iff.mp hon
  · cases hoff
  · exact absurd htrips (by simp [Thresholds.trigger, h v])

/-- The two bounds are never open at once. -/
theorem never_both (hm : t.clearMargin ≠ .nan) :
    ¬((t.trigger .min).after false values = true ∧ (t.trigger .max).after false values = true) := by
  by_cases hlow : ∃ v, t.crosses .min v = true
  · by_cases hhigh : ∃ v, t.crosses .max v = true
    · obtain ⟨low, hlow⟩ := hlow
      obtain ⟨high, hhigh⟩ := hhigh
      refine Trigger.not_both (fun v hv => ?_) (fun v hv => ?_) (by simp)
      · exact (Thresholds.comesBack_of_crosses hm hv hhigh).1
      · exact (Thresholds.comesBack_of_crosses hm hlow hv).2
    · have hnone : ∀ v, t.crosses .max v = false := fun v =>
        Bool.eq_false_iff.mpr fun hv => hhigh ⟨v, hv⟩
      simp [after_of_not_crosses hnone]
  · have hnone : ∀ v, t.crosses .min v = false := fun v =>
      Bool.eq_false_iff.mpr fun hv => hlow ⟨v, hv⟩
    simp [after_of_not_crosses hnone]

/-! ### Histories -/

/-- No episode is open. -/
def allClosed : AlertBound → Bool := fun _ => false

/-- The transitions of one bound, over a history that begins with nothing open. -/
def history (t : Thresholds) (values : List Double) (b : AlertBound) : List Transition :=
  (transitions t allClosed values).filter (·.bound = b)

/-- The bound and the margin, added up in rationals. -/
def inward : AlertBound → ℚ → ℚ → ℚ
  | .min, bound, margin => bound + margin
  | .max, bound, margin => bound - margin

/-- The one reading is beyond the bound and the other has come back to the clear point, so that
they are further apart than the margin, less what rounding the clear point took from it. -/
def Apart (t : Thresholds) (b : AlertBound) (breach clear : Double) : Prop :=
  t.crosses b breach = true ∧ t.comesBack b clear = true ∧
    ∀ l m p q hl hm hp hq, t.limit b = some (.finite l hl) → t.clearMargin = .finite m hm →
      breach = .finite p hp → clear = .finite q hq →
        m < |q - p| + |rounded (inward b l m) - inward b l m|

/-- The law of hysteresis, for a history of readings. -/
structure HysteresisLaw (t : Thresholds) (values : List Double) : Prop where
  starts : ∀ b, ∀ x ∈ (history t values b).head?, x.state = .breach
  alternates : ∀ b, (history t values b).IsChain fun x y => x.state ≠ y.state
  open_iff : ∀ b, openAfter t allClosed values b = true ↔
    ∃ before v later, values = before ++ v :: later ∧ t.crosses b v = true ∧
      ∀ w ∈ later, t.comesBack b w = false
  apart : ∀ b, (history t values b).IsChain fun x y =>
    x.state = .breach → Apart t b x.value y.value
  never_both : t.clearMargin ≠ .nan →
    ¬(openAfter t allClosed values .min = true ∧ openAfter t allClosed values .max = true)
  accepted : ∀ nanPasses : Bool, (t.clearMargin = .nan → nanPasses = true) →
    ∀ x ∈ transitions t allClosed values, x.state = .breach →
      (t.alert x).accepts nanPasses = true

/-- A breach and its clear are at least the margin apart. -/
theorem apart_of {breach clear : Double} (hcross : t.crosses b breach = true)
    (hback : t.comesBack b clear = true) : Apart t b breach clear := by
  refine ⟨hcross, hback, ?_⟩
  rintro l m p q hl hm hp hq hlimit hmargin rfl rfl
  cases b with
  | min =>
      simp only [Thresholds.limit] at hlimit
      simp only [Thresholds.crosses, Thresholds.comesBack, Thresholds.clearPoint, hlimit, hmargin,
        Option.map_some, Option.any_some, decide_eq_true_eq, Double.finite_lt_finite,
        Double.finite_add] at hcross hback
      have hclear := Double.rounded_le_of_ofRat_le hback
      have herr := neg_abs_le (rounded (l + m) - (l + m))
      have hdist := le_abs_self (q - p)
      simp only [inward]
      linarith
  | max =>
      simp only [Thresholds.limit] at hlimit
      simp only [Thresholds.crosses, Thresholds.comesBack, Thresholds.clearPoint, hlimit, hmargin,
        Option.map_some, Option.any_some, decide_eq_true_eq, Double.finite_lt_finite,
        Double.finite_sub] at hcross hback
      have hclear := Double.le_rounded_of_le_ofRat hback
      have herr := le_abs_self (rounded (l - m) - (l - m))
      have hdist := neg_abs_le (q - p)
      simp only [inward]
      linarith

/-- Each transition of a bound is an edge of its trigger. -/
theorem history_eq {threshold : Double} (hl : t.limit b = some threshold) :
    history t values b =
      ((t.trigger b).edges false values).map (transitionOf b threshold) :=
  filter_transitions hl

/-- An edge upward is a breach. -/
theorem transitionOf_state {threshold : Double} {edge : Bool × Double} :
    (transitionOf b threshold edge).state = .breach ↔ edge.1 = true := by
  cases h : edge.1 <;> simp [transitionOf, h]

/-- A breach passes the validators of its message. -/
theorem accepts_breach {x : Transition} {nanPasses : Bool}
    (hnan : t.clearMargin = .nan → nanPasses = true) (hl : t.limit x.bound = some x.threshold)
    (hcross : t.crosses x.bound x.value = true) (hstate : x.state = .breach) :
    (t.alert x).accepts nanPasses = true := by
  have hgt : gtZero nanPasses t.clearMargin = true := by
    by_cases hm : t.clearMargin = .nan
    · simp [gtZero, hm, hnan hm]
    · simpa [gtZero, hm] using Thresholds.clearMargin_pos hm
  have hout : (t.alert x).breachIsActuallyOutsideTheBand = true := by
    cases hb : x.bound with
    | min =>
        simp only [hb, Thresholds.limit, Thresholds.crosses] at hl hcross
        simp only [hl, Option.any_some, decide_eq_true_eq] at hcross
        simpa [SensorAlert.breachIsActuallyOutsideTheBand, Thresholds.alert, hb, hstate]
          using Double.not_le_of_lt hcross
    | max =>
        simp only [hb, Thresholds.limit, Thresholds.crosses] at hl hcross
        simp only [hl, Option.any_some, decide_eq_true_eq] at hcross
        simpa [SensorAlert.breachIsActuallyOutsideTheBand, Thresholds.alert, hb, hstate]
          using Double.not_le_of_lt hcross
  rw [SensorAlert.accepts, hout, Bool.and_true]
  exact hgt

/-- **Hysteresis**, for every band that the constructor admits and every history of readings. -/
theorem hysteresis_law (t : Thresholds) (values : List Double) : HysteresisLaw t values where
  starts b x hx := by
    cases hl : t.limit b with
    | none => simp [history, filter_transitions_of_none hl] at hx
    | some threshold =>
        rw [history_eq hl, List.head?_map] at hx
        obtain ⟨edge, hedge, rfl⟩ := Option.map_eq_some_iff.mp hx
        exact transitionOf_state.mpr (Trigger.fst_of_head? hedge)
  alternates b := by
    cases hl : t.limit b with
    | none => simp [history, filter_transitions_of_none hl]
    | some threshold =>
        rw [history_eq hl, List.isChain_map]
        refine Trigger.edges_chain.imp fun edge edge' h => ?_
        cases he : edge.1 <;> simp [transitionOf, h, he]
  open_iff b := by
    rw [openAfter_eq]
    exact Trigger.after_iff.trans (by simp [allClosed, Thresholds.trigger])
  apart b := by
    cases hl : t.limit b with
    | none => simp [history, filter_transitions_of_none hl]
    | some threshold =>
        rw [history_eq hl, List.isChain_map]
        refine Trigger.edges_chain.imp_of_mem_imp fun edge edge' hmem hmem' h hbreach => ?_
        have hon := transitionOf_state.mp hbreach
        exact apart_of ((Trigger.mem_edges hmem).2.1 hon)
          ((Trigger.mem_edges hmem').2.2 (by rw [h, hon]; rfl))
  never_both hm := by
    rw [openAfter_eq, openAfter_eq]
    exact never_both hm
  accepted nanPasses hnan x hx hstate := by
    have hx : x ∈ history t values x.bound := List.mem_filter.mpr ⟨hx, by simp⟩
    cases hl : t.limit x.bound with
    | none => simp [history, filter_transitions_of_none hl] at hx
    | some threshold =>
        rw [history_eq hl] at hx
        obtain ⟨edge, hedge, hx⟩ := List.mem_map.mp hx
        have hthreshold : x.threshold = threshold := by rw [← hx]; rfl
        have hvalue : x.value = edge.2 := by rw [← hx]; rfl
        rw [← hx] at hstate
        have hcross := (Trigger.mem_edges hedge).2.1 (transitionOf_state.mp hstate)
        refine accepts_breach hnan (hl.trans (by rw [hthreshold])) (hvalue ▸ hcross) ?_
        rwa [← hx]

/-- Further apart than the margin, as rationals. -/
def FurtherThanMargin (t : Thresholds) (breach clear : Double) : Prop :=
  ∀ m p q hm hp hq, t.clearMargin = .finite m hm → breach = .finite p hp →
    clear = .finite q hq → m < |q - p|

/-- A minimum of 0.1 and a margin of 0.4, whose sum rounds to 0.5, downwards. -/
def narrow : Thresholds where
  minimum := some (.scaled 3602879701896397 (-55) (by decide))
  maximum := none
  clearMargin := .scaled 3602879701896397 (-53) (by decide)
  post_init := by decide +kernel

/-- The double below 0.1, and 0.5. -/
def dip : List Double :=
  [.scaled 7205759403792793 (-56) (by decide), .scaled 1 (-1) (by decide)]

/-- A band with a margin that is no number. -/
def unclearable : Thresholds where
  minimum := some (.scaled 24 0 (by decide))
  maximum := some (.scaled 26 0 (by decide))
  clearMargin := .nan
  post_init := by decide +kernel

/-- `dip` breaches `narrow` and clears it, and its readings are not 0.4 apart; and after a reading
below `unclearable` and one above it, both of its bounds are open. -/
theorem not_hysteresis_law :
    (¬∀ t values b, (history t values b).IsChain fun x y =>
      x.state = .breach → FurtherThanMargin t x.value y.value) ∧
    ¬∀ t values, ¬(openAfter t allClosed values .min = true ∧
      openAfter t allClosed values .max = true) := by
  constructor
  · intro h
    have hrun : history narrow dip .min =
        [transitionOf .min (.scaled 3602879701896397 (-55) (by decide))
            (true, .scaled 7205759403792793 (-56) (by decide)),
          transitionOf .min (.scaled 3602879701896397 (-55) (by decide))
            (false, .scaled 1 (-1) (by decide))] := by decide +kernel
    have hchain := h narrow dip .min
    rw [hrun, List.isChain_pair] at hchain
    have hfar := hchain rfl _ _ _ _ _ _ rfl rfl rfl
    exact absurd hfar (by decide +kernel)
  · intro h
    exact h unclearable [.scaled 23 0 (by decide), .scaled 27 0 (by decide)] (by decide +kernel)

/-! ### Over the rationals -/

/-- The double is the rational. -/
def Is (d : Double) (q : ℚ) : Prop := ∃ h, d = .finite q h

/-- The same transition, in doubles and in rationals. -/
def Same (x : Transition) (y : AlertTransition) : Prop :=
  x.bound = y.bound ∧ x.state = y.state ∧ Is x.value y.value ∧ Is x.threshold y.threshold

/-- **Where no clear point is rounded**, the evaluator over the rationals is this one. -/
theorem evaluate_exact {u : ControlEngine.Thresholds} {q : ℚ}
    (hmin : Option.Rel Is t.minimum u.minimum) (hmax : Option.Rel Is t.maximum u.maximum)
    (hmargin : Is t.clearMargin u.clearMargin)
    (hlow : ∀ lo ∈ u.minimum, IsDouble (lo + u.clearMargin))
    (hhigh : ∀ hi ∈ u.maximum, IsDouble (hi - u.clearMargin)) (hvalue : Is value q) :
    List.Forall₂ Same (evaluate value t o) (ControlEngine.evaluate q u o) := by
  obtain ⟨hm, hmargin⟩ := hmargin
  obtain ⟨hq, rfl⟩ := hvalue
  rw [evaluate, ControlEngine.evaluate]
  refine List.rel_append ?_ ?_
  · cases hl : u.minimum with
    | none =>
        rw [hl] at hmin
        cases hmin' : t.minimum with
        | none => exact .nil
        | some _ => rw [hmin'] at hmin; cases hmin
    | some lo =>
        rw [hl] at hmin
        cases hmin' : t.minimum with
        | none => rw [hmin'] at hmin; cases hmin
        | some lo' =>
            rw [hmin'] at hmin
            obtain ⟨hlo, rfl⟩ : Is lo' lo := by cases hmin; assumption
            simp only [hmargin, Double.finite_add, Double.ofRat_of_isDouble (hlow lo hl),
              Double.finite_lt_finite, Double.finite_le_finite]
            split
            · exact .cons ⟨rfl, rfl, ⟨hq, rfl⟩, ⟨hlo, rfl⟩⟩ .nil
            · split
              · exact .cons ⟨rfl, rfl, ⟨hq, rfl⟩, ⟨hlo, rfl⟩⟩ .nil
              · exact .nil
  · cases hh : u.maximum with
    | none =>
        rw [hh] at hmax
        cases hmax' : t.maximum with
        | none => exact .nil
        | some _ => rw [hmax'] at hmax; cases hmax
    | some hi =>
        rw [hh] at hmax
        cases hmax' : t.maximum with
        | none => rw [hmax'] at hmax; cases hmax
        | some hi' =>
            rw [hmax'] at hmax
            obtain ⟨hhi, rfl⟩ : Is hi' hi := by cases hmax; assumption
            simp only [hmargin, Double.finite_sub, Double.ofRat_of_isDouble (hhigh hi hh),
              Double.finite_lt_finite, Double.finite_le_finite]
            split
            · exact .cons ⟨rfl, rfl, ⟨hq, rfl⟩, ⟨hhi, rfl⟩⟩ .nil
            · split
              · exact .cons ⟨rfl, rfl, ⟨hq, rfl⟩, ⟨hhi, rfl⟩⟩ .nil
              · exact .nil

end BellasReef.ControlEngine.Binary64
