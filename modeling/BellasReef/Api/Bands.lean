import BellasReef.ControlEngine.Hysteresis

/-!
# API — Bands

The rule for a band of thresholds, as it is written three times: in the API's `AlertThresholds`, in
the CHECK constraints of `devices`, and in the constructor that the engine calls on what the store
hands it.

For numbers the three agree, and a bound of the band can be breached and cleared.  Python finds no
order with NaN and Postgres puts it last; a minimum of −∞ and a maximum of +∞ are never breached.
`one_band_iff` says for which bands they part.
-/

namespace BellasReef.Api.Bands
open BellasReef.Support BellasReef.ControlEngine.Binary64
open BellasReef.ControlEngine (AlertBound)

/-- `AlertThresholds`, as its fields admit it. -/
structure AlertThresholds (nanPasses : Bool) where
  minimum : Option Double
  maximum : Option Double
  clearMargin : Option Double
  clear_margin_gt : ∀ margin ∈ clearMargin, gtZero nanPasses margin = true

variable {nanPasses : Bool}

/-- `_mirror_the_database_constraints`. -/
def mirrorTheDatabaseConstraints (t : AlertThresholds nanPasses) : Except String Unit :=
  if t.minimum = none ∧ t.maximum = none then .ok ()
  else
    match t.clearMargin with
    | none => .error "clear_margin is required when a threshold is set"
    | some clearMargin =>
        match t.minimum, t.maximum with
        | some minimum, some maximum =>
            if maximum ≤ minimum then .error "minimum must be below maximum"
            else if maximum - clearMargin ≤ minimum + clearMargin then
              .error "clear_margin is wider than half the band, so no reading could clear it"
            else .ok ()
        | _, _ => .ok ()

/-! ### Postgres -/

/-- The order of `float8`: NaN is equal to itself and greater than every number. -/
def sqlOrder (x : Double) : WithTop (WithBot (WithTop ℚ)) := x.extended

/-- A sum of `float8`; an infinity that neither operand was is an error. -/
def sqlAdd (x y : Double) : Option Double :=
  match x, y, x + y with
  | .finite .., .finite .., .infinity _ => none
  | _, _, sum => some sum

/-- The row's columns. -/
structure Columns where
  alertMin : Option Double
  alertMax : Option Double
  alertClearMargin : Option Double

/-- `clear_margin_positive`. -/
def Columns.clearMarginPositive (c : Columns) : Bool :=
  c.alertClearMargin.all fun margin => sqlOrder 0 < sqlOrder margin

/-- `alert_band_ordered`. -/
def Columns.alertBandOrdered (c : Columns) : Bool :=
  c.alertMin.all fun lo => c.alertMax.all fun hi => sqlOrder lo < sqlOrder hi

/-- `thresholds_require_clear_margin`. -/
def Columns.thresholdsRequireClearMargin (c : Columns) : Bool :=
  (c.alertMin.isNone && c.alertMax.isNone) || c.alertClearMargin.isSome

/-- `clear_zone_is_reachable`; the statement fails, too, where a sum is an error. -/
def Columns.clearZoneIsReachable (c : Columns) : Bool :=
  c.alertMin.all fun lo => c.alertMax.all fun hi => c.alertClearMargin.all fun margin =>
    match sqlAdd lo margin, sqlAdd hi (-margin) with
    | some low, some high => sqlOrder low < sqlOrder high
    | _, _ => false

/-- The row of a sensor passes its CHECK constraints. -/
def Columns.accepts (c : Columns) : Bool :=
  c.clearMarginPositive && c.alertBandOrdered && c.thresholdsRequireClearMargin &&
    c.clearZoneIsReachable

/-! ### The three validators -/

/-- The API answers something other than 422. -/
def AlertThresholds.apiAccepts (t : AlertThresholds nanPasses) : Prop :=
  mirrorTheDatabaseConstraints t = .ok ()

/-- What `set_thresholds` writes. -/
def AlertThresholds.columns (t : AlertThresholds nanPasses) : Columns :=
  ⟨t.minimum, t.maximum, t.clearMargin⟩

/-- The thresholds pass the checks of the table. -/
def AlertThresholds.storeAccepts (t : AlertThresholds nanPasses) : Prop :=
  t.columns.accepts = true

/-- `margin or 0.0`, of `PostgresAlertStore.thresholds`. -/
def AlertThresholds.marginOrZero (t : AlertThresholds nanPasses) : Double := t.clearMargin.getD 0

/-- `_refresh_thresholds` takes the band in. -/
def AlertThresholds.engineAccepts (t : AlertThresholds nanPasses) : Prop :=
  postInit t.minimum t.maximum t.marginOrZero = .ok ()

instance (t : AlertThresholds nanPasses) : Decidable t.apiAccepts :=
  inferInstanceAs (Decidable (mirrorTheDatabaseConstraints t = .ok ()))
instance (t : AlertThresholds nanPasses) : Decidable t.storeAccepts :=
  inferInstanceAs (Decidable (t.columns.accepts = true))
instance (t : AlertThresholds nanPasses) : Decidable t.engineAccepts :=
  inferInstanceAs (Decidable (postInit t.minimum t.maximum t.marginOrZero = .ok ()))

/-- The band that the engine evaluates. -/
def AlertThresholds.band (t : AlertThresholds nanPasses) (h : t.engineAccepts) : Thresholds :=
  ⟨t.minimum, t.maximum, t.marginOrZero, h⟩

/-! ### Bounds that can be reached -/

/-- There are a reading that breaches the bound and a later one that clears it. -/
def Reachable (t : Thresholds) (b : AlertBound) : Prop :=
  ∃ v w, (∃ x ∈ evaluate v t allClosed, x.bound = b ∧ x.state = .breach) ∧
    ∃ y ∈ evaluate w t (openAfter t allClosed [v]), y.bound = b ∧ y.state = .clear

/-- The three accept the same, and what they accept can be breached and cleared. -/
structure OneBand (t : AlertThresholds nanPasses) : Prop where
  api_iff_store : t.apiAccepts ↔ t.storeAccepts
  store_iff_engine : t.storeAccepts ↔ t.engineAccepts
  reachable : ∀ h : t.engineAccepts, ∀ b, ((t.band h).limit b).isSome → Reachable (t.band h) b

/-- The margin is a number, the minimum is a number above −∞, and the maximum is one below +∞. -/
structure AlertThresholds.Numbers (t : AlertThresholds nanPasses) : Prop where
  margin : t.marginOrZero ≠ .nan
  minimum : ∀ lo ∈ t.minimum, lo ≠ .nan ∧ lo ≠ .infinity true
  maximum : ∀ hi ∈ t.maximum, hi ≠ .nan ∧ hi ≠ .infinity false

/-- The comparisons that Python makes turn the band down. -/
def AlertThresholds.Crossed (t : AlertThresholds nanPasses) : Prop :=
  ∃ lo ∈ t.minimum, ∃ hi ∈ t.maximum,
    hi ≤ lo ∨ hi - t.marginOrZero ≤ lo + t.marginOrZero

/-! ### The validators compared -/

variable {t : AlertThresholds nanPasses} {x y : Double}

/-- A margin that pydantic takes is not below zero, even if it is a NaN. -/
theorem not_le_zero_of_gtZero {margin : Double} (h : gtZero nanPasses margin = true) :
    ¬margin ≤ 0 := by
  by_cases hm : margin = .nan
  · subst hm
    exact fun hle => (Double.ne_nan_of_le hle).1 rfl
  · simp only [gtZero, if_neg hm, decide_eq_true_eq] at h
    exact Double.not_le_of_lt h

/-- Postgres never puts last what Python puts first. -/
theorem not_le_of_sqlOrder_lt (h : sqlOrder x < sqlOrder y) : ¬y ≤ x := by
  intro hle
  obtain ⟨b, hb, a, ha, hle⟩ := Double.le_iff.mp hle
  rw [Option.mem_def] at ha hb
  rw [sqlOrder, sqlOrder, ha, hb] at h
  exact (WithTop.coe_lt_coe.mp h).not_ge hle

/-- And the two agree on numbers. -/
theorem sqlOrder_lt_of_lt (h : x < y) : sqlOrder x < sqlOrder y := by
  obtain ⟨a, ha, b, hb, hlt⟩ := Double.lt_iff.mp h
  rw [Option.mem_def] at ha hb
  rw [sqlOrder, sqlOrder, ha, hb]
  exact WithTop.coe_lt_coe.mpr hlt

/-- Postgres orders a NaN above every number. -/
theorem sqlOrder_pos_of_gtZero {margin : Double} (h : gtZero nanPasses margin = true) :
    sqlOrder 0 < sqlOrder margin := by
  by_cases hm : margin = .nan
  · subst hm
    exact WithTop.coe_lt_top _
  · simp only [gtZero, if_neg hm, decide_eq_true_eq] at h
    exact sqlOrder_lt_of_lt h

/-- A sum that Postgres can store is Python's. -/
theorem sqlAdd_eq_some {sum : Double} (h : sqlAdd x y = some sum) : sum = x + y := by
  unfold sqlAdd at h
  split at h
  · cases h
  · exact (Option.some.inj h).symm

/-- A sum fails only where it leaves the range. -/
theorem sqlAdd_eq_none (h : sqlAdd x y = none) : x + y = .infinity true ∨ x + y = .infinity false := by
  unfold sqlAdd at h
  split at h
  · next s hs => cases s <;> simp [hs]
  · cases h

/-- What Python compares, for a band that has its margin and a bound. -/
theorem apiAccepts_iff (hset : t.minimum.isSome ∨ t.maximum.isSome) :
    t.apiAccepts ↔ t.clearMargin.isSome ∧ ¬t.Crossed := by
  have hne : ¬(t.minimum = none ∧ t.maximum = none) := by
    rintro ⟨hlo, hhi⟩
    simp [hlo, hhi] at hset
  rw [AlertThresholds.apiAccepts, mirrorTheDatabaseConstraints, if_neg hne,
    AlertThresholds.Crossed, AlertThresholds.marginOrZero]
  cases t.clearMargin with
  | none => simp
  | some margin =>
      cases t.minimum <;> cases t.maximum <;> simp
      split_ifs <;> simp_all

/-- The engine's model takes a band that is not crossed and has a margin. -/
theorem engineAccepts_iff : t.engineAccepts ↔ t.clearMargin.isSome ∧ ¬t.Crossed := by
  obtain ⟨minimum, maximum, clearMargin, hgt⟩ := t
  cases clearMargin with
  | none =>
      have hzero : (0 : Double) ≤ 0 := Double.finite_le_finite.mpr le_rfl
      simp [AlertThresholds.engineAccepts, AlertThresholds.marginOrZero, postInit, hzero]
  | some margin =>
      have hpos := not_le_zero_of_gtZero (hgt margin rfl)
      cases minimum <;> cases maximum <;>
        simp [AlertThresholds.engineAccepts, AlertThresholds.marginOrZero, AlertThresholds.Crossed,
          postInit, hpos]
      split_ifs <;> simp_all

/-- The rows that pass. -/
theorem storeAccepts_iff (hset : t.minimum.isSome ∨ t.maximum.isSome) :
    t.storeAccepts ↔ t.clearMargin.isSome ∧ ∀ lo ∈ t.minimum, ∀ hi ∈ t.maximum,
      sqlOrder lo < sqlOrder hi ∧ ∃ low high, sqlAdd lo t.marginOrZero = some low ∧
        sqlAdd hi (-t.marginOrZero) = some high ∧ sqlOrder low < sqlOrder high := by
  obtain ⟨minimum, maximum, clearMargin, hgt⟩ := t
  cases clearMargin with
  | none =>
      cases minimum <;> cases maximum <;>
        simp_all [AlertThresholds.storeAccepts, AlertThresholds.columns, Columns.accepts,
          Columns.thresholdsRequireClearMargin]
  | some margin =>
      have hpos := sqlOrder_pos_of_gtZero (hgt margin rfl)
      cases minimum <;> cases maximum <;>
        simp [AlertThresholds.storeAccepts, AlertThresholds.columns, Columns.accepts,
          AlertThresholds.marginOrZero, Columns.clearMarginPositive, Columns.alertBandOrdered,
          Columns.thresholdsRequireClearMargin, Columns.clearZoneIsReachable, hpos]
      intro _
      split <;> simp_all

/-- The store accepts nothing that the others do not. -/
theorem not_crossed_of_storeAccepts (hset : t.minimum.isSome ∨ t.maximum.isSome)
    (h : t.storeAccepts) : ¬t.Crossed := by
  rintro ⟨lo, hlo, hi, hhi, hcrossed⟩
  obtain ⟨hband, low, high, hlow, hhigh, hzone⟩ := ((storeAccepts_iff hset).mp h).2 lo hlo hi hhi
  obtain hle | hle := hcrossed
  · exact not_le_of_sqlOrder_lt hband hle
  · obtain rfl := sqlAdd_eq_some hlow
    obtain rfl := sqlAdd_eq_some hhigh
    exact not_le_of_sqlOrder_lt hzone hle

/-- **Of numbers**, the store accepts all that the others do. -/
theorem storeAccepts_of_numbers (hset : t.minimum.isSome ∨ t.maximum.isSome)
    (hmargin : t.clearMargin.isSome) (hn : t.Numbers) (hc : ¬t.Crossed) : t.storeAccepts := by
  have hpos : 0 < t.marginOrZero := by
    obtain ⟨margin, hm⟩ := Option.isSome_iff_exists.mp hmargin
    have hm' : t.marginOrZero = margin := by rw [AlertThresholds.marginOrZero, hm]; rfl
    refine Double.lt_of_not_le hn.margin (by rintro ⟨⟩) ?_
    exact hm' ▸ not_le_zero_of_gtZero (t.clear_margin_gt margin hm)
  refine (storeAccepts_iff hset).mpr ⟨hmargin, fun lo hlo hi hhi => ?_⟩
  obtain ⟨hlo', hlo''⟩ := hn.minimum lo hlo
  obtain ⟨hhi', hhi''⟩ := hn.maximum hi hhi
  have hadd := Double.le_add hlo' hlo'' hpos
  have hsub := Double.sub_le hhi' hhi'' hpos
  have hband : lo < hi := Double.lt_of_not_le hhi' hlo' fun hle =>
    hc ⟨lo, hlo, hi, hhi, .inl hle⟩
  have hzone : lo + t.marginOrZero < hi - t.marginOrZero :=
    Double.lt_of_not_le (Double.ne_nan_of_le hsub).1 (Double.ne_nan_of_le hadd).2 fun hle =>
      hc ⟨lo, hlo, hi, hhi, .inr hle⟩
  -- neither sum leaves the range: each stays between its bound and the other sum
  obtain ⟨low, hlow⟩ : ∃ low, sqlAdd lo t.marginOrZero = some low := by
    refine Option.ne_none_iff_exists'.mp fun hnone => ?_
    obtain hbot | htop := sqlAdd_eq_none hnone
    · exact hlo'' (Double.eq_bot_of_le (hbot ▸ hadd))
    · exact Double.ne_top_of_lt hzone htop
  obtain ⟨high, hhigh⟩ : ∃ high, sqlAdd hi (-t.marginOrZero) = some high := by
    refine Option.ne_none_iff_exists'.mp fun hnone => ?_
    obtain hbot | htop := sqlAdd_eq_none hnone
    · exact Double.ne_bot_of_lt hzone hbot
    · exact hhi'' (Double.eq_top_of_le (htop ▸ hsub))
  refine ⟨sqlOrder_lt_of_lt hband, low, high, hlow, hhigh, ?_⟩
  rw [sqlAdd_eq_some hlow, sqlAdd_eq_some hhigh]
  exact sqlOrder_lt_of_lt hzone

/-! ### Which bounds can be breached and cleared -/

/-- What the evaluator says of a bound is the edge of its trigger. -/
theorem mem_evaluate_iff {u : Thresholds} {o : AlertBound → Bool} {v : Double} {b : AlertBound}
    {edge : Bool} : (∃ x ∈ evaluate v u o, x.bound = b ∧
      x.state = if edge then .breach else .clear) ↔ (u.trigger b).fires (o b) v = some edge := by
  have hmem : ∀ x, x ∈ evaluate v u o ∧ x.bound = b ↔ changeOf u o v b = some x := by
    intro x
    have := congrArg (x ∈ ·) (@filter_evaluate u b o v)
    simpa using this
  simp only [← and_assoc, hmem]
  cases hl : u.limit b with
  | none => simp [changeOf, hl, fires_of_limit_eq_none hl]
  | some threshold =>
      cases hf : (u.trigger b).fires (o b) v with
      | none => simp [changeOf, hl, hf]
      | some e => cases e <;> cases edge <;> simp [changeOf, hl, hf, transitionOf]

/-- **A bound can be breached and cleared** when a reading can cross it and another can come back. -/
theorem reachable_iff {u : Thresholds} {b : AlertBound} :
    Reachable u b ↔ (∃ v, u.crosses b v = true) ∧ ∃ w, u.comesBack b w = true := by
  have hbreach := fun v => @mem_evaluate_iff u allClosed v b true
  have hclear := fun v w => @mem_evaluate_iff u (openAfter u allClosed [v]) w b false
  simp only [if_true, Bool.false_eq_true, if_false] at hbreach hclear
  simp only [Reachable, hbreach, hclear, openAfter_eq]
  constructor
  · rintro ⟨v, w, hv, hw⟩
    exact ⟨⟨v, (Trigger.fires_eq_some hv).2.1 rfl⟩, ⟨w, (Trigger.fires_eq_some hw).2.2 rfl⟩⟩
  · rintro ⟨⟨v, hv⟩, ⟨w, hw⟩⟩
    have hfires : (u.trigger b).fires (allClosed b) v = some true := if_pos hv
    refine ⟨v, w, hfires, ?_⟩
    have hon : (u.trigger b).after (allClosed b) [v] = true := Trigger.next_of_fires hfires
    rw [hon]
    exact if_pos hw

/-! ### One band -/

/-- A bound that can be crossed, of a margin that is a number, can be come back to. -/
theorem reachable_of_numbers (hn : t.Numbers) (h : t.engineAccepts) {b : AlertBound}
    (hb : ((t.band h).limit b).isSome) : Reachable (t.band h) b := by
  have hpos : 0 < t.marginOrZero := (t.band h).clearMargin_pos hn.margin
  obtain ⟨threshold, hl⟩ := Option.isSome_iff_exists.mp hb
  refine reachable_iff.mpr ?_
  cases b with
  | min =>
      have hl : t.minimum = some threshold := hl
      obtain ⟨hnan, hbot⟩ := hn.minimum threshold hl
      have hlt : Double.infinity true < threshold :=
        Double.lt_of_not_le hnan (by rintro ⟨⟩) fun hle => hbot (Double.eq_bot_of_le hle)
      have hclear := (Double.ne_nan_of_le (Double.le_add hnan hbot hpos)).2
      refine ⟨⟨.infinity true, ?_⟩, ⟨.infinity false, ?_⟩⟩
      · simpa [Thresholds.crosses, AlertThresholds.band, hl] using hlt
      · simpa [Thresholds.comesBack, Thresholds.clearPoint, AlertThresholds.band, hl] using hclear
  | max =>
      have hl : t.maximum = some threshold := hl
      obtain ⟨hnan, htop⟩ := hn.maximum threshold hl
      have hlt : threshold < Double.infinity false :=
        Double.lt_of_not_le (by rintro ⟨⟩) hnan fun hle => htop (Double.eq_top_of_le hle)
      have hclear := (Double.ne_nan_of_le (Double.sub_le hnan htop hpos)).1
      refine ⟨⟨.infinity false, ?_⟩, ⟨.infinity true, ?_⟩⟩
      · simpa [Thresholds.crosses, AlertThresholds.band, hl] using hlt
      · simpa [Thresholds.comesBack, Thresholds.clearPoint, AlertThresholds.band, hl] using hclear

/-- And one that cannot be crossed, or not come back to, is not reachable. -/
theorem numbers_of_reachable (hset : t.minimum.isSome ∨ t.maximum.isSome) (h : t.engineAccepts)
    (hr : ∀ b, ((t.band h).limit b).isSome → Reachable (t.band h) b) : t.Numbers := by
  have hlow : ∀ lo ∈ t.minimum, (lo ≠ .nan ∧ lo ≠ .infinity true) ∧ t.marginOrZero ≠ .nan := by
    intro lo hlo
    rw [Option.mem_def] at hlo
    obtain ⟨⟨v, hv⟩, ⟨w, hw⟩⟩ := reachable_iff.mp (hr .min (Option.isSome_iff_exists.mpr ⟨lo, hlo⟩))
    obtain ⟨lo', hlo', -, hnum⟩ := Thresholds.minimum_of_crosses hv
    obtain rfl : lo = lo' := Option.some.inj (hlo.symm.trans hlo')
    simp only [Thresholds.comesBack, Thresholds.clearPoint, AlertThresholds.band, hlo,
      Option.map_some, Option.any_some, decide_eq_true_eq] at hw
    exact ⟨hnum, ne_nan_of_add (Double.ne_nan_of_le hw).1⟩
  have hhigh : ∀ hi ∈ t.maximum, (hi ≠ .nan ∧ hi ≠ .infinity false) ∧ t.marginOrZero ≠ .nan := by
    intro hi hhi
    rw [Option.mem_def] at hhi
    obtain ⟨⟨v, hv⟩, ⟨w, hw⟩⟩ := reachable_iff.mp (hr .max (Option.isSome_iff_exists.mpr ⟨hi, hhi⟩))
    obtain ⟨hi', hhi', -, hnum⟩ := Thresholds.maximum_of_crosses hv
    obtain rfl : hi = hi' := Option.some.inj (hhi.symm.trans hhi')
    simp only [Thresholds.comesBack, Thresholds.clearPoint, AlertThresholds.band, hhi,
      Option.map_some, Option.any_some, decide_eq_true_eq] at hw
    exact ⟨hnum, ne_nan_of_sub (Double.ne_nan_of_le hw).2⟩
  refine ⟨?_, fun lo hlo => (hlow lo hlo).1, fun hi hhi => (hhigh hi hhi).1⟩
  obtain hlo | hhi := hset
  · obtain ⟨lo, hlo⟩ := Option.isSome_iff_exists.mp hlo
    exact (hlow lo hlo).2
  · obtain ⟨hi, hhi⟩ := Option.isSome_iff_exists.mp hhi
    exact (hhigh hi hhi).2

/-- **The three validators** keep to one band, with bounds that can be breached and cleared, exactly
for a band without a margin, for one that its comparisons turn down, and for one of numbers. -/
theorem one_band_iff (t : AlertThresholds nanPasses)
    (hset : t.minimum.isSome ∨ t.maximum.isSome) :
    OneBand t ↔ t.clearMargin = none ∨ t.Crossed ∨ t.Numbers := by
  have hapi := apiAccepts_iff hset
  have hengine := @engineAccepts_iff _ t
  have hstore : t.storeAccepts → t.clearMargin.isSome ∧ ¬t.Crossed := fun h =>
    ⟨((storeAccepts_iff hset).mp h).1, not_crossed_of_storeAccepts hset h⟩
  constructor
  · intro hone
    by_cases hm : t.clearMargin = none
    · exact .inl hm
    · by_cases hc : t.Crossed
      · exact .inr (.inl hc)
      · have h := hengine.mpr ⟨Option.isSome_iff_ne_none.mpr hm, hc⟩
        exact .inr (.inr (numbers_of_reachable hset h (hone.reachable h)))
  · intro h
    have hnumbers : t.clearMargin.isSome ∧ ¬t.Crossed → t.Numbers := fun ⟨hm, hc⟩ =>
      (h.resolve_left (Option.isSome_iff_ne_none.mp hm)).resolve_left hc
    have hstore : t.storeAccepts ↔ t.clearMargin.isSome ∧ ¬t.Crossed :=
      ⟨hstore, fun ha => storeAccepts_of_numbers hset ha.1 (hnumbers ha) ha.2⟩
    exact ⟨hapi.trans hstore.symm, hstore.trans hengine.symm, fun he b hb =>
      reachable_of_numbers (hnumbers (hengine.mp he)) he hb⟩

theorem scaled_24 : |(24 : ℤ)| < 2 ^ 53 ∧ -1074 ≤ (0 : ℤ) ∧ (0 : ℤ) ≤ 971 := by decide

theorem scaled_26 : |(26 : ℤ)| < 2 ^ 53 ∧ -1074 ≤ (0 : ℤ) ∧ (0 : ℤ) ≤ 971 := by decide

theorem scaled_half : |(1 : ℤ)| < 2 ^ 53 ∧ -1074 ≤ (-1 : ℤ) ∧ (-1 : ℤ) ≤ 971 := by decide

theorem half_gt_zero : ∀ margin ∈ some (Double.scaled 1 (-1) scaled_half),
    gtZero nanPasses margin = true := by
  simpa [gtZero, Double.scaled] using by decide +kernel

/-- From 24 to 26, and half a degree. -/
def reef : AlertThresholds nanPasses where
  minimum := some (.scaled 24 0 scaled_24)
  maximum := some (.scaled 26 0 scaled_26)
  clearMargin := some (.scaled 1 (-1) scaled_half)
  clear_margin_gt := half_gt_zero

/-- A band for a reef is taken by all three. -/
theorem one_band_iff_reef : OneBand (@reef true) := by
  refine (one_band_iff reef (.inl rfl)).mpr (.inr (.inr ⟨by rintro ⟨⟩, ?_, ?_⟩))
  · rintro _ ⟨⟩
    exact ⟨by rintro ⟨⟩, by rintro ⟨⟩⟩
  · rintro _ ⟨⟩
    exact ⟨by rintro ⟨⟩, by rintro ⟨⟩⟩

/-- A minimum of −∞, as `-1e999` is read, with half a degree. -/
def bottomless : AlertThresholds nanPasses where
  minimum := some (.infinity true)
  maximum := none
  clearMargin := some (.scaled 1 (-1) scaled_half)
  clear_margin_gt := half_gt_zero

theorem infinite_gt_zero :
    ∀ margin ∈ some (Double.infinity false), gtZero nanPasses margin = true := by
  simpa [gtZero] using by decide +kernel

/-- The same minimum, under a maximum, with an infinite margin. -/
def boundless : AlertThresholds nanPasses where
  minimum := some (.infinity true)
  maximum := some (.scaled 26 0 scaled_26)
  clearMargin := some (.infinity false)
  clear_margin_gt := infinite_gt_zero

/-- All three accept `bottomless`, and no reading breaches it; `boundless` passes the API and the
engine, and the row is refused. -/
theorem not_one_band :
    ((@bottomless true).storeAccepts ∧
      ∃ h : (@bottomless true).engineAccepts, ¬Reachable (bottomless.band h) .min) ∧
    ((@boundless true).apiAccepts ∧ (@boundless true).engineAccepts ∧
      ¬(@boundless true).storeAccepts) := by
  have hengine : (@bottomless true).engineAccepts := by decide +kernel
  refine ⟨⟨by decide +kernel, hengine, fun hr => ?_⟩, by decide +kernel, by decide +kernel,
    by decide +kernel⟩
  obtain ⟨⟨v, hv⟩, -⟩ := reachable_iff.mp hr
  obtain ⟨lo, hlo, -, -, hbot⟩ := Thresholds.minimum_of_crosses hv
  exact hbot (Option.some.inj hlo).symm

end BellasReef.Api.Bands
