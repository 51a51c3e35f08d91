import BellasReef.Api.ChannelIds
import BellasReef.Contracts.Messages
import BellasReef.ControlEngine.Scheduler
import BellasReef.Support.Interpolant
import Mathlib.Tactic.NormNum

/-!
# ControlEngine — Profiles

The day of a channel: a schedule's curve and its one validity rule (`schedules.py`), and
`ChannelProfile.duty_at` (`profiles.py`), which looks a time of day up between the points of the
curve and across midnight.  The timezone database is a parameter.

* `lookup_interpolates`: the two branches of `duty_at` are one piecewise linear function on the
  circle of a day, without a division by zero and without the return at its end.
* `duty_at_cyclic`: what follows for every curve that `validate_curve` accepts, and every
  definition makes a profile.
-/

namespace BellasReef.ControlEngine.Profiles
open BellasReef.Api BellasReef.Api.ChannelIds BellasReef.Contracts BellasReef.Support

/-! ### Curves -/

/-- A `datetime.time` without its microseconds. -/
structure TimeOfDay where
  hour : Fin 24
  minute : Fin 60
  second : Fin 60
  deriving DecidableEq, Repr

/-- Seconds since midnight. -/
def TimeOfDay.seconds (t : TimeOfDay) : ℤ := t.hour * 3600 + t.minute * 60 + t.second

/-- The timezone database. -/
structure Zones where
  /-- `ZoneInfo(zone)` does not raise. -/
  known : Str → Bool
  /-- The time of day that an instant has in a zone. -/
  localTime : Str → ℚ → TimeOfDay

/-- `Anchor`. -/
inductive Anchor where
  | clock
  | solarNatural
  | solarCustom
  deriving DecidableEq, Repr

/-- `_V2_ANCHORS`. -/
def v2Anchors : List Anchor := [.solarNatural, .solarCustom]

/-- The place whose sun a schedule follows. -/
structure Locale where
  name : Str
  lat : ℚ
  lon : ℚ
  name_length : 1 ≤ name.length ∧ name.length ≤ 64
  lat_range : -90 ≤ lat ∧ lat ≤ 90
  lon_range : -180 ≤ lon ∧ lon ≤ 180

/-- A point of a day's curve. -/
structure SchedulePoint where
  «at» : TimeOfDay
  duty : Duty

/-- Where the point is on the day. -/
def SchedulePoint.seconds (p : SchedulePoint) : ℤ := p.«at».seconds

/-- The `ValueError`s of `validate_curve`. -/
inductive CurveError where
  | solarAnchor (anchor : Anchor)
  | localeWithClock
  | unknownTimezone (zone : Str)
  | notAscending
  | sharedTime

/-- `validate_curve`. -/
def validateCurve (Z : Zones) (points : List SchedulePoint) (zone : Str) (anchor : Anchor)
    (locale : Option Locale) : Except CurveError Unit :=
  let seconds := points.map SchedulePoint.seconds
  if anchor ∈ v2Anchors then .error (.solarAnchor anchor)
  else if anchor = .clock ∧ locale.isSome then .error .localeWithClock
  else if Z.known zone = false then .error (.unknownTimezone zone)
  else if seconds ≠ seconds.insertionSort (· ≤ ·) then .error .notAscending
  else if seconds.dedup.length ≠ seconds.length then .error .sharedTime
  else .ok ()

/-- A schedule's wire shape, validated. -/
structure ScheduleDefinition (Z : Zones) where
  name : Str
  zone : Str
  anchor : Anchor
  locale : Option Locale
  points : List SchedulePoint
  name_length : 1 ≤ name.length ∧ name.length ≤ 64
  two_points : 2 ≤ points.length
  validate : validateCurve Z points zone anchor locale = .ok ()

/-! ### Profiles -/

/-- `OnMiss`. -/
inductive OnMiss where
  | converge
  | skip
  deriving DecidableEq, Repr

/-- A channel and its day, validated. -/
structure ChannelProfile (Z : Zones) where
  channelId : Str
  anchor : Anchor
  zone : Str
  points : List SchedulePoint
  locale : Option Locale
  onMiss : OnMiss
  channel_id_pattern : fieldPattern channelId = true
  two_points : 2 ≤ points.length
  validate : validateCurve Z points zone anchor locale = .ok ()

/-- Why pydantic builds no profile: the fields it rejects, or else the validator's error. -/
inductive ProfileError where
  | fields (channelId points : Bool)
  | curve (e : CurveError)

/-- `ChannelProfile.from_definition`, with the default `on_miss`. -/
def fromDefinition {Z : Zones} (channelId : Str) (d : ScheduleDefinition Z) :
    Except ProfileError (ChannelProfile Z) :=
  if hfields : fieldPattern channelId = true ∧ 2 ≤ d.points.length then
    match hcurve : validateCurve Z d.points d.zone d.anchor d.locale with
    | .ok () =>
        .ok {
          channelId
          anchor := d.anchor
          zone := d.zone
          points := d.points
          locale := d.locale
          onMiss := .converge
          channel_id_pattern := hfields.1
          two_points := hfields.2
          validate := hcurve }
    | .error e => .error (.curve e)
  else .error (.fields (!fieldPattern channelId) (d.points.length < 2))

/-- `_lerp`. -/
def lerp (a b t : ℚ) : ℚ := min 1 (max 0 (a + (b - a) * t))

/-- Division as Python has it; `none` is a `ZeroDivisionError`. -/
def divide (a b : ℤ) : Option ℚ := if b = 0 then none else some (a / b)

/-- Which `return` of `duty_at` is taken. -/
inductive DutyReturn where
  | wrap
  | zeroSpan
  | segment
  | fallThrough
  deriving DecidableEq, Repr

/-- `86400`. -/
def daySeconds : ℤ := 86400

/-- `duty_at` past the conversion to the zone: the `return` it takes, and the duty. -/
def lookup (points : List SchedulePoint) (h : points ≠ []) (nowS : ℤ) : DutyReturn × Option ℚ :=
  let first := points.head h
  let last := points.getLast h
  if nowS < first.seconds ∨ last.seconds ≤ nowS then
    let span := first.seconds + daySeconds - last.seconds
    if span = 0 then (.zeroSpan, some last.duty)
    else
      let elapsed := (nowS - last.seconds) % daySeconds
      (.wrap, (divide elapsed span).map (lerp last.duty first.duty))
  else
    match (points.zip points.tail).find? fun s =>
        decide (s.1.seconds ≤ nowS ∧ nowS < s.2.seconds) with
    | some (lo, hi) =>
        (.segment, (divide (nowS - lo.seconds) (hi.seconds - lo.seconds)).map
          (lerp lo.duty hi.duty))
    | none => (.fallThrough, some last.duty)

/-- A `datetime`. -/
inductive Instant where
  | naive
  | aware (t : ℚ)

/-- How `duty_at` raises. -/
inductive DutyError where
  | notAware
  | zeroDivision
  deriving DecidableEq, Repr

section
variable {Z : Zones} (p : ChannelProfile Z)

theorem ChannelProfile.points_ne_nil : p.points ≠ [] :=
  List.ne_nil_of_length_pos (lt_of_lt_of_le two_pos p.two_points)

/-- At a time of day in the profile's zone. -/
def ChannelProfile.lookup (nowS : ℤ) : DutyReturn × Option ℚ :=
  Profiles.lookup p.points p.points_ne_nil nowS

/-- `ChannelProfile.duty_at`. -/
def ChannelProfile.dutyAt : Instant → Except DutyError ℚ
  | .naive => .error .notAware
  | .aware t =>
      match (p.lookup (Z.localTime p.zone t).seconds).2 with
      | some duty => .ok duty
      | none => .error .zeroDivision

end

/-! ### What the rule lets through -/

/-- A time of day is within the day. -/
theorem TimeOfDay.seconds_range (t : TimeOfDay) : 0 ≤ t.seconds ∧ t.seconds < daySeconds := by
  simp only [TimeOfDay.seconds, daySeconds]
  omega

/-- **The curve rule**: a clock curve of a known zone, in strictly ascending order. -/
theorem validateCurve_iff {Z : Zones} {points : List SchedulePoint} {zone : Str} {anchor : Anchor}
    {locale : Option Locale} :
    validateCurve Z points zone anchor locale = .ok () ↔
      anchor = .clock ∧ locale = none ∧ Z.known zone = true ∧
        points.Pairwise fun a b => a.seconds < b.seconds := by
  -- the source compares with the sorted list, and then counts the distinct times
  have hascending : (points.Pairwise fun a b => a.seconds < b.seconds) ↔
      points.map SchedulePoint.seconds =
          (points.map SchedulePoint.seconds).insertionSort (· ≤ ·) ∧
        (points.map SchedulePoint.seconds).dedup.length =
          (points.map SchedulePoint.seconds).length := by
    rw [← List.pairwise_map (f := SchedulePoint.seconds) (R := (· < ·))]
    generalize points.map SchedulePoint.seconds = seconds
    constructor
    · intro h
      refine ⟨((h.imp le_of_lt).insertionSort_eq).symm, ?_⟩
      rw [List.dedup_eq_self.mpr (h.imp ne_of_lt)]
    · rintro ⟨hsort, hdedup⟩
      have hle : seconds.Pairwise (· ≤ ·) := hsort ▸ List.pairwise_insertionSort _ _
      have hnodup : seconds.Nodup :=
        List.dedup_eq_self.mp ((List.dedup_sublist seconds).eq_of_length hdedup)
      exact (hle.and hnodup).imp fun h => lt_of_le_of_ne h.1 h.2
  rw [hascending]
  simp only [validateCurve]
  split_ifs with hanchor hlocale hzone hsort hdedup
  · exact ⟨nofun, fun h => absurd hanchor (by rw [h.1]; decide)⟩
  · exact ⟨nofun, fun h => by rw [h.2.1] at hlocale; exact absurd hlocale.2 (by decide)⟩
  · exact ⟨nofun, fun h => absurd (hzone.symm.trans h.2.2.1) (by decide)⟩
  · exact ⟨nofun, fun h => absurd h.2.2.2.1 hsort⟩
  · exact ⟨nofun, fun h => absurd h.2.2.2.2 hdedup⟩
  · have hclock : anchor = .clock := by
      cases anchor with
      | clock => rfl
      | solarNatural | solarCustom => exact absurd (by decide) hanchor
    refine ⟨fun _ => ⟨hclock, ?_, by simpa using hzone, not_not.mp hsort, not_not.mp hdedup⟩,
      fun _ => rfl⟩
    simpa [hclock] using hlocale

/-- An accepted curve is knots in order on the circle of a day. -/
theorem onCircle {Z : Zones} {points : List SchedulePoint} {zone : Str} {anchor : Anchor}
    {locale : Option Locale} (htwo : 2 ≤ points.length)
    (h : validateCurve Z points zone anchor locale = .ok ()) :
    OnCircle daySeconds SchedulePoint.seconds points :=
  ⟨(validateCurve_iff.mp h).2.2.2, fun p _ => p.«at».seconds_range, htwo⟩

/-! ### The lookup -/

/-- The interpolation within a segment is linear. -/
theorem lerp_eq {a b : Duty} {x : ℚ} (h0 : 0 ≤ x) (h1 : x ≤ 1) :
    lerp a b x = a.1 + (b.1 - a.1) * x := by
  obtain ⟨ha0, ha1⟩ := a.2
  obtain ⟨hb0, hb1⟩ := b.2
  have hlo : 0 ≤ a.1 + (b.1 - a.1) * x := by nlinarith
  have hhi : a.1 + (b.1 - a.1) * x ≤ 1 := by nlinarith
  rw [lerp, max_eq_right hlo, min_eq_right hhi]

/-- A quotient below one is within the segment. -/
theorem divide_map_lerp {a b : Duty} {e span : ℤ} (h0 : 0 ≤ e) (hlt : e < span) :
    (divide e span).map (lerp a b) = some (a.1 + (b.1 - a.1) * (e / span)) := by
  have hspan : (0 : ℚ) < span := by exact_mod_cast h0.trans_lt hlt
  rw [divide, if_neg (by omega), Option.map_some, lerp_eq]
  · exact div_nonneg (by exact_mod_cast h0) hspan.le
  · exact (div_le_one hspan).mpr (by exact_mod_cast hlt.le)

/-- **Each branch is its segment**: the wrap, or the pair of points around the time. -/
theorem lookup_segment {points : List SchedulePoint} (hne : points ≠ [])
    (h : OnCircle daySeconds SchedulePoint.seconds points) {s : SchedulePoint × SchedulePoint}
    (hs : s ∈ cyclicPairs points) {e : ℤ} (h0 : 0 ≤ e)
    (he : e < gap daySeconds SchedulePoint.seconds s) :
    ∃ r, (r = .wrap ∨ r = .segment) ∧ lookup points hne ((s.1.seconds + e) % daySeconds) =
      (r, some (s.1.duty.1 + (s.2.duty.1 - s.1.duty.1) *
        (e / gap daySeconds SchedulePoint.seconds s))) := by
  cases points with
  | nil => cases hs
  | cons k ks =>
      have hfirst := h.bounded k List.mem_cons_self
      have hlast := h.bounded _ (List.getLast_mem (List.cons_ne_nil k ks))
      obtain hs | hs := List.mem_append.mp hs
      · -- a pair of neighbours is found by the loop, as the time is before the last point
        obtain ⟨hlo, -, hhi⟩ := adjacent_bounds h.ascending hs
        rw [h.gap_adjacent hs] at he ⊢
        have hnow : (s.1.seconds + e) % daySeconds = s.1.seconds + e :=
          Int.emod_eq_of_lt (by omega) (by omega)
        have hin : ¬(s.1.seconds + e < k.seconds ∨
            ((k :: ks).getLast (List.cons_ne_nil k ks)).seconds ≤ s.1.seconds + e) := by omega
        refine ⟨.segment, .inr rfl, ?_⟩
        rw [hnow, lookup, List.head_cons, if_neg hin, List.tail_cons,
          find_adjacent h.ascending hs (by omega) (by omega)]
        simp only [add_sub_cancel_left]
        rw [divide_map_lerp h0 he]
      · -- the segment over midnight is the first branch, on either side of it
        obtain rfl := List.mem_singleton.mp hs
        have hlt := h.first_lt_last
        rw [h.gap_wrap] at he ⊢
        simp only [daySeconds] at *
        refine ⟨.wrap, .inl rfl, ?_⟩
        rw [lookup, List.head_cons, if_pos (by omega), if_neg (by simp only [daySeconds]; omega)]
        have helapsed : ((((k :: ks).getLast (List.cons_ne_nil k ks)).seconds + e) % 86400 -
            ((k :: ks).getLast (List.cons_ne_nil k ks)).seconds) % 86400 = e := by omega
        simp only [daySeconds]
        rw [helapsed, divide_map_lerp h0 he]

/-- **One function around the day.** -/
theorem lookup_interpolates {points : List SchedulePoint} (hne : points ≠ [])
    (h : OnCircle daySeconds SchedulePoint.seconds points) :
    Interpolates daySeconds SchedulePoint.seconds (fun p => p.duty.1) points
      fun t => (lookup points hne t).2.getD 0 := by
  refine ⟨fun s hs e h0 he => ?_⟩
  obtain ⟨r, -, hr⟩ := lookup_segment hne h hs h0 he
  simp only [hr, Option.getD_some]

/-- The other two `return`s are not taken, and nothing is divided by zero. -/
theorem lookup_returns {points : List SchedulePoint} (hne : points ≠ [])
    (h : OnCircle daySeconds SchedulePoint.seconds points) (t : TimeOfDay) :
    ((lookup points hne t.seconds).1 = .wrap ∨ (lookup points hne t.seconds).1 = .segment) ∧
      (lookup points hne t.seconds).2.isSome := by
  obtain ⟨h0, hday⟩ := t.seconds_range
  obtain ⟨s, hs, e, he0, he, ht⟩ := h.covers h0 hday
  obtain ⟨r, hr, hlookup⟩ := lookup_segment hne h hs he0 he
  rw [ht, hlookup]
  exact ⟨hr, rfl⟩

/-! ### Every profile -/

variable {Z : Zones}

/-- The duty at a second of the day. -/
def ChannelProfile.dutyOn (p : ChannelProfile Z) (nowS : ℤ) : ℚ := (p.lookup nowS).2.getD 0

/-- The profile as the scheduler has it. -/
def ChannelProfile.scheduled (p : ChannelProfile Z) : ControlEngine.ChannelProfile Str where
  channelId := p.channelId
  dutyAt t := p.dutyOn (Z.localTime p.zone t).seconds

/-- The segments of a day. -/
abbrev ChannelProfile.segments (p : ChannelProfile Z) : List (SchedulePoint × SchedulePoint) :=
  cyclicPairs p.points

/-- What `duty_at` is: the piecewise linear function through the points, around the day. -/
structure ChannelProfile.Cyclic (p : ChannelProfile Z) : Prop where
  /-- It does not raise for an aware instant, and reads nothing but its local time. -/
  total : ∀ t, p.dutyAt (.aware t) = .ok (p.scheduled.dutyAt t)
  /-- It does not divide by zero or reach its last line. -/
  returns : ∀ t : TimeOfDay, ((p.lookup t.seconds).1 = .wrap ∨ (p.lookup t.seconds).1 = .segment) ∧
    (p.lookup t.seconds).2.isSome
  between : ∀ t : TimeOfDay, ∃ s ∈ p.segments,
    OnSegment daySeconds SchedulePoint.seconds s t.seconds ∧
      min s.1.duty.1 s.2.duty.1 ≤ p.dutyOn t.seconds ∧
        p.dutyOn t.seconds ≤ max s.1.duty.1 s.2.duty.1
  at_point : ∀ k ∈ p.points, p.dutyOn k.seconds = k.duty.1
  linear : ∀ s ∈ p.segments, ∀ e, 0 ≤ e → e ≤ gap daySeconds SchedulePoint.seconds s →
    p.dutyOn ((s.1.seconds + e) % daySeconds) = s.1.duty.1 +
      (s.2.duty.1 - s.1.duty.1) * (e / gap daySeconds SchedulePoint.seconds s)
  /-- From a second to the next, and from 23:59:59 to 00:00:00. -/
  step : ∀ t : TimeOfDay, ∃ s ∈ p.segments,
    OnSegment daySeconds SchedulePoint.seconds s t.seconds ∧
    |p.dutyOn ((t.seconds + 1) % daySeconds) - p.dutyOn t.seconds| =
      |slope daySeconds SchedulePoint.seconds (fun k => k.duty.1) s|

/-- Every accepted profile is a curve on the circle of a day. -/
theorem ChannelProfile.cyclic (p : ChannelProfile Z) : p.Cyclic := by
  have hcircle := onCircle p.two_points p.validate
  have hreturns := lookup_returns p.points_ne_nil hcircle
  have hinterp := lookup_interpolates p.points_ne_nil hcircle
  refine ⟨fun t => ?_, hreturns, fun t => ?_, fun k hk => hinterp.at_knot hcircle hk,
    fun s hs e h0 he => ?_, fun t => ?_⟩
  · obtain ⟨duty, hduty⟩ := Option.isSome_iff_exists.mp (hreturns (Z.localTime p.zone t)).2
    simp only [ChannelProfile.dutyAt, ChannelProfile.scheduled, ChannelProfile.dutyOn,
      ChannelProfile.lookup, hduty, Option.getD_some]
  · exact hinterp.between hcircle t.seconds_range.1 t.seconds_range.2
  · refine (hinterp.on_closed hcircle hs h0 he).trans ?_
    rw [Support.slope]
    ring
  · obtain ⟨s, hs, hon, hstep⟩ := hinterp.step hcircle t.seconds_range.1 t.seconds_range.2
    exact ⟨s, hs, hon, congrArg abs hstep⟩

/-- **Every definition makes a profile** of the same points, for every valid channel. -/
theorem fromDefinition_eq_ok {channelId : Str} (h : IsToken channelId) (d : ScheduleDefinition Z) :
    ∃ p, fromDefinition channelId d = .ok p ∧ p.channelId = channelId ∧ p.points = d.points ∧
      p.zone = d.zone := by
  have hfields : fieldPattern channelId = true ∧ 2 ≤ d.points.length :=
    ⟨fieldPattern_iff.mpr h, d.two_points⟩
  rw [fromDefinition, dif_pos hfields]
  split
  · exact ⟨_, rfl, rfl, rfl, rfl⟩
  · next e he => simp [d.validate] at he

/-- **`duty_at` is the cyclic interpolant** of every accepted curve, and every definition that is
accepted plays on every channel. -/
theorem duty_at_cyclic (Z : Zones) :
    (∀ p : ChannelProfile Z, p.Cyclic ∧
      ∀ bound, (∀ s ∈ p.segments,
          |slope daySeconds SchedulePoint.seconds (fun k => k.duty.1) s| ≤ bound) →
        ∀ t : TimeOfDay,
          |p.dutyOn ((t.seconds + 1) % daySeconds) - p.dutyOn t.seconds| ≤ bound) ∧
    ∀ channelId, IsToken channelId → ∀ d : ScheduleDefinition Z,
      ∃ p, fromDefinition channelId d = .ok p ∧ p.channelId = channelId ∧ p.points = d.points ∧
        p.zone = d.zone := by
  refine ⟨fun p => ⟨p.cyclic, fun bound hbound t => ?_⟩, fun _ => fromDefinition_eq_ok⟩
  obtain ⟨s, hs, -, hstep⟩ := p.cyclic.step t
  exact hstep.trans_le (hbound s hs)

/-! ### Two points -/

/-- A database in which every zone is there and it is always midnight. -/
def midnightZones : Zones := ⟨fun _ => true, fun _ _ => ⟨0, 0, 0⟩⟩

/-- 0.2 at 06:00 and 0.8 at 18:00. -/
def twoPoints : List SchedulePoint :=
  [⟨⟨6, 0, 0⟩, ⟨2 / 10, by norm_num, by norm_num⟩⟩, ⟨⟨18, 0, 0⟩, ⟨8 / 10, by norm_num, by norm_num⟩⟩]

/-- A schedule of two points. -/
def twoPointDefinition : ScheduleDefinition midnightZones where
  name := [65]
  zone := [85, 84, 67]
  anchor := .clock
  locale := none
  points := twoPoints
  name_length := by decide
  two_points := by decide
  validate := validateCurve_iff.mpr ⟨rfl, rfl, rfl, by decide⟩

/-- At midnight, half way along the segment that wraps. -/
theorem duty_at_midnight : ∃ p, fromDefinition [97] twoPointDefinition = .ok p ∧
    p.dutyAt (.aware 0) = .ok (1 / 2) := by
  have htoken : IsToken [97] := ⟨97, [], rfl, by decide, by simp, by decide⟩
  obtain ⟨hcyclic, hdefinition⟩ := duty_at_cyclic midnightZones
  obtain ⟨p, hp, -, hpoints, -⟩ := hdefinition [97] htoken twoPointDefinition
  refine ⟨p, hp, ((hcyclic p).1.total 0).trans (congrArg Except.ok ?_)⟩
  have hsegment : (twoPoints[1], twoPoints[0]) ∈ p.segments := by
    rw [ChannelProfile.segments, hpoints]
    exact List.mem_append_right _ (List.mem_singleton.mpr rfl)
  have hmid := (hcyclic p).1.linear _ hsegment 21600 (by decide) (by decide)
  have hgap : gap daySeconds SchedulePoint.seconds (twoPoints[1], twoPoints[0]) = 43200 := by decide
  rw [hgap] at hmid
  norm_num [twoPoints, SchedulePoint.seconds, TimeOfDay.seconds, daySeconds] at hmid
  have hzero : (midnightZones.localTime p.zone 0).seconds = 0 := by
    simp [TimeOfDay.seconds, midnightZones]
  simp only [ChannelProfile.scheduled, hzero]
  rw [hmid]

end BellasReef.ControlEngine.Profiles
