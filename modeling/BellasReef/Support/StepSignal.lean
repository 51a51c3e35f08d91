import Mathlib.Data.List.MinMax
import Mathlib.MeasureTheory.Integral.IntervalIntegral.Basic

/-!
# Support — StepSignal

A signal that holds a sample's value until the next one: `InForce` says which value it has at an
instant, and `stepSignal` is the function of real time.  A stretch of it is tiled by segments, each
a length and a value (`Tiles`).

* `Tiles.integral`: the integral over a stretch is the sum over its tiles.
* `Tiles.isLeast`, `Tiles.isGreatest`: the extremes of what it holds for some time are those of
  the tiles.
* `HeldFor.split`: what it holds for some time, it does on one of any pieces that cover the stretch.
-/

namespace BellasReef.Support

/-! ### The signal -/

/-- The last sample with this time. -/
def lastAt (samples : List (ℚ × ℚ)) (τ : ℚ) : Option ℚ :=
  ((samples.filter fun s => s.1 = τ).getLast?).map Prod.snd

/-- The value of the latest sample at `t` or before. -/
def InForce (samples : List (ℚ × ℚ)) (t : ℝ) (v : ℚ) : Prop :=
  ∃ τ : ℚ, τ ≤ t ∧ lastAt samples τ = some v ∧ ∀ s ∈ samples, (s.1 : ℝ) ≤ t → s.1 ≤ τ

open Classical in
/-- The signal; zero before the first sample, where it has no value. -/
noncomputable def stepSignal (samples : List (ℚ × ℚ)) (t : ℝ) : ℝ :=
  if h : ∃ v, InForce samples t v then (h.choose : ℝ) else 0

variable {samples : List (ℚ × ℚ)} {t : ℝ} {v w τ : ℚ}

theorem mem_of_lastAt (h : lastAt samples τ = some v) : (τ, v) ∈ samples := by
  obtain ⟨s, hs, rfl⟩ := Option.map_eq_some_iff.mp h
  have hmem := List.mem_filter.mp (List.mem_of_getLast? hs)
  obtain rfl := of_decide_eq_true hmem.2
  exact hmem.1

theorem lastAt_isSome {s : ℚ × ℚ} (h : s ∈ samples) : ∃ v, lastAt samples s.1 = some v := by
  have hmem : s ∈ samples.filter fun s' => s'.1 = s.1 :=
    List.mem_filter.mpr ⟨h, decide_eq_true rfl⟩
  obtain ⟨last, hlast⟩ := Option.isSome_iff_exists.mp
    (List.getLast?_isSome.mpr (List.ne_nil_of_mem hmem))
  exact ⟨last.2, by rw [lastAt, hlast]; rfl⟩

theorem InForce.unique (h : InForce samples t v) (h' : InForce samples t w) : v = w := by
  obtain ⟨τ, hτ, hv, hlast⟩ := h
  obtain ⟨τ', hτ', hw, hlast'⟩ := h'
  have : τ = τ' := le_antisymm (hlast' _ (mem_of_lastAt hv) hτ) (hlast _ (mem_of_lastAt hw) hτ')
  subst this
  exact Option.some.inj (hv.symm.trans hw)

theorem stepSignal_eq (h : InForce samples t v) : stepSignal samples t = v := by
  have hex : ∃ v, InForce samples t v := ⟨v, h⟩
  rw [stepSignal, dif_pos hex, hex.choose_spec.unique h]

/-! ### Tiles -/

/-- Segments one after the other from `a` to `b`, each with its length and its one value. -/
inductive Tiles (F : ℝ → ℚ → Prop) : ℚ → ℚ → List (ℚ × ℚ) → Prop where
  | nil (a : ℚ) : Tiles F a a []
  | cons {a m b v : ℚ} {segs : List (ℚ × ℚ)} (hlt : a < m)
      (hv : ∀ x : ℝ, a ≤ x → x < m → F x v) (t : Tiles F m b segs) :
      Tiles F a b ((m - a, v) :: segs)

/-- The value `v` for some time between `a` and `b`. -/
def HeldFor (F : ℝ → ℚ → Prop) (a b v : ℚ) : Prop :=
  ∃ x y : ℝ, a ≤ x ∧ x < y ∧ y ≤ b ∧ ∀ z, x ≤ z → z < y → F z v

variable {F : ℝ → ℚ → Prop} {a b m : ℚ} {segs : List (ℚ × ℚ)}

theorem HeldFor.mono {a' b' : ℚ} (h : HeldFor F a b v) (ha : a' ≤ a) (hb : b ≤ b') :
    HeldFor F a' b' v := by
  obtain ⟨x, y, hax, hxy, hyb, hv⟩ := h
  exact ⟨x, y, le_trans (by exact_mod_cast ha) hax, hxy, le_trans hyb (by exact_mod_cast hb), hv⟩

/-- **On one of the pieces** that cover the stretch. -/
theorem HeldFor.split {P : ℚ × ℚ → Prop} (h : HeldFor F a b v)
    (hcover : ∀ x : ℝ, a ≤ x → x < b → ∃ p, P p ∧ p.1 ≤ x ∧ x < p.2) :
    ∃ p, P p ∧ HeldFor F p.1 p.2 v := by
  obtain ⟨x, y, hax, hxy, hyb, hv⟩ := h
  obtain ⟨p, hp, hpx, hxp⟩ := hcover x hax (hxy.trans_le hyb)
  refine ⟨p, hp, x, min y p.2, hpx, lt_min hxy hxp, min_le_right _ _, fun z hz hzy => ?_⟩
  exact hv z hz (hzy.trans_le (min_le_left _ _))

namespace Tiles

theorem le (h : Tiles F a b segs) : a ≤ b := by
  induction h with
  | nil => exact le_rfl
  | cons hlt _ _ ih => exact hlt.le.trans ih

theorem pos (h : Tiles F a b segs) : ∀ s ∈ segs, 0 < s.1 := by
  induction h with
  | nil => exact nofun
  | cons hlt _ _ ih => exact List.forall_mem_cons.mpr ⟨sub_pos.mpr hlt, ih⟩

theorem total (h : Tiles F a b segs) : (segs.map Prod.fst).sum = b - a := by
  induction h with
  | nil => simp
  | cons _ _ _ ih => simp [ih]

/-- Every instant is in a tile. -/
theorem covers (h : Tiles F a b segs) {x : ℝ} (ha : a ≤ x) (hb : x < b) :
    ∃ s ∈ segs, F x s.2 := by
  induction h with
  | nil => exact absurd hb (not_lt.mpr ha)
  | @cons a m b v segs _ hv _ ih =>
      obtain hm | hm := lt_or_ge x m
      · exact ⟨_, List.mem_cons_self, hv x ha hm⟩
      · obtain ⟨s, hs, hF⟩ := ih hm hb
        exact ⟨s, List.mem_cons_of_mem _ hs, hF⟩

/-- Every tile is held for its length. -/
theorem held (h : Tiles F a b segs) : ∀ s ∈ segs, HeldFor F a b s.2 := by
  induction h with
  | nil => exact nofun
  | @cons a m b v segs hlt hv t ih =>
      refine List.forall_mem_cons.mpr ⟨?_, fun s hs => (ih s hs).mono hlt.le le_rfl⟩
      exact ⟨a, m, le_rfl, by exact_mod_cast hlt, by exact_mod_cast t.le, hv⟩

theorem mem_of_held (hF : ∀ x v w, F x v → F x w → v = w) (h : Tiles F a b segs)
    (hv : HeldFor F a b v) : v ∈ segs.map Prod.snd := by
  obtain ⟨x, y, hax, hxy, hyb, hv⟩ := hv
  obtain ⟨s, hs, hs'⟩ := h.covers hax (hxy.trans_le hyb)
  exact List.mem_map.mpr ⟨s, hs, hF x _ _ hs' (hv x le_rfl hxy)⟩

/-- **The integral is the sum.** -/
theorem integral (h : Tiles F a b segs) {f : ℝ → ℝ} (hf : ∀ x v, F x v → f x = v) :
    IntervalIntegrable f MeasureTheory.volume a b ∧
      ∫ x in (a : ℝ)..b, f x = (((segs.map fun s => s.1 * s.2).sum : ℚ) : ℝ) := by
  induction h with
  | nil => simp
  | @cons a m b v segs hlt hv t ih =>
      have hlt : (a : ℝ) < m := by exact_mod_cast hlt
      have heq : Set.EqOn f (fun _ => (v : ℝ)) (Set.Ioo a m) :=
        fun x hx => hf x v (hv x hx.1.le hx.2)
      have hint : IntervalIntegrable f MeasureTheory.volume a m :=
        (intervalIntegrable_const (c := (v : ℝ))).congr_uIoo
          (by rw [Set.uIoo_of_le hlt.le]; exact heq.symm)
      have hpiece : ∫ x in (a : ℝ)..m, f x = (m - a) * v := by
        rw [intervalIntegral.integral_congr_Ioo_of_le hlt.le heq, intervalIntegral.integral_const,
          smul_eq_mul]
      refine ⟨hint.trans ih.1, ?_⟩
      rw [← intervalIntegral.integral_add_adjacent_intervals hint ih.1, hpiece, ih.2]
      push_cast [List.map_cons, List.sum_cons]
      ring

/-! ### Extremes -/

theorem isLeast (hF : ∀ x v w, F x v → F x w → v = w) (h : Tiles F a b segs)
    (hmin : (segs.map Prod.snd).min? = some v) : IsLeast {v | HeldFor F a b v} v := by
  obtain ⟨hmem, hle⟩ := List.min?_eq_some_iff.mp hmin
  obtain ⟨s, hs, rfl⟩ := List.mem_map.mp hmem
  exact ⟨h.held s hs, fun w hw => hle w (h.mem_of_held hF hw)⟩

theorem isGreatest (hF : ∀ x v w, F x v → F x w → v = w) (h : Tiles F a b segs)
    (hmax : (segs.map Prod.snd).max? = some v) : IsGreatest {v | HeldFor F a b v} v := by
  obtain ⟨hmem, hle⟩ := List.max?_eq_some_iff.mp hmax
  obtain ⟨s, hs, rfl⟩ := List.mem_map.mp hmem
  exact ⟨h.held s hs, fun w hw => hle w (h.mem_of_held hF hw)⟩

end Tiles

/-- The least of what several sets hold is the least of their least elements. -/
theorem isLeast_image {ι α : Type*} [PartialOrder α] {S : Set ι} {A : ι → Set α} {f : ι → α} {x : α}
    (hA : ∀ i ∈ S, IsLeast (A i) (f i)) (h : IsLeast {y | ∃ i ∈ S, y ∈ A i} x) :
    IsLeast (f '' S) x := by
  obtain ⟨⟨i, hi, hmem⟩, hle⟩ := h
  have heq : f i = x := le_antisymm ((hA i hi).2 hmem) (hle ⟨i, hi, (hA i hi).1⟩)
  refine ⟨⟨i, hi, heq⟩, ?_⟩
  rintro _ ⟨j, hj, rfl⟩
  exact hle ⟨j, hj, (hA j hj).1⟩

theorem isGreatest_image {ι α : Type*} [PartialOrder α] {S : Set ι} {A : ι → Set α} {f : ι → α}
    {x : α} (hA : ∀ i ∈ S, IsGreatest (A i) (f i)) (h : IsGreatest {y | ∃ i ∈ S, y ∈ A i} x) :
    IsGreatest (f '' S) x :=
  @isLeast_image ι αᵒᵈ _ S A f x hA h

/-- A weighted sum is no more than the weight of its greatest value, and no less than the weight
of its least. -/
theorem weighted_le {segs : List (ℚ × ℚ)} (hpos : ∀ s ∈ segs, 0 < s.1) (hle : ∀ s ∈ segs, s.2 ≤ v) :
    (segs.map fun s => s.1 * s.2).sum ≤ v * (segs.map Prod.fst).sum := by
  rw [← List.sum_map_mul_left]
  refine List.sum_le_sum fun s hs => ?_
  rw [mul_comm v]
  exact mul_le_mul_of_nonneg_left (hle s hs) (hpos s hs).le

theorem le_weighted {segs : List (ℚ × ℚ)} (hpos : ∀ s ∈ segs, 0 < s.1) (hle : ∀ s ∈ segs, v ≤ s.2) :
    v * (segs.map Prod.fst).sum ≤ (segs.map fun s => s.1 * s.2).sum := by
  rw [← List.sum_map_mul_left]
  refine List.sum_le_sum fun s hs => ?_
  rw [mul_comm v]
  exact mul_le_mul_of_nonneg_left (hle s hs) (hpos s hs).le

end BellasReef.Support
