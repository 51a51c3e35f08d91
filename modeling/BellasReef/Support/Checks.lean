import Mathlib.Data.List.Basic

/-!
# Support — Checks

The conditions of CHECK constraints, in SQL's three values.

A comparison that reads a null column is unknown, and a row passes a check that is unknown.  The
plain reading takes such a comparison for false.

* `holds_iff_of_value`: where a condition has a value, the plain reading has the same.
* `decided`: each comparison is behind what shows its columns not null; `passes_iff_holds`: then to
  pass is to hold.
-/

namespace BellasReef.Support.Checks

/-- Conditions on columns `κ`, with comparisons `τ`. -/
inductive Cond (κ τ : Type*) where
  /-- `c IS NULL`. -/
  | isNull (c : κ)
  | test (t : τ)
  | not (e : Cond κ τ)
  | and (e e' : Cond κ τ)
  | or (e e' : Cond κ τ)

/-- What a row has: the columns that are null, and what a comparison comes to where none is. -/
structure Valuation (κ τ : Type*) where
  null : κ → Bool
  test : τ → Bool

/-- `AND`, of three values. -/
def conj : Option Bool → Option Bool → Option Bool
  | some false, _ => some false
  | _, some false => some false
  | some true, some true => some true
  | _, _ => none

/-- `OR`, of three values. -/
def disj : Option Bool → Option Bool → Option Bool
  | some true, _ => some true
  | _, some true => some true
  | some false, some false => some false
  | _, _ => none

namespace Cond
variable {κ τ : Type*}

/-- `c IS NOT NULL`. -/
def notNull (c : κ) : Cond κ τ := .not (.isNull c)

/-- `c IS DISTINCT FROM v`, of the comparison `c = v`. -/
def isDistinct (c : κ) (t : τ) : Cond κ τ := .or (.isNull c) (.not (.test t))

/-- `c IS TRUE`, of the comparison that is `c`. -/
def isTrue (c : κ) (t : τ) : Cond κ τ := .and (.notNull c) (.test t)

variable (reads : τ → List κ) (r : Valuation κ τ)

/-- The value of a condition; `none` is unknown. -/
def value : Cond κ τ → Option Bool
  | isNull c => some (r.null c)
  | test t => if (reads t).any r.null then none else some (r.test t)
  | not e => e.value.map Bool.not
  | and e e' => conj e.value e'.value
  | or e e' => disj e.value e'.value

/-- A row is turned down by a check that is false, and by no other. -/
def passes (e : Cond κ τ) : Bool := e.value reads r != some false

/-- The plain reading. -/
def Holds : Cond κ τ → Prop
  | isNull c => r.null c = true
  | test t => (∀ c ∈ reads t, r.null c = false) ∧ r.test t = true
  | not e => ¬ e.Holds
  | and e e' => e.Holds ∧ e'.Holds
  | or e e' => e.Holds ∨ e'.Holds

/-- Columns that are not null where the condition has this value. -/
def shows : Bool → Cond κ τ → List κ
  | true, isNull _ => []
  | false, isNull c => [c]
  | _, test t => reads t
  | b, not e => shows (!b) e
  | true, and e e' => shows true e ++ shows true e'
  | false, and _ _ => []
  | true, or _ _ => []
  | false, or e e' => shows false e ++ shows false e'

/-- From left to right, every comparison reads columns that are known not to be null. -/
def decided [DecidableEq κ] : List κ → Cond κ τ → Bool
  | _, isNull _ => true
  | known, test t => (reads t).all (· ∈ known)
  | known, not e => decided known e
  | known, and e e' => decided known e && decided (known ++ e.shows reads true) e'
  | known, or e e' => decided known e && decided (known ++ e.shows reads false) e'

variable {reads r} {e e' : Cond κ τ} {b : Bool} {c : κ} {t : τ}

@[simp]
theorem holds_isNull : (Cond.isNull c).Holds reads r ↔ r.null c = true := Iff.rfl

@[simp]
theorem holds_notNull : (Cond.notNull c).Holds reads r ↔ ¬ r.null c = true := Iff.rfl

@[simp]
theorem holds_not : e.not.Holds reads r ↔ ¬ e.Holds reads r := Iff.rfl

@[simp]
theorem holds_and : (e.and e').Holds reads r ↔ e.Holds reads r ∧ e'.Holds reads r := Iff.rfl

@[simp]
theorem holds_or : (e.or e').Holds reads r ↔ e.Holds reads r ∨ e'.Holds reads r := Iff.rfl

theorem conj_eq_true {x y : Option Bool} :
    conj x y = some true ↔ x = some true ∧ y = some true := by
  rcases x with _ | _ | _ <;> rcases y with _ | _ | _ <;> simp [conj]

theorem conj_eq_false {x y : Option Bool} :
    conj x y = some false ↔ x = some false ∨ y = some false := by
  rcases x with _ | _ | _ <;> rcases y with _ | _ | _ <;> simp [conj]

theorem disj_eq_true {x y : Option Bool} :
    disj x y = some true ↔ x = some true ∨ y = some true := by
  rcases x with _ | _ | _ <;> rcases y with _ | _ | _ <;> simp [disj]

theorem disj_eq_false {x y : Option Bool} :
    disj x y = some false ↔ x = some false ∧ y = some false := by
  rcases x with _ | _ | _ <;> rcases y with _ | _ | _ <;> simp [disj]

theorem value_test_eq_some :
    (Cond.test t).value reads r = some b ↔ (∀ c ∈ reads t, r.null c = false) ∧ r.test t = b := by
  rw [value]
  split
  · next h =>
      obtain ⟨c, hc, hnull⟩ := List.any_eq_true.mp h
      constructor
      · intro hb
        cases hb
      · rintro ⟨hall, -⟩
        rw [hall c hc] at hnull
        cases hnull
  · next h =>
      rw [Option.some.injEq]
      refine (and_iff_right fun c hc => ?_).symm
      by_contra hnull
      exact h (List.any_eq_true.mpr ⟨c, hc, by simpa using hnull⟩)

theorem value_not_eq_some : (Cond.not e).value reads r = some b ↔ e.value reads r = some (!b) := by
  rw [value, Option.map_eq_some_iff]
  constructor
  · rintro ⟨x, hx, rfl⟩
    rw [hx, Bool.not_not]
  · intro h
    exact ⟨!b, h, Bool.not_not b⟩

/-- A value is the plain reading's. -/
theorem holds_iff_of_value (h : e.value reads r = some b) : e.Holds reads r ↔ b = true := by
  induction e generalizing b with
  | isNull c =>
      obtain rfl := Option.some.inj h
      rfl
  | test t =>
      obtain ⟨hnull, rfl⟩ := value_test_eq_some.mp h
      exact and_iff_right hnull
  | not e ih =>
      rw [Holds, ih (value_not_eq_some.mp h)]
      cases b <;> simp
  | and e e' ih ih' =>
      rw [Holds]
      cases b with
      | true =>
          obtain ⟨hl, hr⟩ := conj_eq_true.mp h
          exact iff_of_true ⟨(ih hl).mpr rfl, (ih' hr).mpr rfl⟩ rfl
      | false =>
          refine iff_of_false ?_ Bool.false_ne_true
          rintro ⟨hl, hr⟩
          obtain hv | hv := conj_eq_false.mp h
          · exact Bool.false_ne_true ((ih hv).mp hl)
          · exact Bool.false_ne_true ((ih' hv).mp hr)
  | or e e' ih ih' =>
      rw [Holds]
      cases b with
      | true =>
          refine iff_of_true ?_ rfl
          obtain hv | hv := disj_eq_true.mp h
          · exact .inl ((ih hv).mpr rfl)
          · exact .inr ((ih' hv).mpr rfl)
      | false =>
          obtain ⟨hl, hr⟩ := disj_eq_false.mp h
          refine iff_of_false ?_ Bool.false_ne_true
          rintro (hv | hv)
          · exact Bool.false_ne_true ((ih hl).mp hv)
          · exact Bool.false_ne_true ((ih' hr).mp hv)

/-- What holds passes. -/
theorem passes_of_holds (h : e.Holds reads r) : e.passes reads r = true := by
  rw [passes, bne_iff_ne]
  intro hv
  exact Bool.false_ne_true ((holds_iff_of_value hv).mp h)

theorem null_of_shows (h : e.value reads r = some b) (hc : c ∈ e.shows reads b) :
    r.null c = false := by
  induction e generalizing b with
  | isNull c' =>
      cases b with
      | true => cases hc
      | false =>
          obtain rfl := List.mem_singleton.mp hc
          exact Option.some.inj h
  | test t =>
      have hmem : c ∈ reads t := by
        cases b <;> exact hc
      exact (value_test_eq_some.mp h).1 c hmem
  | not e ih =>
      have hmem : c ∈ e.shows reads (!b) := by
        cases b <;> exact hc
      exact ih (value_not_eq_some.mp h) hmem
  | and e e' ih ih' =>
      cases b with
      | true =>
          obtain ⟨hl, hr⟩ := conj_eq_true.mp h
          obtain hc | hc := List.mem_append.mp hc
          · exact ih hl hc
          · exact ih' hr hc
      | false => cases hc
  | or e e' ih ih' =>
      cases b with
      | true => cases hc
      | false =>
          obtain ⟨hl, hr⟩ := disj_eq_false.mp h
          obtain hc | hc := List.mem_append.mp hc
          · exact ih hl hc
          · exact ih' hr hc

theorem null_append {known : List κ} (hknown : ∀ c ∈ known, r.null c = false)
    (hv : e.value reads r = some b) :
    ∀ c ∈ known ++ e.shows reads b, r.null c = false := by
  intro c hc
  obtain hc | hc := List.mem_append.mp hc
  · exact hknown c hc
  · exact null_of_shows hv hc

section Decided
variable [DecidableEq κ] {known : List κ}

/-- A condition that is decided has a value. -/
theorem value_of_decided (hknown : ∀ c ∈ known, r.null c = false)
    (h : e.decided reads known = true) : ∃ b, e.value reads r = some b := by
  induction e generalizing known with
  | isNull c => exact ⟨r.null c, rfl⟩
  | test t =>
      rw [decided, List.all_eq_true] at h
      exact ⟨r.test t, value_test_eq_some.mpr
        ⟨fun c hc => hknown c (of_decide_eq_true (h c hc)), rfl⟩⟩
  | not e ih =>
      obtain ⟨b, hb⟩ := ih hknown h
      exact ⟨!b, value_not_eq_some.mpr (by rwa [Bool.not_not])⟩
  | and e e' ih ih' =>
      rw [decided, Bool.and_eq_true] at h
      obtain ⟨b, hb⟩ := ih hknown h.1
      cases b with
      | false => exact ⟨false, conj_eq_false.mpr (.inl hb)⟩
      | true =>
          -- only then is the right side looked at
          obtain ⟨b', hb'⟩ := ih' (null_append hknown hb) h.2
          exact ⟨b', by rw [value, hb, hb']; cases b' <;> rfl⟩
  | or e e' ih ih' =>
      rw [decided, Bool.and_eq_true] at h
      obtain ⟨b, hb⟩ := ih hknown h.1
      cases b with
      | true => exact ⟨true, disj_eq_true.mpr (.inl hb)⟩
      | false =>
          obtain ⟨b', hb'⟩ := ih' (null_append hknown hb) h.2
          exact ⟨b', by rw [value, hb, hb']; cases b' <;> rfl⟩

/-- A row passes a decided check just where the plain reading holds. -/
theorem passes_iff_holds (hknown : ∀ c ∈ known, r.null c = false)
    (h : e.decided reads known = true) : e.passes reads r = true ↔ e.Holds reads r := by
  refine ⟨fun hp => ?_, passes_of_holds⟩
  obtain ⟨b, hb⟩ := value_of_decided hknown h
  rw [holds_iff_of_value hb]
  rw [passes, bne_iff_ne, hb] at hp
  cases b with
  | true => rfl
  | false => exact absurd rfl hp

end Decided

end Cond

end BellasReef.Support.Checks
