import Mathlib.Data.List.Chain

/-!
# Support — Trigger

A trigger with two thresholds: what trips it does not reset it.  Its edges alternate
(`edges_chain`), and it is on when something has tripped it and nothing has reset it since
(`after_iff`).  Two triggers, each of which is reset by what trips the other, are never on together
(`not_both`).
-/

namespace BellasReef.Support

variable {α : Type*}

/-- A condition that trips, and one that resets: never both. -/
structure Trigger (α : Type*) where
  trips : α → Bool
  resets : α → Bool
  exclusive : ∀ a, trips a = true → resets a = false

namespace Trigger

variable (T U : Trigger α) (on : Bool) (a : α) (as : List α)

/-- The edge at `a`, if there is one: on or off. -/
def fires : Option Bool :=
  if on then (if T.resets a then some false else none) else (if T.trips a then some true else none)

/-- What the trigger is after it has seen `a`. -/
def next : Bool := (T.fires on a).getD on

/-- Whether it is on, once all have passed. -/
def after : Bool := as.foldl T.next on

/-- The edges, each with what made it. -/
def edges : Bool → List α → List (Bool × α)
  | _, [] => []
  | on, a :: as => ((T.fires on a).map (·, a)).toList ++ edges (T.next on a) as

variable {T U on a as}

theorem next_eq_true : T.next on a = true ↔ T.trips a = true ∨ on = true ∧ T.resets a = false := by
  have hexcl := T.exclusive a
  cases on <;> cases ht : T.trips a <;> cases hr : T.resets a <;> simp_all [next, fires]

/-- **It is on when something has tripped it**, with nothing since to reset it. -/
theorem after_iff :
    T.after on as = true ↔ (on = true ∧ ∀ b ∈ as, T.resets b = false) ∨
      ∃ before a later, as = before ++ a :: later ∧ T.trips a = true ∧
        ∀ b ∈ later, T.resets b = false := by
  induction as generalizing on with
  | nil => simp [after]
  | cons a as ih =>
      have hcons : T.after on (a :: as) = T.after (T.next on a) as := rfl
      rw [hcons, ih, next_eq_true]
      constructor
      · rintro (⟨htrips | ⟨hon, hreset⟩, hlater⟩ | ⟨before, b, later, rfl, hb⟩)
        · exact .inr ⟨[], a, as, rfl, htrips, hlater⟩
        · exact .inl ⟨hon, List.forall_mem_cons.mpr ⟨hreset, hlater⟩⟩
        · exact .inr ⟨a :: before, b, later, rfl, hb⟩
      · rintro (⟨hon, hreset⟩ | ⟨before, b, later, heq, hb⟩)
        · obtain ⟨ha, hlater⟩ := List.forall_mem_cons.mp hreset
          exact .inl ⟨.inr ⟨hon, ha⟩, hlater⟩
        · cases before with
          | nil =>
              obtain ⟨rfl, rfl⟩ := List.cons.inj heq
              exact .inl ⟨.inl hb.1, hb.2⟩
          | cons c before =>
              obtain ⟨rfl, rfl⟩ := List.cons.inj heq
              exact .inr ⟨before, b, later, rfl, hb⟩

theorem fires_eq_some {edge : Bool} (h : T.fires on a = some edge) :
    edge = !on ∧ (edge = true → T.trips a = true) ∧ (edge = false → T.resets a = true) := by
  cases on <;> simp [fires] at h <;> simp [h]

theorem next_of_fires {edge : Bool} (h : T.fires on a = some edge) : T.next on a = edge := by
  rw [next, h, Option.getD_some]

/-- The first edge turns it over. -/
theorem fst_of_head? {e : Bool × α} (h : (T.edges on as).head? = some e) : e.1 = !on := by
  induction as generalizing on with
  | nil => simp [edges] at h
  | cons a as ih =>
      cases hf : T.fires on a with
      | none =>
          simp only [edges, next, hf] at h
          exact ih h
      | some edge =>
          simp only [edges, hf, Option.map_some, Option.toList_some, List.singleton_append,
            List.head?_cons, Option.some.injEq] at h
          obtain rfl := h
          exact (fires_eq_some hf).1

/-- **The edges alternate.** -/
theorem edges_chain : (T.edges on as).IsChain fun e e' => e'.1 = !e.1 := by
  induction as generalizing on with
  | nil => simp [edges]
  | cons a as ih =>
      cases hf : T.fires on a with
      | none => simpa [edges, hf] using ih
      | some edge =>
          simp only [edges, hf, Option.map_some, Option.toList_some, List.singleton_append]
          refine List.isChain_cons.mpr ⟨fun e he => ?_, ih⟩
          exact (fst_of_head? he).trans (by rw [next_of_fires hf])

theorem mem_edges {e : Bool × α} (h : e ∈ T.edges on as) :
    e.2 ∈ as ∧ (e.1 = true → T.trips e.2 = true) ∧ (e.1 = false → T.resets e.2 = true) := by
  induction as generalizing on with
  | nil => simp [edges] at h
  | cons a as ih =>
      obtain h | h := List.mem_append.mp h
      · cases hf : T.fires on a with
        | none => simp [hf] at h
        | some edge =>
            simp only [hf, Option.map_some, Option.toList_some, List.mem_singleton] at h
            obtain rfl := h
            exact ⟨List.mem_cons_self, (fires_eq_some hf).2⟩
      · obtain ⟨hmem, hedge⟩ := ih h
        exact ⟨List.mem_cons_of_mem a hmem, hedge⟩

/-- **Two that reset each other** are never on together. -/
theorem not_both (hTU : ∀ a, T.trips a = true → U.resets a = true)
    (hUT : ∀ a, U.trips a = true → T.resets a = true) {x y : Bool} (h : ¬(x = true ∧ y = true)) :
    ¬(T.after x as = true ∧ U.after y as = true) := by
  induction as generalizing x y with
  | nil => exact h
  | cons a as ih =>
      refine ih fun ⟨hT, hU⟩ => ?_
      obtain hT | ⟨hx, hT⟩ := next_eq_true.mp hT
      · obtain hU | ⟨-, hU⟩ := next_eq_true.mp hU
        · exact absurd (hTU a hT) (by simp [U.exclusive a hU])
        · exact absurd (hTU a hT) (by simp [hU])
      · obtain hU | ⟨hy, -⟩ := next_eq_true.mp hU
        · exact absurd (hUT a hU) (by simp [hT])
        · exact h ⟨hx, hy⟩

end Trigger

end BellasReef.Support
