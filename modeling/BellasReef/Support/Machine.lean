import Mathlib.Algebra.GroupWithZero.Nat
import Mathlib.Data.List.Basic
import Mathlib.Logic.Function.Basic

/-!
# Support — Machine

A machine takes a state and an action to at most one state.  An interleaving of concurrent
tasks is a list of actions, and its runs are the machine's runs: `Run`.  A run whose every step
meets a condition on the state it leaves and the action it takes is a `RunIf`.

* `RunIf.invariant`: what every step preserves holds at the end of the run.
* `RunIf.keeps`: what an invariant gives at each step is a condition that each step meets, too.
* `RunIf.of_not_bad`: where breaking a condition leaves a trace, a run without one met it.
* `RunIf.congr`: two conditions that agree at every step of a run have the same runs.
* `execIf` and `exec` evaluate a run; `execIf_eq_some` and `exec_eq_some` are their meaning.
* `ghost` adds a state that each step computes and no step reads: `ghost_preserves` is how an
  invariant of both is proved, and `ghost_run` says that it changes no run.
-/

namespace BellasReef.Support

/-- An action is refused in a state, or leads to one state. -/
structure Machine (σ α : Type*) where
  step : σ → α → Option σ

namespace Machine

variable {σ α γ : Type*} (M : Machine σ α)

/-- The runs whose every step meets `C`. -/
inductive RunIf (C : σ → α → Prop) : σ → List α → σ → Prop where
  | refl (s : σ) : RunIf C s [] s
  | more {s s₁ s' : σ} {a : α} {as : List α} (hC : C s a) (h : M.step s a = some s₁)
      (t : RunIf C s₁ as s') : RunIf C s (a :: as) s'

/-- Every run. -/
abbrev Run : σ → List α → σ → Prop := M.RunIf fun _ _ => True

/-- A run whose every step meets `C`, evaluated. -/
def execIf (C : σ → α → Prop) [∀ s a, Decidable (C s a)] : σ → List α → Option σ
  | s, [] => some s
  | s, a :: as => if C s a then (M.step s a).bind fun s₁ => execIf C s₁ as else none

/-- A run, evaluated. -/
abbrev exec : σ → List α → Option σ := M.execIf fun _ _ => True

variable {M} {C D : σ → α → Prop} {s s₁ s' : σ} {a : α} {as bs : List α}

/-- A step has one outcome. -/
theorem forall_step {P : σ → Prop} (h : M.step s a = some s') :
    (∀ s'', M.step s a = some s'' → P s'') ↔ P s' := by
  refine ⟨fun hP => hP s' h, fun hP s'' hs => ?_⟩
  obtain rfl := Option.some.inj (h.symm.trans hs)
  exact hP

namespace RunIf

theorem one (hC : C s a) (h : M.step s a = some s') : M.RunIf C s [a] s' :=
  .more hC h (.refl _)

theorem append (h₁ : M.RunIf C s as s₁) (h₂ : M.RunIf C s₁ bs s') :
    M.RunIf C s (as ++ bs) s' := by
  induction h₁ with
  | refl => exact h₂
  | more hC h _ ih => exact .more hC h (ih h₂)

/-- A run, and one more step. -/
theorem snoc (h₁ : M.RunIf C s as s₁) (hC : C s₁ a) (h : M.step s₁ a = some s') :
    M.RunIf C s (as ++ [a]) s' :=
  h₁.append (.one hC h)

theorem mono (hCD : ∀ s a, C s a → D s a) (h : M.RunIf C s as s') : M.RunIf D s as s' := by
  induction h with
  | refl => exact .refl _
  | more hC h _ ih => exact .more (hCD _ _ hC) h ih

theorem toRun (h : M.RunIf C s as s') : M.Run s as s' :=
  h.mono fun _ _ _ => trivial

/-- **Invariants.**  What every step that meets `C` preserves holds at the end of the run. -/
theorem invariant {I : σ → Prop} (h : M.RunIf C s as s') (h₀ : I s)
    (hstep : ∀ s a s', C s a → I s → M.step s a = some s' → I s') : I s' := by
  induction h with
  | refl => exact h₀
  | more hC h _ ih => exact ih (hstep _ _ _ hC h₀ h)

/-- What a condition and an invariant give at each step holds at each step of the run. -/
theorem keeps {I : σ → Prop} (h : M.RunIf C s as s') (h₀ : I s)
    (hstep : ∀ s a s', C s a → I s → M.step s a = some s' → I s')
    (hD : ∀ s a s', C s a → I s → M.step s a = some s' → D s a) : M.RunIf D s as s' := by
  induction h with
  | refl => exact .refl _
  | more hC h _ ih => exact .more (hD _ _ _ hC h₀ h) h (ih (hstep _ _ _ hC h₀ h))

/-- An invariant of every step but those of the actions in `A`, along a run that takes none. -/
theorem invariant_avoiding {I : σ → Prop} {A : α → Prop} (h : M.RunIf C s as s')
    (hA : ∀ a ∈ as, ¬ A a) (h₀ : I s)
    (hstep : ∀ s a s', ¬ A a → C s a → I s → M.step s a = some s' → I s') : I s' := by
  induction h with
  | refl => exact h₀
  | more hC h _ ih =>
      refine ih (fun a ha => hA a (List.mem_cons_of_mem _ ha)) ?_
      exact hstep _ _ _ (hA _ List.mem_cons_self) hC h₀ h

/-- Conditions that agree where an invariant holds have the same runs, if they keep it. -/
theorem congr {I : σ → Prop} (h₀ : I s)
    (hstep : ∀ s a s', C s a → I s → M.step s a = some s' → I s')
    (hCD : ∀ s a s', I s → M.step s a = some s' → (C s a ↔ D s a)) :
    M.RunIf C s as s' ↔ M.RunIf D s as s' := by
  induction as generalizing s with
  | nil => constructor <;> (intro h; cases h; exact .refl _)
  | cons a as ih =>
      constructor
      · intro h
        cases h with
        | more hC h t => exact .more ((hCD _ _ _ h₀ h).mp hC) h ((ih (hstep _ _ _ hC h₀ h)).mp t)
      · intro h
        cases h with
        | more hD h t =>
            have hC := (hCD _ _ _ h₀ h).mpr hD
            exact .more hC h ((ih (hstep _ _ _ hC h₀ h)).mpr t)

/-- A run that does not end badly met the condition all along, if to break it is to go bad and
what has gone bad stays so. -/
theorem of_not_bad {I B : σ → Prop} (h : M.Run s as s') (h₀ : I s)
    (hgood : ∀ s a s', C s a → I s → M.step s a = some s' → I s')
    (hbad : ∀ s a s', ¬ C s a → I s → M.step s a = some s' → B s')
    (hstay : ∀ s a s', B s → M.step s a = some s' → B s') (hend : ¬ B s') :
    M.RunIf C s as s' := by
  induction h with
  | refl => exact .refl _
  | @more s s₁ s' a as _ hs t ih =>
      by_cases hC : C s a
      · exact .more hC hs (ih (hgood _ _ _ hC h₀ hs) hend)
      · exact absurd (t.invariant (hbad _ _ _ hC h₀ hs) fun _ _ _ _ hb hs => hstay _ _ _ hb hs) hend

end RunIf

theorem execIf_eq_some [∀ s a, Decidable (C s a)] :
    M.execIf C s as = some s' ↔ M.RunIf C s as s' := by
  induction as generalizing s with
  | nil =>
      refine ⟨?_, ?_⟩
      · rintro ⟨⟩; exact .refl _
      · rintro ⟨⟩; rfl
  | cons a as ih =>
      refine ⟨fun h => ?_, fun h => ?_⟩
      · rw [execIf] at h
        split at h
        · next hC =>
            obtain ⟨s₁, h, t⟩ := Option.bind_eq_some_iff.mp h
            exact .more hC h (ih.mp t)
        · cases h
      · cases h with
        | more hC h t => rw [execIf, if_pos hC, h]; exact ih.mpr t

theorem exec_eq_some : M.exec s as = some s' ↔ M.Run s as s' := execIf_eq_some

/-! ### Ghost state -/

/-- `M` with a ghost state: `g` computes it from each step, and no step reads it. -/
def ghost (M : Machine σ α) (g : σ → α → σ → γ → γ) : Machine (σ × γ) α where
  step := fun p a => (M.step p.1 a).map fun s' => (s', g p.1 a s' p.2)

theorem ghost_step {g : σ → α → σ → γ → γ} {p q : σ × γ} :
    (M.ghost g).step p a = some q ↔ M.step p.1 a = some q.1 ∧ q.2 = g p.1 a q.1 p.2 := by
  simp only [ghost, Option.map_eq_some_iff]
  constructor
  · rintro ⟨s', h, rfl⟩; exact ⟨h, rfl⟩
  · rintro ⟨h, e⟩; exact ⟨q.1, h, Prod.ext rfl e.symm⟩

/-- To preserve an invariant of a state and its ghost, follow the machine's own step. -/
theorem ghost_preserves {g : σ → α → σ → γ → γ} {C : σ × γ → α → Prop} {I : σ × γ → Prop}
    (hstep : ∀ s c a s', C (s, c) a → I (s, c) → M.step s a = some s' → I (s', g s a s' c))
    (p : σ × γ) (a : α) (q : σ × γ) (hC : C p a) (hI : I p) (h : (M.ghost g).step p a = some q) :
    I q := by
  obtain ⟨s, c⟩ := p
  obtain ⟨s', c'⟩ := q
  obtain ⟨hs, hc⟩ := ghost_step.mp h
  obtain rfl : c' = g s a s' c := hc
  exact hstep s c a s' hC hI hs

/-- A ghost state changes no run: each run of the machine is the first half of one with it. -/
theorem ghost_run {g : σ → α → σ → γ → γ} (c : γ) :
    M.Run s as s' ↔ ∃ c', (M.ghost g).Run (s, c) as (s', c') := by
  constructor
  · intro h
    induction h generalizing c with
    | refl => exact ⟨c, .refl _⟩
    | @more s s₁ s' a as _ h _ ih =>
        obtain ⟨c', t⟩ := ih (g s a s₁ c)
        exact ⟨c', .more trivial (ghost_step.mpr ⟨h, rfl⟩) t⟩
  · rintro ⟨c', h⟩
    generalize hp : (s, c) = p at h
    generalize hq : (s', c') = q at h
    induction h generalizing s c with
    | refl => cases hp; cases hq; exact .refl _
    | more _ h _ ih =>
        subst hp
        exact .more trivial (ghost_step.mp h).1 (ih _ rfl hq)

end Machine

/-! ### The names of a few calls

The concrete runs of a development name their calls by the numerals of `Fin 3` and `Fin 4`.
-/

instance neZeroThree : NeZero 3 := inferInstance

instance neZeroFour : NeZero 4 := inferInstance

end BellasReef.Support
