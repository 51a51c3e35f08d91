import Mathlib.Data.List.Forall2
import Mathlib.Tactic.Common

/-!
# Support — Except

When a computation that may fail gives a value, and when it gives an error.
-/

namespace BellasReef.Support

variable {ε ε' α β : Type} {x : Except ε α}

theorem bind_eq_ok {f : α → Except ε β} {b : β} :
    (x >>= f) = .ok b ↔ ∃ a, x = .ok a ∧ f a = .ok b := by
  cases x with
  | error e => exact ⟨nofun, fun ⟨_, h, _⟩ => nomatch h⟩
  | ok a => exact ⟨fun h => ⟨a, rfl, h⟩, fun ⟨_, h, hf⟩ => by cases h; exact hf⟩

theorem bind_eq_error {f : α → Except ε β} {e : ε} :
    (x >>= f) = .error e ↔ x = .error e ∨ ∃ a, x = .ok a ∧ f a = .error e := by
  cases x with
  | error e' => exact ⟨fun h => by cases h; exact .inl rfl, fun h => by
      rcases h with h | ⟨_, h, _⟩ <;> cases h; rfl⟩
  | ok a => exact ⟨fun h => .inr ⟨a, rfl, h⟩, fun h => by
      rcases h with h | ⟨_, h, hf⟩ <;> cases h; exact hf⟩

theorem mapError_eq_ok {f : ε → ε'} {a : α} : x.mapError f = .ok a ↔ x = .ok a := by
  cases x <;> simp [Except.mapError]

theorem mapError_eq_error {f : ε → ε'} {e' : ε'} :
    x.mapError f = .error e' ↔ ∃ e, x = .error e ∧ f e = e' := by
  cases x <;> simp [Except.mapError]

/-- A list worked off, element by element. -/
theorem mapM_eq_ok {f : α → Except ε β} {l : List α} {r : List β} :
    l.mapM f = .ok r ↔ List.Forall₂ (fun a b => f a = .ok b) l r := by
  induction l generalizing r with
  | nil =>
      rw [List.mapM_nil, List.forall₂_nil_left_iff]
      constructor
      · intro h
        cases h
        rfl
      · rintro rfl
        rfl
  | cons a l ih =>
      rw [List.mapM_cons, List.forall₂_cons_left_iff, bind_eq_ok]
      constructor
      · rintro ⟨b, hb, h⟩
        obtain ⟨bs, hbs, h⟩ := bind_eq_ok.mp h
        cases h
        exact ⟨b, bs, hb, ih.mp hbs, rfl⟩
      · rintro ⟨b, bs, hb, hbs, rfl⟩
        exact ⟨b, hb, bind_eq_ok.mpr ⟨bs, ih.mpr hbs, rfl⟩⟩

/-- A list each of whose elements can be worked off. -/
theorem exists_mapM_eq_ok {f : α → Except ε β} {l : List α} (h : ∀ a ∈ l, ∃ b, f a = .ok b) :
    ∃ r, l.mapM f = .ok r := by
  induction l with
  | nil => exact ⟨[], rfl⟩
  | cons a l ih =>
      obtain ⟨⟨b, hb⟩, hl⟩ := List.forall_mem_cons.mp h
      obtain ⟨bs, hbs⟩ := ih hl
      exact ⟨b :: bs, mapM_eq_ok.mpr (.cons hb (mapM_eq_ok.mp hbs))⟩

theorem map_some_eq_ok {a : α} : some <$> x = .ok (some a) ↔ x = .ok a := by
  cases x with
  | error e =>
      constructor <;> intro h <;> cases h
  | ok b =>
      constructor <;> intro h <;> cases h <;> rfl

end BellasReef.Support
