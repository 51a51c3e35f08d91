import Mathlib.Data.List.Basic

/-!
# Support — Traced

Computations that perform effects one after the other and may raise an exception in between: the
trace of what was performed, and how the computation ended.  What was performed before an
exception stays performed.

* `collect`: a loop that keeps the results of its rounds; `collect_eq` is its meaning when no
  round raises.
* `performedOn_collectIdx`: in the trace of a loop over a list, what was performed on one element is
  its own round and nothing else.
-/

namespace BellasReef.Support

/-- The effects in order, and the value or the exception. -/
structure Traced (ε E α : Type) where
  trace : List E
  result : Except ε α

namespace Traced

variable {ε E F α β : Type}

instance : Monad (Traced ε E) where
  pure a := ⟨[], .ok a⟩
  bind x f :=
    match x.result with
    | .ok a => ⟨x.trace ++ (f a).trace, (f a).result⟩
    | .error e => ⟨x.trace, .error e⟩

/-- An effect. -/
def perform (e : E) : Traced ε E Unit := ⟨[e], .ok ()⟩

/-- An exception. -/
def raise (e : ε) : Traced ε E α := ⟨[], .error e⟩

/-- `try`: the handler goes on from where the exception was raised. -/
def except (x : Traced ε E α) (handler : ε → Traced ε E α) : Traced ε E α :=
  match x.result with
  | .ok _ => x
  | .error e => ⟨x.trace ++ (handler e).trace, (handler e).result⟩

/-- The same computation, its effects under another name. -/
def mapTrace (f : E → F) (x : Traced ε E α) : Traced ε F α := ⟨x.trace.map f, x.result⟩

/-! ### What is performed -/

variable {x : Traced ε E α} {f : α → Traced ε E β} {handler : ε → Traced ε E α} {a : α} {e : ε}

@[simp]
theorem pure_eq : (pure a : Traced ε E α) = ⟨[], .ok a⟩ := rfl

@[simp]
theorem perform_bind {e : E} {f : Unit → Traced ε E β} :
    perform e >>= f = ⟨e :: (f ()).trace, (f ()).result⟩ := rfl

theorem bind_of_ok (h : x.result = .ok a) :
    x >>= f = ⟨x.trace ++ (f a).trace, (f a).result⟩ := by
  change (match x.result with | .ok a => _ | .error e => _) = _
  rw [h]

@[simp]
theorem ok_bind {t : List E} : (⟨t, .ok a⟩ : Traced ε E α) >>= f =
    ⟨t ++ (f a).trace, (f a).result⟩ := rfl

@[simp]
theorem error_bind {t : List E} : (⟨t, .error e⟩ : Traced ε E α) >>= f = ⟨t, .error e⟩ := rfl

@[simp]
theorem except_ok {t : List E} : except (⟨t, .ok a⟩ : Traced ε E α) handler = ⟨t, .ok a⟩ := rfl

@[simp]
theorem except_error {t : List E} : except (⟨t, .error e⟩ : Traced ε E α) handler =
    ⟨t ++ (handler e).trace, (handler e).result⟩ := rfl

@[simp]
theorem raise_eq : (raise e : Traced ε E α) = ⟨[], .error e⟩ := rfl

/-! ### Loops -/

/-- `for a in as`, the results of the rounds that have one kept in order. -/
def collect (f : α → Traced ε E (Option β)) : List α → Traced ε E (List β)
  | [] => pure []
  | a :: as => do
      let b ← f a
      let bs ← collect f as
      pure (b.toList ++ bs)

/-- **A loop no round of which raises** performs its rounds one after the other. -/
theorem collect_eq {f : α → Traced ε E (Option β)} {g : α → Option β}
    (h : ∀ a, (f a).result = .ok (g a)) (as : List α) :
    collect f as = ⟨as.flatMap fun a => (f a).trace, .ok (as.filterMap g)⟩ := by
  induction as with
  | nil => rfl
  | cons a as ih =>
      rw [collect, bind_of_ok (h a), ih]
      cases hg : g a <;> simp [hg]

/-- The effects on the element at a position, among effects tagged with positions. -/
def performedOn (i : ℕ) (t : List (ℕ × E)) : List E :=
  t.filterMap fun p => if p.1 = i then some p.2 else none

theorem performedOn_append (i : ℕ) (t u : List (ℕ × E)) :
    performedOn i (t ++ u) = performedOn i t ++ performedOn i u :=
  List.filterMap_append

theorem performedOn_map (i j : ℕ) (t : List E) :
    performedOn i (t.map (Prod.mk j)) = if j = i then t else [] := by
  induction t with
  | nil => simp [performedOn]
  | cons e t ih => by_cases h : j = i <;> simp_all [performedOn]

theorem performedOn_rounds (g : α → List E) (as : List α) (k i : ℕ) :
    performedOn i ((as.zipIdx k).flatMap fun p => (g p.1).map (Prod.mk p.2)) =
      if k ≤ i then (as[i - k]?.map g).getD [] else [] := by
  induction as generalizing k with
  | nil => simp [performedOn]
  | cons a as ih =>
      rw [List.zipIdx_cons, List.flatMap_cons, performedOn_append, performedOn_map, ih]
      obtain h | rfl | h := Nat.lt_trichotomy k i
      · rw [if_neg (by omega), if_pos (Nat.succ_le_of_lt h), if_pos (by omega),
          show i - k = i - (k + 1) + 1 by omega]
        rfl
      · rw [if_pos rfl, if_neg (by omega), if_pos (Nat.le_refl k), Nat.sub_self]
        simp
      · rw [if_neg (by omega), if_neg (by omega), if_neg (by omega)]
        rfl

/-- The loop over a list, each round's effects tagged with the position of its element. -/
def collectIdx (f : α → Traced ε E (Option β)) (as : List α) : Traced ε (ℕ × E) (List β) :=
  collect (fun p => (f p.1).mapTrace (Prod.mk p.2)) as.zipIdx

variable {f : α → Traced ε E (Option β)} {g : α → Option β} {as : List α} {i : ℕ}

theorem collectIdx_eq (h : ∀ a, (f a).result = .ok (g a)) :
    collectIdx f as = ⟨as.zipIdx.flatMap fun p => (f p.1).trace.map (Prod.mk p.2),
      .ok (as.filterMap g)⟩ := by
  have hmap : as.zipIdx.filterMap (fun p => g p.1) = (as.zipIdx.map Prod.fst).filterMap g :=
    List.filterMap_map.symm
  rw [List.zipIdx_map_fst] at hmap
  rw [← hmap]
  exact collect_eq (f := fun p : α × ℕ => (f p.1).mapTrace (Prod.mk p.2)) (fun p => h p.1) _

/-- **Each element has its own round.** -/
theorem performedOn_collectIdx (h : ∀ a, (f a).result = .ok (g a)) (ha : as[i]? = some a) :
    performedOn i (collectIdx f as).trace = (f a).trace := by
  rw [collectIdx_eq h]
  refine (performedOn_rounds (fun a => (f a).trace) as 0 i).trans ?_
  simp [ha]

end Traced

end BellasReef.Support
