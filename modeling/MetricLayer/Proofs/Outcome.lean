import Mathlib.Data.List.Forall2
import MetricLayer.Warehouse.Work

/-!
# Outcomes step by step

A computation that may fail is taken apart at its binds: one that has succeeded
by `Except.bind_eq_ok`, an action on a state by `Action.run_bind`.
-/

namespace MetricLayer

theorem Except.bind_eq_ok {ε α β : Type} {x : Except ε α} {f : α → Except ε β} {b : β} :
    x.bind f = .ok b ↔ ∃ a, x = .ok a ∧ f a = .ok b := by
  cases x <;> simp [Except.bind]

theorem Except.bind_eq_error {ε α β : Type} {x : Except ε α} {f : α → Except ε β} {e : ε} :
    x.bind f = .error e ↔ x = .error e ∨ ∃ a, x = .ok a ∧ f a = .error e := by
  cases x <;> simp [Except.bind]

theorem Except.mapError_eq_ok {ε ε' α : Type} {x : Except ε α} {f : ε → ε'} {a : α} :
    x.mapError f = .ok a ↔ x = .ok a := by
  cases x <;> simp [Except.mapError]

theorem Except.mapError_eq_error {ε ε' α : Type} {x : Except ε α} {f : ε → ε'} {e : ε'} :
    x.mapError f = .error e ↔ ∃ e', x = .error e' ∧ f e' = e := by
  cases x <;> simp [Except.mapError]

/-- The error of a computation that has failed. -/
def Except.error? {ε α : Type} : Except ε α → Option ε
  | .error e => some e
  | .ok _ => none

theorem Except.error?_eq_some {ε α : Type} {x : Except ε α} {e : ε} :
    Except.error? x = some e ↔ x = .error e := by
  cases x <;> simp [Except.error?]

theorem Except.exists_of_toBool {ε α : Type} {x : Except ε α} (h : x.toBool = true) :
    ∃ a, x = .ok a := by
  cases x with
  | error _ => cases h
  | ok a => exact ⟨a, rfl⟩

theorem Except.exists_of_any {ε α : Type} {x : Except ε α} {p : α → Bool}
    (h : x.toOption.any p = true) : ∃ a, x = .ok a ∧ p a = true := by
  cases x with
  | error _ => cases h
  | ok a => exact ⟨a, rfl, h⟩

/-- A list of steps has succeeded where each of them has. -/
theorem Except.mapM_eq_ok {ε α β : Type} {f : α → Except ε β} {xs : List α} {ys : List β} :
    xs.mapM f = .ok ys ↔ List.Forall₂ (fun x y => f x = .ok y) xs ys := by
  induction xs generalizing ys with
  | nil =>
    rw [List.mapM_nil, List.forall₂_nil_left_iff]
    exact ⟨fun h => (Except.ok.inj h).symm, fun h => h ▸ rfl⟩
  | cons x xs ih =>
    rw [List.mapM_cons, List.forall₂_cons_left_iff]
    simp only [bind, Except.bind_eq_ok, ih]
    constructor
    · rintro ⟨y, hy, rest, hrest, h⟩
      exact ⟨y, rest, hy, hrest, (Except.ok.inj h).symm⟩
    · rintro ⟨y, rest, hy, hrest, rfl⟩
      exact ⟨y, hy, rest, hrest, rfl⟩

/-- A list of steps fails where one of them does. -/
theorem Except.exists_of_mapM_eq_error {ε α β : Type} {f : α → Except ε β} {xs : List α} {e : ε}
    (h : xs.mapM f = .error e) : ∃ x ∈ xs, f x = .error e := by
  induction xs with
  | nil => cases h
  | cons x xs ih =>
    rw [List.mapM_cons] at h
    simp only [bind, Except.bind_eq_error] at h
    rcases h with hx | ⟨y, -, hrest | ⟨ys, -, h⟩⟩
    · exact ⟨x, List.mem_cons_self, hx⟩
    · obtain ⟨x', hx', hfail⟩ := ih hrest
      exact ⟨x', List.mem_cons_of_mem _ hx', hfail⟩
    · cases h

/-- A fold that collects keys and refuses those it has seen succeeds on new keys, each
once. -/
theorem Except.foldlM_seen_eq_ok_iff {ε α κ : Type} (key : α → κ) (P : α → Prop)
    {step : List κ → α → Except ε (List κ)}
    (hstep : ∀ seen x seen', step seen x = .ok seen' ↔ P x ∧ key x ∉ seen ∧ seen' = key x :: seen)
    {xs : List α} {seen keys : List κ} : xs.foldlM step seen = .ok keys ↔
      (∀ x ∈ xs, P x) ∧ keys = (xs.map key).reverse ++ seen ∧ (xs.map key).Nodup ∧
        ∀ x ∈ xs, key x ∉ seen := by
  induction xs generalizing seen with
  | nil =>
    have hkeys : (pure seen : Except ε (List κ)) = .ok keys ↔ keys = seen :=
      ⟨fun h => (Except.ok.inj h).symm, fun h => h ▸ rfl⟩
    simp [hkeys]
  | cons x rest ih =>
    rw [List.foldlM_cons, List.forall_mem_cons, List.forall_mem_cons, List.map_cons,
      List.reverse_cons, List.append_assoc, List.singleton_append, List.nodup_cons]
    simp only [bind, Except.bind_eq_ok, hstep, ih]
    constructor
    · rintro ⟨_, ⟨hx, hnew, rfl⟩, hrest, rfl, hnodup, hseen⟩
      simp only [List.mem_cons, not_or] at hseen
      refine ⟨⟨hx, hrest⟩, rfl, ⟨fun hmem => ?_, hnodup⟩, hnew, fun y hy => (hseen y hy).2⟩
      obtain ⟨y, hy, hkey⟩ := List.mem_map.1 hmem
      exact (hseen y hy).1 hkey
    · rintro ⟨⟨hx, hrest⟩, rfl, ⟨hne, hnodup⟩, hnew, hseen⟩
      refine ⟨_, ⟨hx, hnew, rfl⟩, hrest, rfl, hnodup, fun y hy => ?_⟩
      rw [List.mem_cons, not_or]
      exact ⟨fun hkey => hne (hkey ▸ List.mem_map_of_mem hy), hseen y hy⟩

namespace Action

variable {σ α β : Type}

theorem run_bind (step : Action σ α) (f : α → Action σ β) (s : σ) :
    (step >>= f).run s = match step.run s with
      | (.ok a, s) => (f a).run s
      | (.error e, s) => (.error e, s) := by
  change (ExceptT.bindCont f (step.run s).1).run (step.run s).2 = _
  rcases step.run s with ⟨result, s'⟩
  cases result <;> rfl

@[simp] theorem run_pure (a : α) (s : σ) : (pure a : Action σ α).run s = (.ok a, s) := rfl

@[simp] theorem run_throw (e : Error) (s : σ) : (throw e : Action σ α).run s = (.error e, s) := rfl

@[simp] theorem run_get (s : σ) : (get : Action σ σ).run s = (.ok s, s) := rfl

@[simp] theorem run_set (s s' : σ) : (set s' : Action σ PUnit).run s = (.ok ⟨⟩, s') := rfl

@[simp] theorem run_lift (result : Except Error α) (s : σ) :
    (liftM result : Action σ α).run s = (result, s) := by
  cases result <;> rfl

end Action

end MetricLayer
