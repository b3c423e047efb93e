import Mathlib.Data.List.Lattice

/-!
# First occurrences

A list without its repetitions keeps each element in the place where it occurs first
(`pairwise_idxOf_eraseDups`). Repetitions may be left out before elements are filtered
or lists put together, or after (`eraseDups_filter`, `eraseDups_append_congr`,
`eraseDups_flatMap_congr`).
-/

namespace MetricLayer

/-- Repetitions are left out from the front: those of the first element, then those of
what is left. -/
@[elab_as_elim]
theorem eraseDups_induction {motive : List String → Prop} (nil : motive [])
    (cons : ∀ x xs, motive (xs.filter fun y => !y == x) → motive (x :: xs)) (xs : List String) :
    motive xs := by
  induction hn : xs.length using Nat.strongRecOn generalizing xs with
  | _ n ih =>
  cases xs with
  | nil => exact nil
  | cons x xs =>
    refine cons x xs (ih _ ?_ _ rfl)
    rw [← hn, List.length_cons]
    exact Nat.lt_succ_of_le (List.length_filter_le _ _)

theorem idxOf_lt_of_filter {p : String → Bool} {x y : String} {xs : List String} (hx : p x = true)
    (hy : p y = true) (h : (xs.filter p).idxOf x < (xs.filter p).idxOf y) :
    xs.idxOf x < xs.idxOf y := by
  induction xs with
  | nil => simp at h
  | cons z zs ih =>
    by_cases hzy : z = y
    · subst hzy
      simp [hy] at h
    rw [List.idxOf_cons_ne zs hzy]
    by_cases hzx : z = x
    · subst hzx
      simp
    rw [List.idxOf_cons_ne zs hzx, Nat.succ_lt_succ_iff]
    refine ih ?_
    by_cases hz : p z = true
    · rw [List.filter_cons_of_pos hz, List.idxOf_cons_ne _ hzx, List.idxOf_cons_ne _ hzy] at h
      exact Nat.lt_of_succ_lt_succ h
    · rwa [List.filter_cons_of_neg hz] at h

/-- Without its repetitions a list has each element in the place of its first
occurrence. -/
theorem pairwise_idxOf_eraseDups (xs : List String) :
    xs.eraseDups.Pairwise fun x y => xs.idxOf x < xs.idxOf y := by
  induction xs using eraseDups_induction with
  | nil => simp
  | cons x xs ih =>
    have hother {y : String} (hy : y ∈ (xs.filter fun y => !y == x).eraseDups) : (!y == x) = true :=
      (List.mem_filter.1 (List.mem_eraseDups.1 hy)).2
    have hne {y : String} (hy : y ∈ (xs.filter fun y => !y == x).eraseDups) : x ≠ y := by
      rintro rfl
      simpa using hother hy
    rw [List.eraseDups_cons, List.pairwise_cons]
    refine ⟨fun y hy => ?_, ih.imp_of_mem fun {a b} ha hb hab => ?_⟩
    · rw [List.idxOf_cons_self, List.idxOf_cons_ne xs (hne hy)]
      exact Nat.succ_pos _
    · rw [List.idxOf_cons_ne xs (hne ha), List.idxOf_cons_ne xs (hne hb)]
      exact Nat.succ_lt_succ (idxOf_lt_of_filter (hother ha) (hother hb) hab)

theorem eraseDups_filter (p : String → Bool) (xs : List String) :
    (xs.filter p).eraseDups = xs.eraseDups.filter p := by
  induction xs using eraseDups_induction with
  | nil => rfl
  | cons x xs ih =>
    rw [List.eraseDups_cons]
    by_cases hx : p x = true
    · rw [List.filter_cons_of_pos hx, List.filter_cons_of_pos hx, List.eraseDups_cons, ← ih,
        List.filter_filter, List.filter_filter]
      simp only [Bool.and_comm]
    · rw [List.filter_cons_of_neg hx, List.filter_cons_of_neg hx, ← ih, List.filter_filter]
      refine congrArg _ (List.filter_congr fun y _ => ?_)
      by_cases hy : y = x
      · simp [hy, hx]
      · simp [hy]

theorem eraseDups_eraseDups (xs : List String) : xs.eraseDups.eraseDups = xs.eraseDups := by
  induction xs using eraseDups_induction with
  | nil => rfl
  | cons x xs ih =>
    rw [List.eraseDups_cons, List.eraseDups_cons, ← eraseDups_filter, List.filter_filter]
    simp only [Bool.and_self, ih]

theorem eraseDups_append_congr {xs xs' ys ys' : List String} (hxs : xs.eraseDups = xs'.eraseDups)
    (hys : ys.eraseDups = ys'.eraseDups) : (xs ++ ys).eraseDups = (xs' ++ ys').eraseDups := by
  have hmem (y : String) : xs.elem y = xs'.elem y := by
    rw [Bool.eq_iff_iff, List.elem_iff, List.elem_iff, ← List.mem_eraseDups, hxs,
      List.mem_eraseDups]
  simp only [List.eraseDups_append, List.removeAll, eraseDups_filter, hxs, hys, hmem]

theorem eraseDups_flatMap_congr {α : Type} {f g : α → List String} {xs : List α}
    (h : ∀ x ∈ xs, (f x).eraseDups = (g x).eraseDups) :
    (xs.flatMap f).eraseDups = (xs.flatMap g).eraseDups := by
  induction xs with
  | nil => rfl
  | cons x xs ih =>
    rw [List.flatMap_cons, List.flatMap_cons]
    exact eraseDups_append_congr (h x List.mem_cons_self)
      (ih fun y hy => h y (List.mem_cons_of_mem _ hy))

end MetricLayer
