import Mathlib.Data.List.Sort
import Mathlib.Data.String.Basic
import MetricLayer.Text.Order

/-!
# Sorted sets

`sortedSet xs` is the one strictly increasing list with the elements of `xs`
(`mem_sortedSet`, `pairwise_sortedSet`, `sortedSet_eq_iff`), so a sorted list
without repetition is its own sorted set (`sortedSet_of_pairwise`).
-/

namespace MetricLayer

variable {α : Type} [LT α] [DecidableLT α] [IsStrictTotalOrder α (· < ·)]

@[simp] theorem mem_insertSorted {x y : α} {xs : List α} :
    y ∈ insertSorted x xs ↔ y = x ∨ y ∈ xs := by
  induction xs with
  | nil => simp [insertSorted]
  | cons z zs ih =>
    rw [insertSorted]
    split
    · simp
    · rename_i hxz
      split
      · simp only [List.mem_cons, ih]
        tauto
      · rename_i hzx
        obtain rfl : x = z := by
          rcases trichotomous_of (· < ·) x z with h | h | h
          · exact absurd h hxz
          · exact h
          · exact absurd h hzx
        simp

@[simp] theorem mem_sortedSet {y : α} {xs : List α} : y ∈ sortedSet xs ↔ y ∈ xs := by
  induction xs with
  | nil => simp [sortedSet]
  | cons x xs ih => simpa [sortedSet] using or_congr_right ih

theorem pairwise_insertSorted {x : α} {xs : List α} (h : xs.Pairwise (· < ·)) :
    (insertSorted x xs).Pairwise (· < ·) := by
  induction xs with
  | nil => simp [insertSorted]
  | cons z zs ih =>
    rw [List.pairwise_cons] at h
    rw [insertSorted]
    split
    · rename_i hxz
      refine List.pairwise_cons.2 ⟨fun y hy => ?_, List.pairwise_cons.2 h⟩
      rcases List.mem_cons.1 hy with rfl | hy
      · exact hxz
      · exact trans_of (· < ·) hxz (h.1 y hy)
    · split
      · rename_i hzx
        refine List.pairwise_cons.2 ⟨fun y hy => ?_, ih h.2⟩
        rcases mem_insertSorted.1 hy with rfl | hy
        · exact hzx
        · exact h.1 y hy
      · exact List.pairwise_cons.2 h

theorem pairwise_sortedSet (xs : List α) : (sortedSet xs).Pairwise (· < ·) := by
  induction xs with
  | nil => exact List.Pairwise.nil
  | cons x xs ih => exact pairwise_insertSorted ih

omit [DecidableLT α] in
theorem nodup_of_pairwise_lt {xs : List α} (h : xs.Pairwise (· < ·)) : xs.Nodup :=
  h.imp fun {a b} hlt (heq : a = b) => irrefl_of (· < ·) a (heq ▸ hlt)

theorem nodup_sortedSet (xs : List α) : (sortedSet xs).Nodup :=
  nodup_of_pairwise_lt (pairwise_sortedSet xs)

theorem sortedSet_eq_iff {xs ys : List α} :
    sortedSet xs = sortedSet ys ↔ ∀ x, x ∈ xs ↔ x ∈ ys := by
  constructor
  · intro h x
    rw [← mem_sortedSet, h, mem_sortedSet]
  · intro h
    exact (pairwise_sortedSet xs).eq_of_mem_iff (pairwise_sortedSet ys) fun x => by
      rw [mem_sortedSet, mem_sortedSet, h]

theorem sortedSet_of_pairwise {xs : List α} (h : xs.Pairwise (· < ·)) : sortedSet xs = xs :=
  (pairwise_sortedSet xs).eq_of_mem_iff h fun _ => mem_sortedSet

/-- A set of a list without repetition is as long as the list. -/
theorem length_sortedSet_of_nodup {xs : List α} (h : xs.Nodup) :
    (sortedSet xs).length = xs.length :=
  ((List.perm_ext_iff_of_nodup (nodup_sortedSet xs) h).2 fun _ => mem_sortedSet).length_eq

end MetricLayer
