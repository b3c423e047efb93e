import Mathlib.Data.List.Forall2
import Mathlib.Data.List.Nodup

/-!
# Looking up by a key

What a list holds under a key, where keys occur once (`find?_eq_some_iff_of_nodup`)
and where something is added, removed or replaced under another key; and what a
list holds in the place of something in another (`exists_mem_zip_of_forall₂`) or
under the keys of another (`map_append_perm_iff`).
-/

namespace MetricLayer

theorem find?_eq_some_iff_of_nodup {α β : Type} [BEq β] [LawfulBEq β] {f : α → β} {xs : List α}
    {id : β} {x : α} (h : (xs.map f).Nodup) :
    xs.find? (fun y => f y == id) = some x ↔ x ∈ xs ∧ f x = id := by
  constructor
  · intro hx
    exact ⟨List.mem_of_find?_eq_some hx, by simpa using List.find?_some hx⟩
  · rintro ⟨hmem, rfl⟩
    obtain ⟨y, hy⟩ : ∃ y, xs.find? (fun y => f y == f x) = some y :=
      Option.isSome_iff_exists.1 (List.find?_isSome.2 ⟨x, hmem, by simp⟩)
    have heq : f y = f x := by simpa using List.find?_some hy
    rw [hy, List.inj_on_of_nodup_map h (List.mem_of_find?_eq_some hy) hmem heq]

theorem find?_append_of_ne {α : Type} {f : α → String} {xs : List α} {x : α} {n : String}
    (h : n ≠ f x) : (xs ++ [x]).find? (fun y => f y == n) = xs.find? (fun y => f y == n) := by
  rw [List.find?_append, List.find?_singleton, if_neg (by simpa using h.symm), Option.or_none]

theorem find?_filter_of_ne {α : Type} {f : α → String} {xs : List α} {id n : String}
    (h : n ≠ id) :
    (xs.filter fun y => f y != id).find? (fun y => f y == n) = xs.find? (fun y => f y == n) := by
  rw [List.find?_filter]
  congr 1
  funext y
  by_cases hy : f y = n
  · simp [hy, h]
  · simp [hy]

theorem mem_map_filter_of_ne {α : Type} {f : α → String} {xs : List α} {id n : String}
    (h : n ≠ id) (hn : n ∈ xs.map f) : n ∈ (xs.filter fun y => f y != id).map f := by
  obtain ⟨x, hx, rfl⟩ := List.mem_map.1 hn
  exact List.mem_map_of_mem (List.mem_filter.2 ⟨hx, by simpa using h⟩)

/-- What is removed under a key that does not occur. -/
theorem filter_ne_eq_self {α : Type} {f : α → String} {xs : List α} {id : String}
    (h : id ∉ xs.map f) : (xs.filter fun y => f y != id) = xs := by
  refine List.filter_eq_self.2 fun x hx => ?_
  simpa using fun heq : f x = id => h (heq ▸ List.mem_map_of_mem hx)

theorem find?_map_of_ne {α : Type} {f : α → String} {xs : List α} {x : α} {n : String}
    (h : n ≠ f x) : (xs.map fun y => if f y == f x then x else y).find? (fun y => f y == n) =
      xs.find? (fun y => f y == n) := by
  induction xs with
  | nil => rfl
  | cons y ys ih =>
    rw [List.map_cons, List.find?_cons, List.find?_cons, ih]
    by_cases hy : f y = f x
    · have hx : (f x == n) = false := by simpa using h.symm
      simp [hy, hx]
    · simp [hy]

/-- What stands beside `x` in a list that matches another. -/
theorem exists_mem_zip_of_forall₂ {α β : Type} {R : α → β → Prop} {xs : List α} {ys : List β}
    (h : List.Forall₂ R xs ys) {x : α} (hx : x ∈ xs) : ∃ y, R x y ∧ (y, x) ∈ ys.zip xs := by
  induction h with
  | nil => simp at hx
  | cons hxy _ ih =>
    rcases List.mem_cons.1 hx with rfl | hx
    · exact ⟨_, hxy, List.mem_cons_self⟩
    · obtain ⟨y, hy, hmem⟩ := ih hx
      exact ⟨y, hy, List.mem_cons_of_mem _ hmem⟩

/-- Lists under keys of one length tell the keys and what is under them apart. -/
theorem map_append_perm_iff {α : Type} {keys keys' : List (List α)} {f g : List α → List α}
    {n : Nat} (hkeys : keys.Perm keys') (hlength : ∀ key ∈ keys, key.length = n) :
    (keys.map fun key => key ++ f key).Perm (keys'.map fun key => key ++ g key) ↔
      ∀ key ∈ keys, f key = g key := by
  constructor
  · intro hperm key hkey
    have hmem : key ++ f key ∈ keys'.map fun key => key ++ g key :=
      hperm.mem_iff.1 (List.mem_map_of_mem hkey)
    obtain ⟨key', hkey', heq⟩ := List.mem_map.1 hmem
    have hlengths := (hlength key' (hkeys.mem_iff.2 hkey')).trans (hlength key hkey).symm
    obtain ⟨rfl, hvalues⟩ := List.append_inj heq hlengths
    exact hvalues.symm
  · intro hvalues
    refine .trans (List.Perm.of_eq (List.map_congr_left fun key hkey => ?_)) (hkeys.map _)
    rw [hvalues key hkey]

end MetricLayer
