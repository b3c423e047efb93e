import Mathlib.Data.Finset.Card
import Mathlib.Data.List.Dedup
import Mathlib.Logic.Function.Basic

/-!
# Groups of rows

`groupsBy key rows` are the rows of each value of a key. Groups of a finer key
are those of a coarser one if and only if there are as many of them
(`length_groupsBy_eq_iff`), and rows that are left out by whole groups can be
left out before grouping (`filter_groupsBy_perm`).
-/

namespace MetricLayer

variable {α β γ : Type} [DecidableEq β] [DecidableEq γ]

def groupsBy (key : α → β) (rows : List α) : List (List α) :=
  (rows.map key).dedup.map fun k => rows.filter fun row => key row = k

variable {key : α → β} {coarse : α → γ} {rows : List α}

theorem mem_groupsBy {group : List α} :
    group ∈ groupsBy key rows ↔
      ∃ x ∈ rows, group = rows.filter fun row => key row = key x := by
  simp only [groupsBy, List.mem_map, List.mem_dedup]
  constructor
  · rintro ⟨_, ⟨x, hx, rfl⟩, rfl⟩
    exact ⟨x, hx, rfl⟩
  · rintro ⟨x, hx, rfl⟩
    exact ⟨_, ⟨x, hx, rfl⟩, rfl⟩

/-- A group holds the row that it is the group of. -/
theorem mem_group (key : α → β) {x : α} (hx : x ∈ rows) :
    x ∈ rows.filter fun row => key row = key x := by
  simp [hx]

theorem groupsBy_eq_nil_iff : groupsBy key rows = [] ↔ rows = [] := by
  rw [groupsBy, List.map_eq_nil_iff, List.dedup_eq_nil, List.map_eq_nil_iff]

theorem nodup_groupsBy : (groupsBy key rows).Nodup := by
  refine List.Nodup.map_on ?_ (List.nodup_dedup _)
  intro k hk k' _ h
  obtain ⟨x, hx, rfl⟩ := List.mem_map.1 (List.mem_dedup.1 hk)
  have := h ▸ mem_group key hx
  simpa using (List.mem_filter.1 this).2

theorem groupsBy_of_forall_eq {k : β} (hrows : rows ≠ []) (h : ∀ x ∈ rows, key x = k) :
    groupsBy key rows = [rows] := by
  have hkeys : (rows.map key).dedup = [k] := by
    rw [List.map_congr_left h, List.map_const', List.replicate_dedup]
    simpa using hrows
  rw [groupsBy, hkeys, List.map_singleton, List.filter_eq_self.2]
  simpa using h

theorem flatten_filter_perm {keys : List β} (h : keys.Nodup) :
    (keys.map fun k => rows.filter fun row => key row = k).flatten.Perm
      (rows.filter fun row => key row ∈ keys) := by
  induction keys with
  | nil => simp
  | cons k keys ih =>
    obtain ⟨hk, hkeys⟩ := List.nodup_cons.1 h
    have hsplit := List.filter_append_perm (fun row => decide (key row = k))
      (rows.filter fun row => key row ∈ k :: keys)
    have hhead : (rows.filter fun row => key row ∈ k :: keys).filter
        (fun row => decide (key row = k)) = rows.filter fun row => key row = k := by
      rw [List.filter_filter]
      exact List.filter_congr fun row _ => by by_cases hrow : key row = k <;> simp [hrow]
    have htail : (rows.filter fun row => key row ∈ k :: keys).filter
        (fun row => !decide (key row = k)) = rows.filter fun row => key row ∈ keys := by
      rw [List.filter_filter]
      exact List.filter_congr fun row _ => by by_cases hrow : key row = k <;> simp [hrow, hk]
    rw [hhead, htail] at hsplit
    rw [List.map_cons, List.flatten_cons]
    exact ((ih hkeys).append_left _).trans hsplit

/-- Every row is in one of the groups. -/
theorem flatten_groupsBy_perm : (groupsBy key rows).flatten.Perm rows := by
  refine (flatten_filter_perm (List.nodup_dedup _)).trans (List.Perm.of_eq ?_)
  exact List.filter_eq_self.2 fun row hrow =>
    decide_eq_true (List.mem_dedup.2 (List.mem_map_of_mem hrow))

theorem groupsBy_perm_of_iff (h : ∀ x ∈ rows, ∀ y ∈ rows, key x = key y ↔ coarse x = coarse y) :
    (groupsBy key rows).Perm (groupsBy coarse rows) := by
  refine (List.perm_ext_iff_of_nodup nodup_groupsBy nodup_groupsBy).2 fun group => ?_
  simp only [mem_groupsBy]
  refine exists_congr fun x => and_congr_right fun hx => ?_
  rw [List.filter_congr fun y hy => decide_eq_decide.2 (h y hy x hx)]

/-- Whole groups are left out by leaving out their rows. -/
theorem filter_groupsBy_perm {p : α → Bool} {P : List α → Bool}
    (hp : ∀ x ∈ rows, ∀ y ∈ rows, key x = key y → p x = p y)
    (hP : ∀ x ∈ rows, P (rows.filter fun row => key row = key x) = p x) :
    ((groupsBy key rows).filter P).Perm (groupsBy key (rows.filter p)) := by
  refine (List.perm_ext_iff_of_nodup (nodup_groupsBy.filter _) nodup_groupsBy).2 fun group => ?_
  have hgroup (x : α) (hx : x ∈ rows) (hpx : p x = true) :
      (rows.filter p).filter (fun row => key row = key x) =
        rows.filter fun row => key row = key x := by
    rw [List.filter_filter]
    refine List.filter_congr fun y hy => ?_
    by_cases hk : key y = key x
    · simp [hk, hp y hy x hx hk, hpx]
    · simp [hk]
  simp only [List.mem_filter, mem_groupsBy]
  constructor
  · rintro ⟨⟨x, hx, rfl⟩, hPx⟩
    have hpx := hP x hx ▸ hPx
    exact ⟨x, ⟨hx, hpx⟩, (hgroup x hx hpx).symm⟩
  · rintro ⟨x, ⟨hx, hpx⟩, rfl⟩
    rw [hgroup x hx hpx]
    exact ⟨⟨x, hx, rfl⟩, (hP x hx).trans hpx⟩

theorem length_groupsBy : (groupsBy key rows).length = (rows.map key).toFinset.card := by
  rw [groupsBy, List.length_map, List.card_toFinset]

/-- A finer key has as many groups as a coarser one only where it tells no rows
apart that the coarser one does not. -/
theorem length_groupsBy_eq_iff (h : ∀ x y, key x = key y → coarse x = coarse y) :
    (groupsBy key rows).length = (groupsBy coarse rows).length ↔
      ∀ x ∈ rows, ∀ y ∈ rows, coarse x = coarse y → key x = key y := by
  constructor
  · intro hlength x hx y hy hxy
    have : Nonempty γ := ⟨coarse x⟩
    obtain ⟨e, rfl⟩ := (Function.factorsThrough_iff coarse).1 fun x y => h x y
    have himage : (rows.map (e ∘ key)).toFinset = (rows.map key).toFinset.image e := by
      ext k
      simp
    rw [length_groupsBy, length_groupsBy, himage] at hlength
    exact Finset.injOn_of_card_image_eq hlength.symm (by simpa using ⟨x, hx, rfl⟩)
      (by simpa using ⟨y, hy, rfl⟩) hxy
  · intro hkey
    exact (groupsBy_perm_of_iff fun x hx y hy => ⟨h x y, hkey x hx y hy⟩).length_eq

end MetricLayer
