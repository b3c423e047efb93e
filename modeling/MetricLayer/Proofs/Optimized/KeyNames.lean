import Mathlib.Data.List.Nodup
import MetricLayer.Optimized.Key
import MetricLayer.Proofs.Outcome
import MetricLayer.Proofs.Registry.Agreement
import MetricLayer.Proofs.SortedSet

/-!
# Names of key columns

The name of a key column is made of the words between underscores of the columns
that it combines, and of nothing else (`keyColumnName_eq_iff`): it does not say
which words are one column. Sets of columns without underscores have names of
their own (`normalizeColumns_eq_of_keyColumnName_eq`); in general the names of the
mappings of a registry are distinct if and only if no two of the sets have the same
words (`Registry.nodup_keyColumnName_iff`).
-/

namespace MetricLayer

/-- The words of the normalized columns, in order. -/
def keyWords (columns : List String) : List (List Char) :=
  (normalizeColumns columns).flatMap fun c => c.toList.splitOn '_'

theorem splitOn_intercalate_self {c : Char} {parts : List (List Char)} (h : parts ≠ []) :
    ([c].intercalate parts).splitOn c = parts.flatMap fun part => part.splitOn c := by
  induction parts with
  | nil => exact absurd rfl h
  | cons part parts ih =>
    cases parts with
    | nil => simp
    | cons next parts =>
      rw [List.intercalate_cons_cons, List.append_assoc, List.singleton_append,
        List.splitOn_append_cons_self, ih (List.cons_ne_nil _ _)]
      exact List.flatMap_cons.symm

theorem normalizeColumns_ne_nil {columns : List String} (h : columns ≠ []) :
    normalizeColumns columns ≠ [] := by
  obtain ⟨c, hc⟩ := List.exists_mem_of_ne_nil columns h
  exact List.ne_nil_of_mem (mem_sortedSet.2 (List.mem_map_of_mem hc))

/-- The words can be read back from the name, and the name from the words. -/
theorem keyColumnName_eq_iff {prefixText : String} {columns columns' : List String}
    (h : columns ≠ []) (h' : columns' ≠ []) :
    keyColumnName prefixText columns = keyColumnName prefixText columns' ↔
      keyWords columns = keyWords columns' := by
  have hname (columns : List String) : ("_".intercalate (normalizeColumns columns)).toList =
      ['_'].intercalate ((normalizeColumns columns).map String.toList) :=
    String.toList_intercalate
  have hwords {columns : List String} (h : columns ≠ []) :
      ("_".intercalate (normalizeColumns columns)).toList.splitOn '_' = keyWords columns := by
    rw [hname, splitOn_intercalate_self (by simpa using normalizeColumns_ne_nil h),
      List.flatMap_map, keyWords]
  rw [keyColumnName, keyColumnName, ← String.toList_inj, String.toList_append,
    String.toList_append, List.append_cancel_left_eq]
  constructor
  · intro heq
    rw [← hwords h, heq, hwords h']
  · intro heq
    rw [← hwords h, ← hwords h'] at heq
    have hjoined := congrArg ['_'].intercalate heq
    rwa [List.intercalate_splitOn, List.intercalate_splitOn] at hjoined

/-- Columns without underscores are the words of their name. -/
theorem normalizeColumns_eq_of_keyColumnName_eq {prefixText : String}
    {columns columns' : List String} (h : columns ≠ []) (h' : columns' ≠ [])
    (hwhole : ∀ c ∈ normalizeColumns columns ++ normalizeColumns columns', '_' ∉ c.toList)
    (hname : keyColumnName prefixText columns = keyColumnName prefixText columns') :
    normalizeColumns columns = normalizeColumns columns' := by
  have hwords {columns : List String} (hwhole : ∀ c ∈ normalizeColumns columns, '_' ∉ c.toList) :
      keyWords columns = (normalizeColumns columns).map String.toList := by
    rw [keyWords, List.map_eq_flatMap]
    refine List.flatMap_congr fun c hc => ?_
    have hone : ∀ cs ∈ [c.toList], '_' ∉ cs := by simpa using hwhole c hc
    have hsplit := List.splitOn_intercalate '_' hone (List.cons_ne_nil _ _)
    rwa [List.intercalate_singleton] at hsplit
  rw [List.forall_mem_append] at hwhole
  have heq := (keyColumnName_eq_iff h h').1 hname
  rw [hwords hwhole.1, hwords hwhole.2] at heq
  exact List.map_injective_iff.2 (fun _ _ => String.toList_inj.1) heq

namespace Registry

variable {r : Registry} {d : Sql.Dialect}

theorem ne_nil_of_mem_combinations {x : List String × String} (h : x ∈ r.combinations d) :
    x.1 ≠ [] := by
  have hsets {e : Sql.Expr} {id : String}
      (h : x ∈ e.columnSets.map fun set => (set, id)) : x.1 ≠ [] := by
    obtain ⟨set, hset, rfl⟩ := List.mem_map.1 h
    have hlength : 2 ≤ set.length := of_decide_eq_true (List.mem_filter.1 hset).2
    exact List.ne_nil_of_length_pos (Nat.lt_of_lt_of_le Nat.zero_lt_two hlength)
  rw [combinations, List.mem_append, List.mem_flatMap, List.mem_flatMap] at h
  rcases h with ⟨m, -, h⟩ | ⟨m, -, h⟩
  · exact hsets h
  · cases hc : r.compile d m.formula (some m.id) with
    | ok c => exact hsets (by simpa only [hc] using h)
    | error e => simp [hc] at h

/-- **The key columns of a registry have different names** if and only if no two of
the sets of columns that its metrics combine have the same words. -/
theorem nodup_keyColumnName_iff (r : Registry) (d : Sql.Dialect) (prefixText : String) :
    ((r.keyMappings d prefixText).map (·.keyColumnName)).Nodup ↔
      ∀ x ∈ r.combinations d, ∀ y ∈ r.combinations d, keyWords x.1 = keyWords y.1 → x.1 = y.1 := by
  have hnames : (r.keyMappings d prefixText).map (·.keyColumnName) =
      (sortedSet ((r.combinations d).map (·.1))).map (keyColumnName prefixText) := by
    rw [keyMappings, List.map_map]
    rfl
  rw [hnames, List.nodup_map_iff_inj_on (nodup_sortedSet _)]
  simp only [mem_sortedSet, List.forall_mem_map]
  refine forall₂_congr fun x hx => forall₂_congr fun y hy => ?_
  rw [keyColumnName_eq_iff (ne_nil_of_mem_combinations hx) (ne_nil_of_mem_combinations hy)]

/-- Two metrics that count ids of groups of advertisements and of advertisements. -/
def groupsDocument : SchemaDocument :=
  { table := "ads"
    sourceTable := "raw.ads"
    baseMetrics := [
      { id := "groups", sourceColumns := ["ad_group", "id"], aggregation := .countDistinct },
      { id := "members", sourceColumns := ["ad", "group_id"], aggregation := .countDistinct }] }

/-- Two sets of columns share a key column. -/
theorem exists_not_nodup_keyColumnName :
    ∃ document r, ofDocument document = .ok r ∧ ∃ d prefixText,
      ¬ ((r.keyMappings d prefixText).map (·.keyColumnName)).Nodup := by
  obtain ⟨r, hr⟩ := Except.exists_of_toBool (x := ofDocument groupsDocument) (by decide +kernel)
  obtain rfl := document_of_ofDocument hr
  exact ⟨_, _, hr, .bigQuery, "_key_", by decide +kernel⟩

end Registry

end MetricLayer
