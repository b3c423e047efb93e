import Mathlib.Data.Finset.Card
import Mathlib.Data.Finset.Option
import Mathlib.Data.List.Induction
import Mathlib.Data.List.MinMax
import MetricLayer.Proofs.Lookup
import MetricLayer.Warehouse.ColumnCache

/-!
# Which columns stay in the cache

A `ColumnCache` keeps tables in the order in which they were written, so that it can do
without a clock. `TimedCache` is a cache that has one: its entries carry the time of
their insertion, stand in no order, and the earliest of them makes room.
`TimedCache.keeps_columns` says that both hold the same after every history in which
insertions are at increasing times and no entry reaches its age limit, and what they hold:
never more than there is room for, under a table what was last inserted for it, and this
until as many other tables have been inserted as there is room for.
-/

namespace MetricLayer

namespace ColumnCache

/-- What is done to a cache. -/
inductive Operation where
  | insert (table : String) (columns : TableColumns)
  | get (table : String)
  | invalidate (table : String)
  | evictExpired
  deriving DecidableEq, Repr

/-- The table that columns are inserted for. -/
def Operation.inserted? : Operation → Option String
  | .insert table _ => some table
  | _ => none

/-- A lookup changes nothing. -/
def run (c : ColumnCache) : Operation → ColumnCache
  | .insert table columns => c.insert table columns
  | .get _ => c
  | .invalidate table => c.invalidate table
  | .evictExpired => c.evictExpired

def after (config : SchemaCacheConfig) (operations : List Operation) : ColumnCache :=
  operations.foldl run { config }

def tables (c : ColumnCache) : List String := c.entries.map (·.1)

variable {c : ColumnCache} {config : SchemaCacheConfig} {operations : List Operation}
  {table : String} {columns : TableColumns}

@[simp] theorem after_nil : after config [] = { config } := rfl

@[simp] theorem after_append_singleton (operation : Operation) :
    after config (operations ++ [operation]) = (after config operations).run operation := by
  rw [after, List.foldl_append]
  rfl

@[simp] theorem config_run (operation : Operation) : (c.run operation).config = c.config := by
  cases operation with
  | insert table columns => rfl
  | get table => rfl
  | invalidate table => rfl
  | evictExpired =>
    rw [run, evictExpired]
    split <;> rfl

@[simp] theorem config_after : (after config operations).config = config := by
  induction operations using List.reverseRecOn with
  | nil => rfl
  | append_singleton operations operation ih => rw [after_append_singleton, config_run, ih]

theorem isNone_find?_iff : (c.find? table).isNone = true ↔ table ∉ c.tables := by
  simp only [find?, tables, Option.isNone_map, Option.isNone_iff_eq_none, List.find?_eq_none,
    List.mem_map, beq_iff_eq, not_exists, not_and]

/-- A table that is not kept pushes out the first one when there is no room. -/
theorem insert_cases (c : ColumnCache) (table : String) (columns : TableColumns) :
    (c.size < c.capacity ∨ table ∈ c.tables) ∧
        (c.insert table columns).entries =
          (c.entries.filter fun e => e.1 != table) ++ [(table, columns)] ∨
      c.capacity ≤ c.size ∧ table ∉ c.tables ∧
        (c.insert table columns).entries = c.entries.drop 1 ++ [(table, columns)] := by
  by_cases hroom : c.size < c.capacity
  · exact .inl ⟨.inl hroom, by simp [insert, invalidate, Nat.not_le.2 hroom]⟩
  by_cases hkept : table ∈ c.tables
  · refine .inl ⟨.inr hkept, ?_⟩
    have hfound : (c.find? table).isNone = false := by
      rw [Bool.eq_false_iff, ne_eq, isNone_find?_iff, not_not]
      exact hkept
    simp [insert, invalidate, hfound]
  · have hall : (c.entries.filter fun e => e.1 != table) = c.entries := filter_ne_eq_self hkept
    refine .inr ⟨Nat.not_lt.1 hroom, hkept, ?_⟩
    simp [insert, invalidate, isNone_find?_iff.2 hkept, Nat.not_lt.1 hroom, hall]

/-- Every table is kept once, and there is room for all that are. -/
structure Sound (c : ColumnCache) : Prop where
  nodup : c.tables.Nodup
  size_le : c.size ≤ c.capacity

theorem Sound.find?_eq_some_iff (h : c.Sound) :
    c.find? table = some columns ↔ (table, columns) ∈ c.entries := by
  simp only [find?, Option.map_eq_some_iff, find?_eq_some_iff_of_nodup (f := Prod.fst) h.nodup]
  constructor
  · rintro ⟨⟨t, columns⟩, ⟨hmem, rfl⟩, rfl⟩
    exact hmem
  · exact fun hmem => ⟨_, ⟨hmem, rfl⟩, rfl⟩

/-- What is left of the entries is sound still. -/
theorem Sound.of_sublist (h : c.Sound) {entries : List (String × TableColumns)}
    (hsub : entries.Sublist c.entries) : ({ c with entries } : ColumnCache).Sound :=
  ⟨h.nodup.sublist (hsub.map _), hsub.length_le.trans h.size_le⟩

theorem nodup_tables_append {entries : List (String × TableColumns)}
    (h : (entries.map (·.1)).Nodup) (hnew : table ∉ entries.map (·.1)) :
    ((entries ++ [(table, columns)]).map (·.1)).Nodup := by
  rw [List.map_append, List.map_singleton, ← List.concat_eq_append]
  exact h.concat hnew

theorem length_filter_lt (h : table ∈ c.tables) :
    (c.entries.filter fun e => e.1 != table).length < c.size := by
  obtain ⟨e, he, rfl⟩ := List.mem_map.1 h
  exact List.length_filter_lt_length_iff_exists.2 ⟨e, he, by simp⟩

theorem sound_insert (h : c.Sound) (table : String) (columns : TableColumns) :
    (c.insert table columns).Sound := by
  rcases insert_cases c table columns with ⟨hroom, hentries⟩ | ⟨-, hnew, hentries⟩
  · refine ⟨?_, ?_⟩
    · rw [tables, hentries]
      exact nodup_tables_append (h.nodup.sublist (List.filter_sublist.map _)) (by simp)
    · rw [size, hentries, List.length_append, List.length_singleton]
      rcases hroom with hroom | hkept
      · exact Nat.lt_of_le_of_lt (List.length_filter_le _ _) hroom
      · exact Nat.lt_of_lt_of_le (length_filter_lt hkept) h.size_le
  · refine ⟨?_, ?_⟩
    · rw [tables, hentries]
      have hsub := (List.drop_sublist 1 c.entries).map Prod.fst
      exact nodup_tables_append (h.nodup.sublist hsub) fun hmem => hnew (hsub.subset hmem)
    · have hpos : 1 ≤ (c.insert table columns).capacity := Nat.le_max_left ..
      have hle : c.entries.length ≤ (c.insert table columns).capacity := h.size_le
      rw [size, hentries, List.length_append, List.length_drop, List.length_singleton]
      omega

theorem sound_run (h : c.Sound) (operation : Operation) : (c.run operation).Sound := by
  cases operation with
  | insert table columns => exact sound_insert h table columns
  | get table => exact h
  | invalidate table => exact h.of_sublist List.filter_sublist
  | evictExpired =>
    rw [run, evictExpired]
    split
    · exact h.of_sublist (List.nil_sublist _)
    · exact h

theorem sound_after (config : SchemaCacheConfig) (operations : List Operation) :
    (after config operations).Sound := by
  induction operations using List.reverseRecOn with
  | nil => exact ⟨List.nodup_nil, Nat.zero_le _⟩
  | append_singleton operations operation ih =>
    rw [after_append_singleton]
    exact sound_run ih operation

/-! ## What is kept -/

/-- What an operation leaves behind it was there before or is inserted by it. -/
theorem mem_entries_run {operation : Operation}
    (h : (table, columns) ∈ (c.run operation).entries) :
    operation = .insert table columns ∨
      (table, columns) ∈ c.entries ∧ operation.inserted? ≠ some table := by
  cases operation with
  | insert t columns' =>
    rw [Operation.inserted?, ne_eq, Option.some.injEq]
    rcases insert_cases c t columns' with ⟨-, hentries⟩ | ⟨-, hnew, hentries⟩ <;>
      rw [run, hentries, List.mem_append, List.mem_singleton] at h <;>
      rcases h with h | h
    · obtain ⟨hmem, hne⟩ := List.mem_filter.1 h
      exact .inr ⟨hmem, fun heq => by simp [heq] at hne⟩
    · exact .inl (by rw [Prod.mk.injEq] at h; rw [h.1, h.2])
    · have hmem := List.mem_of_mem_drop h
      exact .inr ⟨hmem, fun heq => hnew (heq ▸ List.mem_map_of_mem hmem)⟩
    · exact .inl (by rw [Prod.mk.injEq] at h; rw [h.1, h.2])
  | get t => exact .inr ⟨h, by simp [Operation.inserted?]⟩
  | invalidate t =>
    exact .inr ⟨List.mem_of_mem_filter h, by simp [Operation.inserted?]⟩
  | evictExpired =>
    refine .inr ⟨?_, by simp [Operation.inserted?]⟩
    rw [run, evictExpired] at h
    split at h
    · cases h
    · exact h

/-- Under a table there is what was last inserted for it. -/
theorem exists_insert_of_mem_after (h : (table, columns) ∈ (after config operations).entries) :
    ∃ before later, operations = before ++ .insert table columns :: later ∧
      table ∉ later.filterMap Operation.inserted? := by
  induction operations using List.reverseRecOn with
  | nil => cases h
  | append_singleton operations operation ih =>
    rw [after_append_singleton] at h
    rcases mem_entries_run h with rfl | ⟨hmem, hother⟩
    · exact ⟨operations, [], rfl, List.not_mem_nil⟩
    · obtain ⟨before, later, rfl, hlater⟩ := ih hmem
      refine ⟨before, later ++ [operation], by simp, ?_⟩
      rw [List.filterMap_append, List.mem_append, not_or]
      exact ⟨hlater, by simpa [List.mem_filterMap] using hother⟩

/-- The columns of a table stand in a list of entries, and behind them only those of tables
among some others. -/
def StandsBefore (entries : List (String × TableColumns)) (table : String)
    (columns : TableColumns) (among : Finset String) : Prop :=
  ∃ older newer, entries = older ++ (table, columns) :: newer ∧ ∀ e ∈ newer, e.1 ∈ among

namespace StandsBefore

variable {entries : List (String × TableColumns)} {among : Finset String} {t : String}

theorem mem (h : StandsBefore entries table columns among) : (table, columns) ∈ entries := by
  obtain ⟨older, newer, rfl, -⟩ := h
  exact List.mem_append_right _ List.mem_cons_self

theorem append_singleton (h : StandsBefore entries table columns among) (columns' : TableColumns) :
    StandsBefore (entries ++ [(t, columns')]) table columns (among ∪ {t}) := by
  obtain ⟨older, newer, rfl, hnewer⟩ := h
  refine ⟨older, newer ++ [(t, columns')], by simp, ?_⟩
  rw [List.forall_mem_append, List.forall_mem_singleton]
  exact ⟨fun e he => Finset.mem_union_left _ (hnewer e he),
    Finset.mem_union_right _ (Finset.mem_singleton_self t)⟩

theorem filter (h : StandsBefore entries table columns among) (ht : t ≠ table) :
    StandsBefore (entries.filter fun e => e.1 != t) table columns among := by
  obtain ⟨older, newer, rfl, hnewer⟩ := h
  refine ⟨older.filter fun e => e.1 != t, newer.filter fun e => e.1 != t, ?_,
    fun e he => hnewer e (List.mem_of_mem_filter he)⟩
  rw [List.filter_append, List.filter_cons_of_pos (by simpa using ht.symm)]

/-- The first entry is pushed out only if the new table and those behind it are as many as
there is room for. -/
theorem drop (h : StandsBefore c.entries table columns among) (hsound : c.Sound)
    (full : c.capacity ≤ c.size) (hnew : t ∉ c.tables) (room : (among ∪ {t}).card < c.capacity) :
    StandsBefore (c.entries.drop 1) table columns among := by
  obtain ⟨older, newer, hentries, hnewer⟩ := h
  cases older with
  | cons e older =>
    refine ⟨older, newer, ?_, hnewer⟩
    rw [hentries, List.cons_append, List.drop_succ_cons, List.drop_zero]
  | nil =>
    exfalso
    rw [List.nil_append] at hentries
    have htables : c.tables = table :: newer.map (·.1) := by rw [tables, hentries, List.map_cons]
    have hnodup : (newer.map (·.1) ++ [t]).Nodup := by
      rw [← List.concat_eq_append]
      refine (hsound.nodup.sublist (htables ▸ List.sublist_cons_self _ _)).concat fun hmem => ?_
      exact hnew (htables ▸ List.mem_cons_of_mem _ hmem)
    have hsub : (newer.map (·.1) ++ [t]).toFinset ⊆ among ∪ {t} := by
      intro x hx
      rw [List.mem_toFinset, List.mem_append, List.mem_singleton, List.mem_map] at hx
      rw [Finset.mem_union, Finset.mem_singleton]
      exact hx.imp_left fun ⟨e, he, heq⟩ => heq ▸ hnewer e he
    have hcard : newer.length + 1 ≤ (among ∪ {t}).card := by
      calc newer.length + 1 = (newer.map (·.1) ++ [t]).toFinset.card := by
            rw [List.toFinset_card_of_nodup hnodup]
            simp
        _ ≤ (among ∪ {t}).card := Finset.card_le_card hsub
    have hsize : c.size = newer.length + 1 := by rw [size, hentries, List.length_cons]
    omega

/-- Another table that is inserted comes last. It pushes out none but older tables as long as
there is room for more tables than those inserted since. -/
theorem run (h : StandsBefore c.entries table columns among) (hsound : c.Sound)
    (lasts : c.expiresAtOnce = false) {operation : Operation}
    (other : operation.inserted? ≠ some table) (stays : operation ≠ .invalidate table)
    (room : (among ∪ operation.inserted?.toFinset).card < c.capacity) :
    StandsBefore (c.run operation).entries table columns
      (among ∪ operation.inserted?.toFinset) := by
  cases operation with
  | insert t columns' =>
    have hne : t ≠ table := fun heq => other (congrArg some heq)
    rcases insert_cases c t columns' with ⟨-, hentries⟩ | ⟨full, hnew, hentries⟩
    · exact hentries ▸ (h.filter hne).append_singleton columns'
    · exact hentries ▸ (h.drop hsound full hnew room).append_singleton columns'
  | get t => exact (Finset.union_empty among).symm ▸ h
  | invalidate t =>
    have hne : t ≠ table := fun heq => stays (congrArg Operation.invalidate heq)
    exact (Finset.union_empty among).symm ▸ h.filter hne
  | evictExpired =>
    have hrun : c.run .evictExpired = c := by rw [ColumnCache.run, evictExpired, lasts]; rfl
    rw [hrun]
    exact (Finset.union_empty among).symm ▸ h

end StandsBefore

/-- The tables that columns are inserted for. -/
def insertedBy (operations : List Operation) : Finset String :=
  (operations.filterMap Operation.inserted?).toFinset

theorem insertedBy_append_singleton (operation : Operation) :
    insertedBy (operations ++ [operation]) =
      insertedBy operations ∪ operation.inserted?.toFinset := by
  rw [insertedBy, List.filterMap_append, List.toFinset_append, insertedBy]
  congr 1
  cases operation <;> rfl

/-- What is inserted for a table is kept until it is dropped or as many other tables have been
inserted as there is room for. -/
theorem standsBefore_after (lasts : config.ttlSecs ≠ 0) {before later : List Operation}
    (other : table ∉ insertedBy later) (stays : .invalidate table ∉ later)
    (room : (insertedBy later).card < max 1 config.maxSize.toNat) :
    StandsBefore (after config (before ++ .insert table columns :: later)).entries table columns
      (insertedBy later) := by
  induction later using List.reverseRecOn with
  | nil =>
    rw [after_append_singleton]
    rcases insert_cases (after config before) table columns with
      ⟨-, hentries⟩ | ⟨-, -, hentries⟩ <;>
    exact ⟨_, [], hentries, by simp⟩
  | append_singleton later operation ih =>
    rw [insertedBy_append_singleton] at other room ⊢
    rw [Finset.mem_union, not_or, Option.mem_toFinset] at other
    rw [List.mem_append, not_or, List.mem_singleton] at stays
    have hroom : (insertedBy later).card < max 1 config.maxSize.toNat :=
      Nat.lt_of_le_of_lt (Finset.card_le_card Finset.subset_union_left) room
    rw [← List.cons_append, ← List.append_assoc, after_append_singleton]
    refine (ih other.1 stays.1 hroom).run (sound_after _ _) ?_ other.2 (Ne.symm stays.2) ?_
    · simpa [expiresAtOnce] using lasts
    · rwa [capacity, config_after]

end ColumnCache

/-! ## A cache with a clock -/

/-- Columns of a table, with the time at which they were inserted, in nanoseconds. -/
structure TimedEntry where
  table : String
  columns : TableColumns
  insertedAt : Nat
  deriving DecidableEq, Repr

/-- A cache whose entries stand in no order. -/
structure TimedCache where
  config : SchemaCacheConfig := {}
  entries : List TimedEntry := []
  deriving DecidableEq, Repr

namespace TimedCache

open ColumnCache (Operation insertedBy)

section

variable (c : TimedCache)

def capacity : Nat := max 1 c.config.maxSize.toNat

/-- The age that an entry must not reach. -/
def ageLimit : Nat := c.config.ttlSecs.toNat * 1000000000

def isFresh (now : Nat) (e : TimedEntry) : Bool := now - e.insertedAt < c.ageLimit

/-- Drop a table. -/
def invalidate (table : String) : TimedCache :=
  { c with entries := c.entries.filter fun e => e.table != table }

/-- Drop the table that was inserted first. -/
def evictOldest : TimedCache :=
  match c.entries.argmin (·.insertedAt) with
  | some oldest => c.invalidate oldest.table
  | none => c

def insert (now : Nat) (table : String) (columns : TableColumns) : TimedCache :=
  let full := c.capacity ≤ c.entries.length && !c.entries.any (·.table == table)
  let kept := if full then c.evictOldest else c
  { c with entries := ⟨table, columns, now⟩ :: (kept.invalidate table).entries }

def get? (now : Nat) (table : String) : Option TableColumns :=
  ((c.entries.find? (·.table == table)).filter (c.isFresh now)).map (·.columns)

def evictExpired (now : Nat) : TimedCache := { c with entries := c.entries.filter (c.isFresh now) }

def run (now : Nat) : Operation → TimedCache
  | .insert table columns => c.insert now table columns
  | .get _ => c
  | .invalidate table => c.invalidate table
  | .evictExpired => c.evictExpired now

/-- No entry has reached the age limit. -/
def Unexpired (now : Nat) : Prop := ∀ e ∈ c.entries, c.isFresh now e = true

instance (now : Nat) : Decidable (c.Unexpired now) :=
  inferInstanceAs (Decidable (∀ e ∈ c.entries, c.isFresh now e = true))

end

/-- What a history of operations, each at its time, may leave behind it. Before each of them
entries may come in any order, and none has reached the age limit. -/
inductive Reaches (config : SchemaCacheConfig) : List (Nat × Operation) → TimedCache → Prop
  | start : Reaches config [] { config }
  | step {history : List (Nat × Operation)} {c : TimedCache} {entries : List TimedEntry}
      (reached : Reaches config history c) (order : entries.Perm c.entries) (now : Nat)
      (unexpired : c.Unexpired now) (operation : Operation) :
      Reaches config (history ++ [(now, operation)]) (({ c with entries }).run now operation)

/-- The times at which columns are inserted. -/
def insertionTimes (history : List (Nat × Operation)) : List Nat :=
  (history.filter fun (_, operation) => operation.inserted?.isSome).map (·.1)

variable {c : TimedCache} {ran : ColumnCache} {config : SchemaCacheConfig}
  {history : List (Nat × Operation)} {now : Nat} {table : String} {columns : TableColumns}

/-- An entry without its time. -/
def untimed (e : TimedEntry) : String × TableColumns := (e.table, e.columns)

theorem map_untimed_filter (es : List TimedEntry) (table : String) :
    (es.filter fun e => e.table != table).map untimed =
      (es.map untimed).filter fun e => e.1 != table := by
  rw [List.filter_map]
  rfl

/-- The entry that was inserted first stands first. -/
theorem argmin_eq_head {e : TimedEntry} {es entries : List TimedEntry}
    (hperm : (e :: es).Perm entries)
    (hsorted : (e :: es).Pairwise (·.insertedAt < ·.insertedAt)) :
    entries.argmin (·.insertedAt) = some e := by
  cases hmin : entries.argmin (·.insertedAt) with
  | none =>
    rw [List.argmin_eq_none] at hmin
    simp [hmin] at hperm
  | some m =>
    have hle := List.le_of_mem_argmin (hperm.subset List.mem_cons_self) hmin
    rcases List.mem_cons.1 (hperm.symm.subset (List.argmin_mem hmin)) with rfl | hm
    · rfl
    · exact absurd ((List.pairwise_cons.1 hsorted).1 m hm) (Nat.not_lt.2 hle)

/-- Entries that expire at once are none. -/
theorem Unexpired.entries_eq_nil (h : c.Unexpired now) (hzero : c.config.ttlSecs = 0) :
    c.entries = [] := by
  rw [List.eq_nil_iff_forall_not_mem]
  intro e he
  simpa [isFresh, ageLimit, hzero] using h e he

theorem insert_of_room (h : c.entries.length < c.capacity ∨ table ∈ c.entries.map (·.table)) :
    c.insert now table columns =
      { c with entries := ⟨table, columns, now⟩ :: (c.invalidate table).entries } := by
  have hroom : (decide (c.capacity ≤ c.entries.length) &&
      !c.entries.any (·.table == table)) = false := by
    rw [Bool.and_eq_false_iff, decide_eq_false_iff_not, Nat.not_le, Bool.not_eq_false',
      List.any_eq_true]
    simpa only [List.mem_map, beq_iff_eq] using h
  rw [insert, hroom]
  rfl

theorem insert_of_full (hfull : c.capacity ≤ c.entries.length)
    (hnew : table ∉ c.entries.map (·.table)) :
    c.insert now table columns =
      { c with entries := ⟨table, columns, now⟩ :: (c.evictOldest.invalidate table).entries } := by
  have hfull : (decide (c.capacity ≤ c.entries.length) &&
      !c.entries.any (·.table == table)) = true := by
    rw [Bool.and_eq_true, decide_eq_true_eq, Bool.not_eq_true', List.any_eq_false]
    refine ⟨hfull, fun e he heq => hnew (List.mem_map.2 ⟨e, he, by simpa using heq⟩)⟩
  rw [insert, hfull]
  rfl

/-- A cache with a clock holds what one without does, which has the entries in the order of
their insertion. -/
structure Agrees (c : TimedCache) (ran : ColumnCache) : Prop where
  config : c.config = ran.config
  entries : ∃ es : List TimedEntry, es.Perm c.entries ∧
    es.Pairwise (·.insertedAt < ·.insertedAt) ∧ ran.entries = es.map untimed

namespace Agrees

theorem tables_perm (h : c.Agrees ran) : (c.entries.map (·.table)).Perm ran.tables := by
  obtain ⟨es, hperm, -, hentries⟩ := h.entries
  rw [ColumnCache.tables, hentries, List.map_map]
  exact (hperm.map _).symm

theorem length_entries (h : c.Agrees ran) : c.entries.length = ran.size := by
  simpa [ColumnCache.tables, ColumnCache.size] using h.tables_perm.length_eq

theorem capacity_eq (h : c.Agrees ran) : c.capacity = ran.capacity := by
  rw [capacity, h.config, ColumnCache.capacity]

theorem mem_entries_iff (h : c.Agrees ran) :
    (table, columns) ∈ ran.entries ↔ ∃ t, ⟨table, columns, t⟩ ∈ c.entries := by
  obtain ⟨es, hperm, -, hentries⟩ := h.entries
  rw [hentries, List.mem_map]
  constructor
  · rintro ⟨⟨_, _, t⟩, hmem, heq⟩
    obtain ⟨rfl, rfl⟩ := Prod.mk.inj heq
    exact ⟨t, hperm.subset hmem⟩
  · rintro ⟨t, hmem⟩
    exact ⟨_, hperm.symm.subset hmem, rfl⟩

theorem cons (config : SchemaCacheConfig) (table : String) (columns : TableColumns)
    {es kept : List TimedEntry} (hperm : es.Perm kept)
    (hsorted : es.Pairwise (·.insertedAt < ·.insertedAt))
    (hearlier : ∀ e ∈ es, e.insertedAt < now) :
    Agrees ⟨config, ⟨table, columns, now⟩ :: kept⟩
      ⟨config, es.map untimed ++ [(table, columns)]⟩ := by
  refine ⟨rfl, es ++ [⟨table, columns, now⟩], ?_, ?_, by rw [List.map_append]; rfl⟩
  · exact (List.perm_append_singleton _ es).trans (hperm.cons _)
  · exact List.pairwise_append.2
      ⟨hsorted, List.pairwise_singleton .., fun e he e' he' => by
        rw [List.mem_singleton.1 he']; exact hearlier e he⟩

theorem insert (h : c.Agrees ran) (hsound : ran.Sound)
    (hearlier : ∀ e ∈ c.entries, e.insertedAt < now) (table : String) (columns : TableColumns) :
    (c.insert now table columns).Agrees (ran.insert table columns) := by
  obtain ⟨es, hperm, hsorted, hentries⟩ := h.entries
  have hes : ∀ e ∈ es, e.insertedAt < now := fun e he => hearlier e (hperm.subset he)
  rcases ColumnCache.insert_cases ran table columns with ⟨hroom, hran⟩ | ⟨hfull, hnew, hran⟩
  · rw [← h.length_entries, ← h.capacity_eq, ← h.tables_perm.mem_iff] at hroom
    have hagrees := cons c.config table columns
      (hperm.filter fun e => e.table != table) (hsorted.filter _)
      fun e he => hes e (List.mem_of_mem_filter he)
    rw [map_untimed_filter, ← hentries, ← hran, h.config] at hagrees
    rw [insert_of_room hroom, h.config]
    exact hagrees
  · rw [← h.length_entries, ← h.capacity_eq] at hfull
    rw [← h.tables_perm.mem_iff] at hnew
    cases es with
    | nil =>
      have hempty : c.entries = [] := List.nil_perm.1 hperm
      rw [hempty, List.length_nil, capacity] at hfull
      omega
    | cons oldest rest =>
      have hnodup : ((oldest :: rest).map (·.table)).Nodup :=
        ((hperm.map _).trans h.tables_perm).nodup_iff.2 hsound.nodup
      rw [List.map_cons, List.nodup_cons] at hnodup
      have hevict : c.evictOldest = c.invalidate oldest.table := by
        rw [evictOldest, argmin_eq_head hperm hsorted]
      have hrest : rest.Perm (c.evictOldest.invalidate table).entries := by
        have hothers := hperm.filter fun e => e.table != oldest.table
        rw [List.filter_cons_of_neg (by simp), filter_ne_eq_self hnodup.1] at hothers
        rw [hevict]
        refine hothers.trans (List.Perm.of_eq (filter_ne_eq_self fun hmem => hnew ?_).symm)
        exact (List.filter_sublist.map _).subset hmem
      have hagrees := cons c.config table columns hrest
        (List.pairwise_cons.1 hsorted).2 fun e he => hes e (List.mem_cons_of_mem _ he)
      rw [hentries, List.map_cons, List.drop_succ_cons, List.drop_zero] at hran
      rw [← hran, h.config] at hagrees
      rw [insert_of_full hfull hnew, h.config]
      exact hagrees

theorem invalidate (h : c.Agrees ran) (table : String) :
    (c.invalidate table).Agrees (ran.invalidate table) := by
  obtain ⟨es, hperm, hsorted, hentries⟩ := h.entries
  refine ⟨h.config, _, hperm.filter fun e => e.table != table, hsorted.filter _, ?_⟩
  rw [map_untimed_filter, ← hentries]
  rfl

theorem entries_eq_nil (h : c.Agrees ran) (unexpired : c.Unexpired now)
    (hexpires : ran.expiresAtOnce = true) : ran.entries = [] := by
  have hempty := unexpired.entries_eq_nil (h.config ▸ eq_of_beq hexpires)
  rw [← List.length_eq_zero_iff, ← ColumnCache.size, ← h.length_entries, hempty, List.length_nil]

theorem evictExpired (h : c.Agrees ran) (unexpired : c.Unexpired now) :
    (c.evictExpired now).Agrees ran.evictExpired := by
  have hkept : c.evictExpired now = c := by
    rw [TimedCache.evictExpired, List.filter_eq_self.2 unexpired]
  have hran : ran.evictExpired = ran := by
    rw [ColumnCache.evictExpired]
    split
    · rename_i hexpires
      rw [← h.entries_eq_nil unexpired hexpires]
    · rfl
  rwa [hkept, hran]

theorem run (h : c.Agrees ran) (hsound : ran.Sound) {operation : Operation}
    (unexpired : c.Unexpired now)
    (hearlier : operation.inserted?.isSome = true → ∀ e ∈ c.entries, e.insertedAt < now) :
    (c.run now operation).Agrees (ran.run operation) := by
  cases operation with
  | insert table columns => exact h.insert hsound (hearlier rfl) table columns
  | get table => exact h
  | invalidate table => exact h.invalidate table
  | evictExpired => exact h.evictExpired unexpired

theorem nodup_tables (h : c.Agrees ran) (hsound : ran.Sound) :
    (c.entries.map (·.table)).Nodup := h.tables_perm.nodup_iff.2 hsound.nodup

theorem find?_eq (h : c.Agrees ran) (hsound : ran.Sound) (table : String) :
    (c.entries.find? (·.table == table)).map (·.columns) = ran.find? table := by
  ext columns
  rw [hsound.find?_eq_some_iff, h.mem_entries_iff, Option.map_eq_some_iff]
  simp only [find?_eq_some_iff_of_nodup (f := TimedEntry.table) (h.nodup_tables hsound)]
  constructor
  · rintro ⟨⟨_, _, t⟩, ⟨hmem, rfl⟩, rfl⟩
    exact ⟨t, hmem⟩
  · rintro ⟨t, hmem⟩
    exact ⟨_, ⟨hmem, rfl⟩, rfl⟩

theorem get?_eq (h : c.Agrees ran) (hsound : ran.Sound) (unexpired : c.Unexpired now)
    (table : String) : c.get? now table = ran.get? table := by
  have hfresh : (c.entries.find? (·.table == table)).filter (c.isFresh now) =
      c.entries.find? (·.table == table) := by
    cases hfind : c.entries.find? (·.table == table) with
    | none => rfl
    | some e => rw [Option.filter_some, if_pos (unexpired e (List.mem_of_find?_eq_some hfind))]
  rw [get?, hfresh, h.find?_eq hsound, ColumnCache.get?]
  split
  · rename_i hexpires
    rw [ColumnCache.find?, h.entries_eq_nil unexpired hexpires]
    rfl
  · rfl

end Agrees

/-! ## Histories -/

theorem insertionTimes_append_singleton (operation : Operation) :
    insertionTimes (history ++ [(now, operation)]) =
      insertionTimes history ++ if operation.inserted?.isSome then [now] else [] := by
  rw [insertionTimes, List.filter_append, List.map_append, insertionTimes]
  cases operation <;> rfl

theorem entries_evictOldest_subset : c.evictOldest.entries ⊆ c.entries := by
  rw [evictOldest]
  split
  · exact List.filter_subset_self _
  · exact List.Subset.refl _

/-- Only insertions bring in entries, at their own time. -/
theorem insertedAt_of_mem_run {e : TimedEntry} {operation : Operation}
    (h : e ∈ (c.run now operation).entries) :
    e ∈ c.entries ∨ operation.inserted?.isSome = true ∧ e.insertedAt = now := by
  cases operation with
  | insert table columns =>
    rcases List.mem_cons.1 h with rfl | h
    · exact .inr ⟨rfl, rfl⟩
    · have hkept := List.mem_of_mem_filter h
      split at hkept
      · exact .inl (entries_evictOldest_subset hkept)
      · exact .inl hkept
  | get table => exact .inl h
  | invalidate table => exact .inl (List.mem_of_mem_filter h)
  | evictExpired => exact .inl (List.mem_of_mem_filter h)

/-- What is left behind is what a cache without a clock holds, inserted at some times of the
history. -/
theorem Reaches.agrees (reached : Reaches config history c)
    (times : (insertionTimes history).Pairwise (· < ·)) :
    c.Agrees (ColumnCache.after config (history.map (·.2))) ∧
      ∀ e ∈ c.entries, e.insertedAt ∈ insertionTimes history := by
  induction reached with
  | start => exact ⟨⟨rfl, [], .refl _, .nil, rfl⟩, by simp⟩
  | @step history c entries reached order now unexpired operation ih =>
    rw [insertionTimes_append_singleton] at times ⊢
    obtain ⟨htimes, -, hlast⟩ := List.pairwise_append.1 times
    obtain ⟨⟨hconfig, es, hperm, hes⟩, hinserted⟩ := ih htimes
    rw [List.map_append, List.map_singleton, ColumnCache.after_append_singleton]
    have hreordered : ({ c with entries } : TimedCache).Agrees
        (ColumnCache.after config (history.map (·.2))) :=
      ⟨hconfig, es, hperm.trans order.symm, hes⟩
    refine ⟨hreordered.run (ColumnCache.sound_after _ _)
      (fun e he => unexpired e (order.subset he)) fun hop e he => ?_, fun e he => ?_⟩
    · exact hlast _ (hinserted e (order.subset he)) now (by simp [hop])
    · rcases insertedAt_of_mem_run he with hold | ⟨hop, rfl⟩
      · exact List.mem_append_left _ (hinserted e (order.subset hold))
      · simp [hop]

theorem Reaches.config_eq (reached : Reaches config history c) : c.config = config := by
  induction reached with
  | start => rfl
  | @step history c entries reached order now unexpired operation ih =>
    cases operation <;> exact ih

/-- With an age limit of zero nothing can be inserted that has not reached it. -/
theorem Reaches.ttlSecs_ne_zero (reached : Reaches config history c) (unexpired : c.Unexpired now)
    (inserts : ∃ e ∈ history, e.2.inserted?.isSome = true) : config.ttlSecs ≠ 0 := by
  intro hzero
  induction reached generalizing now with
  | start => simp at inserts
  | @step history c entries reached order now' unexpired' operation ih =>
    obtain ⟨e, he, hop⟩ := inserts
    rcases List.mem_append.1 he with he | he
    · exact ih unexpired' ⟨e, he, hop⟩
    · have hconfig := (reached.step order now' unexpired' operation).config_eq
      have hempty := unexpired.entries_eq_nil (hconfig ▸ hzero)
      rw [List.mem_singleton.1 he] at hop
      cases operation with
      | insert table columns => cases hempty
      | get table => cases hop
      | invalidate table => cases hop
      | evictExpired => cases hop

/-! ## The guarantee -/

/-- A table that is kept is written anew in its own place. -/
theorem insert_of_kept (h : c.Agrees ran) (hsound : ran.Sound)
    (hkept : table ∈ c.entries.map (·.table)) (now : Nat) (columns : TableColumns) :
    (c.insert now table columns).entries.length = c.entries.length ∧
      ∀ e ∈ c.entries, e.table ≠ table → e ∈ (c.insert now table columns).entries := by
  rw [insert_of_room (.inr hkept)]
  constructor
  · have hone : c.entries.countP (fun e => e.table == table) = 1 := by
      have hcount := List.count_eq_one_of_mem (h.nodup_tables hsound) hkept
      rwa [List.count, List.countP_map] at hcount
    have hall := List.length_eq_countP_add_countP (fun e => e.table == table) (l := c.entries)
    have hothers : (c.entries.filter fun e => e.table != table).length =
        c.entries.countP fun e => ¬(e.table == table) := by
      rw [List.countP_eq_length_filter]
      simp [bne, beq_eq_decide]
    rw [hall, hone, invalidate, List.length_cons, hothers, Nat.add_comm]
  · intro e he hne
    exact List.mem_cons_of_mem _ (List.mem_filter.2 ⟨he, by simpa using hne⟩)

/-- **What a cache promises.** After a history in which columns are inserted at increasing
times and no entry reaches the age limit, a cache with a clock holds what the one without
does. It never holds more tables than there is room for. Under a table it has what was last
inserted for it or nothing, and it does have that unless the table has been dropped since or
as many others have been inserted as there is room for. Inserting for a table that is kept
pushes out no other. -/
theorem keeps_columns (reached : Reaches config history c)
    (times : (insertionTimes history).Pairwise (· < ·)) :
    (c.entries.length = (ColumnCache.after config (history.map (·.2))).size ∧
      ∀ now, c.Unexpired now → ∀ table,
        c.get? now table = (ColumnCache.after config (history.map (·.2))).get? table) ∧
    c.entries.length ≤ max 1 config.maxSize.toNat ∧
    (∀ now table columns, c.get? now table = some columns →
      ∃ before time later, history = before ++ (time, .insert table columns) :: later ∧
        table ∉ insertedBy (later.map (·.2))) ∧
    (∀ now, c.Unexpired now → ∀ before time table columns later,
      history = before ++ (time, .insert table columns) :: later →
      table ∉ insertedBy (later.map (·.2)) → .invalidate table ∉ later.map (·.2) →
      (insertedBy (later.map (·.2))).card < max 1 config.maxSize.toNat →
        c.get? now table = some columns) ∧
    ∀ now table columns, table ∈ c.entries.map (·.table) →
      (c.insert now table columns).entries.length = c.entries.length ∧
        ∀ e ∈ c.entries, e.table ≠ table → e ∈ (c.insert now table columns).entries := by
  have hsound := ColumnCache.sound_after config (history.map (·.2))
  obtain ⟨hagrees, -⟩ := reached.agrees times
  refine ⟨⟨hagrees.length_entries, fun now => hagrees.get?_eq hsound⟩, ?_, ?_, ?_,
    fun now table columns hkept => insert_of_kept hagrees hsound hkept now columns⟩
  · rw [hagrees.length_entries]
    simpa [ColumnCache.capacity] using hsound.size_le
  · intro now table columns hget
    have hfind := hagrees.find?_eq hsound table
    rw [get?, Option.map_eq_some_iff] at hget
    obtain ⟨e, he, rfl⟩ := hget
    rw [(Option.filter_eq_some_iff.1 he).1, Option.map_some] at hfind
    obtain ⟨before, later, hhistory, hlast⟩ :=
      ColumnCache.exists_insert_of_mem_after (hsound.find?_eq_some_iff.1 hfind.symm)
    obtain ⟨first, rest, rfl, rfl, hrest⟩ := List.map_eq_append_iff.1 hhistory
    obtain ⟨⟨time, _⟩, rest, rfl, rfl, rfl⟩ := List.map_eq_cons_iff.1 hrest
    exact ⟨first, time, rest, rfl, by simpa [insertedBy] using hlast⟩
  · intro now unexpired before time table columns later hhistory other stays room
    have lasts : config.ttlSecs ≠ 0 := reached.ttlSecs_ne_zero unexpired
      ⟨(time, .insert table columns), by simp [hhistory], rfl⟩
    have hmem : (table, columns) ∈ (ColumnCache.after config
        (before.map (·.2) ++ .insert table columns :: later.map (·.2))).entries :=
      (ColumnCache.standsBefore_after lasts other stays room).mem
    rw [hagrees.get?_eq hsound unexpired, ColumnCache.get?, ColumnCache.expiresAtOnce,
      ColumnCache.config_after, beq_false_of_ne lasts, if_neg Bool.false_ne_true,
      hsound.find?_eq_some_iff, hhistory, List.map_append, List.map_cons]
    exact hmem

/-- Room for two tables, for a minute each. -/
def roomForTwo : SchemaCacheConfig := { ttlSecs := 60, maxSize := 2 }

/-- A table that is inserted again before a third one. -/
def threeTables : List (Nat × Operation) := [
  (1, .insert "raw.visits" ⟨["day"]⟩), (2, .insert "raw.sales" ⟨["cost"]⟩),
  (3, .insert "raw.visits" ⟨["day", "city"]⟩), (4, .insert "raw.users" ⟨["name"]⟩)]

/-- The third table pushes out the second, whatever order the entries come in. -/
theorem keeps_columns_threeTables :
    ∃ c, Reaches roomForTwo threeTables c ∧ c.entries.length = 2 ∧
      c.get? 5 "raw.visits" = some ⟨["day", "city"]⟩ ∧ c.get? 5 "raw.sales" = none := by
  have empty : Reaches roomForTwo [] { config := roomForTwo } := .start
  have first := empty.step (.refl _) 1 (by decide) (.insert "raw.visits" ⟨["day"]⟩)
  have second := first.step (.refl _) 2 (by decide) (.insert "raw.sales" ⟨["cost"]⟩)
  have third := second.step (.swap _ _ _) 3 (by decide) (.insert "raw.visits" ⟨["day", "city"]⟩)
  have reached := third.step (.swap _ _ _) 4 (by decide) (.insert "raw.users" ⟨["name"]⟩)
  obtain ⟨⟨hlength, hget⟩, -, -, hkept, -⟩ := keeps_columns reached (by decide)
  refine ⟨_, reached, hlength.trans (by decide), ?_, (hget 5 (by decide) _).trans (by decide)⟩
  exact hkept 5 (by decide) [_, _] 3 "raw.visits" ⟨["day", "city"]⟩ [_] rfl (by decide)
    (by decide) (by decide)

end TimedCache

end MetricLayer
