import MetricLayer.Proofs.Sql.Evaluation

/-!
# The columns that queries read

An expression is decided by the columns that it reads (`Expr.eval_congr`), and a
distinct count by which values are equal (`Aggregation.eval_countDistinct_congr`).
Where the rows of a table are replaced by others and the items of a query by items
that are worth the same there, the query answers the same (`Select.grouped_map`).
-/

namespace MetricLayer

section Groups

variable {α β γ : Type}

theorem map_eq_map_of_forall₂ {R : α → β → Prop} {xs : List α} {ys : List β}
    (h : List.Forall₂ R xs ys) {f : α → γ} {g : β → γ} (hfg : ∀ x y, R x y → f x = g y) :
    xs.map f = ys.map g := by
  induction h with
  | nil => rfl
  | cons hxy _ ih => rw [List.map_cons, List.map_cons, hfg _ _ hxy, ih]

variable [DecidableEq γ]

theorem groupsBy_map (key : β → γ) (f : α → β) (rows : List α) :
    groupsBy key (rows.map f) = (groupsBy (key ∘ f) rows).map (List.map f) := by
  rw [groupsBy, groupsBy, List.map_map, List.map_map]
  refine List.map_congr_left fun k _ => ?_
  rw [List.filter_map]
  rfl

theorem groupsBy_congr {key key' : α → γ} {rows : List α} (h : ∀ x ∈ rows, key x = key' x) :
    groupsBy key rows = groupsBy key' rows := by
  rw [groupsBy, groupsBy, List.map_congr_left h]
  refine List.map_congr_left fun k _ => List.filter_congr fun x hx => ?_
  rw [h x hx]

end Groups

open Sql (Datum Value)

/-- The number of different values is the number of groups of rows with one value. -/
theorem Sql.Value.length_dedup_present {α : Type} (f : α → Value) (xs : List α) :
    (Value.present (xs.map f)).dedup.length =
      (groupsBy f (xs.filter fun x => (f x).isSome)).length := by
  have hsome : (Value.present (xs.map f)).map some = (xs.filter fun x => (f x).isSome).map f := by
    induction xs with
    | nil => rfl
    | cons x xs ih =>
      cases hx : f x with
      | none => simpa [Value.present, hx] using ih
      | some v => simpa [Value.present, hx] using ih
  have hdedup := congrArg List.length
    (List.dedup_map_of_injective (Option.some_injective Datum) (Value.present (xs.map f)))
  rw [List.length_map, hsome] at hdedup
  rw [← hdedup, groupsBy, List.length_map]

/-- Distinct counts are equal where the same values are null and the same are equal. -/
theorem Aggregation.eval_countDistinct_congr {α : Type} {approximate : List Datum → Nat}
    {f g : α → Value} {xs : List α} (hnull : ∀ x ∈ xs, f x = none ↔ g x = none)
    (heq : ∀ x ∈ xs, ∀ y ∈ xs, f x = f y ↔ g x = g y) :
    countDistinct.eval approximate (xs.map f) = countDistinct.eval approximate (xs.map g) := by
  have hpresent : (xs.filter fun x => (f x).isSome) = xs.filter fun x => (g x).isSome := by
    refine List.filter_congr fun x hx => ?_
    rw [Bool.eq_iff_iff, Option.isSome_iff_ne_none, Option.isSome_iff_ne_none, ne_eq, ne_eq,
      hnull x hx]
  have hgroups : (groupsBy f (xs.filter fun x => (g x).isSome)).Perm
      (groupsBy g (xs.filter fun x => (g x).isSome)) :=
    groupsBy_perm_of_iff fun x hx y hy =>
      heq x (List.mem_filter.1 hx).1 y (List.mem_filter.1 hy).1
  rw [Aggregation.eval, Aggregation.eval, Value.length_dedup_present, Value.length_dedup_present,
    hpresent, hgroups.length_eq]

namespace Sql

variable {engine : Engine} {columns : String → Prop}

/-! ## Expressions -/

def Row.AgreesOn (columns : String → Prop) (row row' : Row) : Prop :=
  ∀ name, columns name → row name = row' name

/-- Two scopes, row by row. -/
structure Scope.AgreesOn (columns : String → Prop) (s s' : Scope) : Prop where
  row : s.row.AgreesOn columns s'.row
  group : List.Forall₂ (Row.AgreesOn columns) s.group s'.group

theorem Row.AgreesOn.scope {row row' : Row} (h : row.AgreesOn columns row') :
    row.scope.AgreesOn columns row'.scope := ⟨h, List.Forall₂.nil⟩

theorem Scope.agreesOn_ofGroup {f : Row → Row} {group : List Row}
    (h : ∀ row ∈ group, (f row).AgreesOn columns row) :
    (Scope.ofGroup (group.map f)).AgreesOn columns (.ofGroup group) where
  row := by
    cases group with
    | nil => exact fun _ _ => rfl
    | cons row group => exact h row List.mem_cons_self
  group := List.forall₂_map_left_iff.2 (List.forall₂_same.2 h)

namespace Expr

/-- What an expression reads by itself, without the expressions inside it, are
columns of `columns`. -/
def ReadsOnly (engine : Engine) (columns : String → Prop) : Expr → Prop
  | .column _ name => columns name
  | .raw sql =>
    ∀ row row' : Row, row.AgreesOn columns row' → engine.raw sql row = engine.raw sql row'
  | _ => True

mutual

theorem eval_congr : (e : Expr) → (∀ node ∈ e.nodes, node.ReadsOnly engine columns) →
    ∀ {s s' : Scope}, s.AgreesOn columns s' → e.eval engine s = e.eval engine s'
  | .column table name, h, _, _, hs => hs.row name (h (.column table name) (by simp [nodes]))
  | .literal _, _, _, _, _ | .date _, _, _, _, _ | .wildcard, _, _, _, _ => rfl
  | .raw sql, h, s, s', hs => h (.raw sql) (by simp [nodes]) s.row s'.row hs.row
  | .call function arguments, h, s, s', hs => by
    rw [eval, eval, evalAll_congr arguments (fun node hn => h node (by simp [nodes, hn])) hs]
  | .cases branches otherwise, h, s, s', hs => by
    rw [eval, eval, evalBranches_congr branches (fun node hn => h node (by simp [nodes, hn])) hs,
      eval_congr otherwise (fun node hn => h node (by simp [nodes, hn])) hs]
  | .binary _ l r, h, s, s', hs => by
    rw [eval, eval, eval_congr l (fun node hn => h node (by simp [nodes, hn])) hs,
      eval_congr r (fun node hn => h node (by simp [nodes, hn])) hs]
  | .negate inner, h, s, s', hs => by
    rw [eval, eval, eval_congr inner (fun node hn => h node (by simp [nodes, hn])) hs]
  | .nested inner, h, s, s', hs => by
    rw [eval, eval, eval_congr inner (fun node hn => h node (by simp [nodes, hn])) hs]
  | .aggregate _ input, h, s, s', hs => by
    have hinput {row row' : Row} (hrow : row.AgreesOn columns row') :
        input.eval engine row.scope = input.eval engine row'.scope :=
      eval_congr input (fun node hn => h node (by simp [nodes, hn])) hrow.scope
    rw [eval, eval, map_eq_map_of_forall₂ hs.group fun _ _ => hinput]
  | .countIf condition, h, s, s', hs => by
    have hcondition {row row' : Row} (hrow : row.AgreesOn columns row') :
        condition.eval engine row.scope = condition.eval engine row'.scope :=
      eval_congr condition (fun node hn => h node (by simp [nodes, hn])) hrow.scope
    rw [eval, eval, map_eq_map_of_forall₂ hs.group fun _ _ hrow => by rw [hcondition hrow]]
  | .inList value list _, h, s, s', hs => by
    rw [eval, eval, eval_congr value (fun node hn => h node (by simp [nodes, hn])) hs,
      evalAll_congr list (fun node hn => h node (by simp [nodes, hn])) hs]

theorem evalAll_congr : (es : List Expr) → (∀ node ∈ nodesOf es, node.ReadsOnly engine columns) →
    ∀ {s s' : Scope}, s.AgreesOn columns s' → evalAll engine s es = evalAll engine s' es
  | [], _, _, _, _ => rfl
  | e :: rest, h, s, s', hs => by
    rw [evalAll, evalAll, eval_congr e (fun node hn => h node (by simp [nodesOf, hn])) hs,
      evalAll_congr rest (fun node hn => h node (by simp [nodesOf, hn])) hs]

theorem evalBranches_congr : (branches : List (Expr × Expr)) →
    (∀ node ∈ branchNodes branches, node.ReadsOnly engine columns) →
    ∀ {s s' : Scope}, s.AgreesOn columns s' →
      evalBranches engine s branches = evalBranches engine s' branches
  | [], _, _, _, _ => rfl
  | (condition, result) :: rest, h, s, s', hs => by
    rw [evalBranches, evalBranches,
      eval_congr condition (fun node hn => h node (by simp [branchNodes, hn])) hs,
      eval_congr result (fun node hn => h node (by simp [branchNodes, hn])) hs,
      evalBranches_congr rest (fun node hn => h node (by simp [branchNodes, hn])) hs]

end

end Expr

/-! ## Queries -/

/-- Everything in the query is read from columns of `columns`. -/
structure Select.ReadsOnly (q : Select) (engine : Engine) (columns : String → Prop) : Prop where
  items : ∀ item ∈ q.items, ∀ node ∈ item.expr.nodes, node.ReadsOnly engine columns
  filters : ∀ e ∈ q.filters, ∀ node ∈ e.nodes, node.ReadsOnly engine columns
  groupBy : ∀ e ∈ q.groupBy, ∀ node ∈ e.nodes, node.ReadsOnly engine columns

namespace Select

variable {q : Select} {items : List SelectItem} {source : String} {f : Row → Row}
  {table : List Row}

theorem groups_map (h : q.ReadsOnly engine columns)
    (hrows : ∀ row ∈ table, (f row).AgreesOn columns row) :
    { q with source, items }.groups engine (table.map f) =
      (q.groups engine table).map (List.map f) := by
  have hkept : { q with source, items }.kept engine (table.map f) =
      (q.kept engine table).map f := by
    rw [kept, kept, List.filter_map]
    refine congrArg _ (List.filter_congr fun row hrow => ?_)
    rw [Function.comp_apply, Bool.eq_iff_iff, List.all_eq_true, List.all_eq_true]
    refine forall₂_congr fun e he => ?_
    rw [Expr.eval_congr e (h.filters e he) (hrows row hrow).scope]
  have hkey : ∀ row ∈ q.kept engine table,
      (q.key engine ∘ f) row = q.key engine row := fun row hrow =>
    List.map_congr_left fun e he =>
      Expr.eval_congr e (h.groupBy e he) (hrows row (List.mem_filter.1 hrow).1).scope
  rw [groups, groups, hkept]
  split
  · rfl
  · exact (groupsBy_map _ _ _).trans (congrArg _ (groupsBy_congr hkey))

/-- The items may be others, where they are worth the same in every group. -/
theorem grouped_map (h : q.ReadsOnly engine columns)
    (hrows : ∀ row ∈ table, (f row).AgreesOn columns row)
    (hitems : ∀ group ⊆ table,
      List.Forall₂ (fun item' item => item'.expr.eval engine (.ofGroup (group.map f)) =
        item.expr.eval engine (.ofGroup group)) items q.items) :
    { q with source, items }.grouped engine (table.map f) = q.grouped engine table := by
  have hgroup : ∀ group ∈ q.groups engine table, group ⊆ table := by
    intro group hgroup row hrow
    rw [groups] at hgroup
    split at hgroup
    · obtain rfl := List.mem_singleton.1 hgroup
      exact (List.mem_filter.1 hrow).1
    · obtain ⟨x, -, rfl⟩ := mem_groupsBy.1 hgroup
      exact (List.mem_filter.1 (List.mem_filter.1 hrow).1).1
  rw [grouped, grouped, groups_map h hrows, List.map_map]
  refine congrArg q.limited (List.map_congr_left fun group hg => ?_)
  exact map_eq_map_of_forall₂ (hitems group (hgroup group hg)) fun _ _ => id

end Select

end Sql

end MetricLayer
