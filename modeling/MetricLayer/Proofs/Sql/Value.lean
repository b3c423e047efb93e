import Mathlib.Algebra.BigOperators.Ring.Finset
import Mathlib.Algebra.Order.Ring.Rat
import Mathlib.Data.List.Dedup
import Mathlib.Data.List.Perm.Basic
import Mathlib.Data.String.Basic
import Mathlib.Data.Sum.Order
import MetricLayer.Schema.Aggregation

/-!
# Values and their aggregates

The values of columns, and what an aggregation makes of the values of a group
(`Aggregation.eval`). Numbers are exact.

A group is often split into parts that have been aggregated already. The
aggregate of the whole can then be computed from those of the parts, for every
aggregation that neither averages nor counts distinct values
(`Aggregation.eval_flatten`), and the order of the parts does not matter
(`Aggregation.merge_perm`).
-/

namespace MetricLayer.Sql

/-- A value other than null. -/
inductive Datum where
  | flag (value : Bool)
  | number (value : ℚ)
  | text (value : String)
  /-- A date, counted in days. -/
  | day (number : Int)

/-- The value of a column, or null. -/
abbrev Value := Option Datum

namespace Datum

/-- Where a value stands in the order of values. A column has values of one
kind, so that the order between kinds does not matter. -/
def key : Datum → Bool ⊕ₗ (ℚ ⊕ₗ (String ⊕ₗ Int))
  | .flag b => Sum.inlₗ b
  | .number q => Sum.inrₗ (Sum.inlₗ q)
  | .text s => Sum.inrₗ (Sum.inrₗ (Sum.inlₗ s))
  | .day n => Sum.inrₗ (Sum.inrₗ (Sum.inrₗ n))

theorem key_injective : Function.Injective key := by
  intro a b h
  cases a <;> cases b <;> simp_all [key, Sum.inlₗ, Sum.inrₗ]

instance : LinearOrder Datum := LinearOrder.lift' key key_injective

def number? : Datum → Option ℚ
  | .number q => some q
  | _ => none

end Datum

namespace Value

def ofRat (q : ℚ) : Value := some (.number q)

def number? (v : Value) : Option ℚ := v.bind Datum.number?

/-- The sum of the numbers among some values, unless there is none. -/
def total (vs : List Value) : Option ℚ := (vs.map number?).foldr (Option.merge (· + ·)) none

def least (vs : List Value) : Value := vs.foldr (Option.merge min) none

def greatest (vs : List Value) : Value := vs.foldr (Option.merge max) none

/-- The values that are there. -/
def present (vs : List Value) : List Datum := vs.filterMap id

/-! ## Folding parts -/

section Fold

variable {β : Type} {op : β → β → β} {e : β}

theorem foldr_flatten_op [Std.Associative op] [Std.LawfulIdentity op e] (parts : List (List β)) :
    parts.flatten.foldr op e = (parts.map fun part => part.foldr op e).foldr op e := by
  induction parts with
  | nil => rfl
  | cons part parts ih =>
    have hleft : op e (parts.flatten.foldr op e) = parts.flatten.foldr op e :=
      Std.LawfulLeftIdentity.left_id _
    have hassoc : part.foldr op (op e (parts.flatten.foldr op e)) =
        op (part.foldr op e) (parts.flatten.foldr op e) := List.foldr_assoc
    rw [hleft] at hassoc
    rw [List.flatten_cons, List.foldr_append, hassoc, ih]
    rfl

end Fold

theorem total_flatten (parts : List (List Value)) :
    total parts.flatten = total (parts.map fun part => (total part).map .number) := by
  have hnumber (o : Option ℚ) : number? (o.map .number) = o := by cases o <;> rfl
  simp only [total, List.map_flatten, foldr_flatten_op, List.map_map, Function.comp_def, hnumber]

theorem total_map_ofRat (qs : List ℚ) : (total (qs.map ofRat)).getD 0 = qs.sum := by
  induction qs with
  | nil => rfl
  | cons q qs ih =>
    have hcons : total ((q :: qs).map ofRat) =
        Option.merge (· + ·) (some q) (total (qs.map ofRat)) := rfl
    rw [hcons, List.sum_cons, ← ih]
    cases total (qs.map ofRat) <;> simp

theorem length_present_flatten (parts : List (List Value)) :
    (present parts.flatten).length = (parts.map fun part => (present part).length).sum := by
  simp only [present, List.filterMap_flatten, List.length_flatten, List.map_map, Function.comp_def]

end Value

end Sql

open Sql (Datum Value)

namespace Aggregation

/-- What an aggregation makes of the values of a group. Null counts for nothing,
and `approximate` is how a warehouse estimates the number of different values. -/
def eval (approximate : List Datum → Nat) (a : Aggregation) (vs : List Value) : Value :=
  match a with
  | .sum => (Value.total vs).map .number
  | .count => .ofRat (Value.present vs).length
  | .avg => (Value.total vs).map fun total => .number (total / (vs.filterMap Value.number?).length)
  | .min => Value.least vs
  | .max => Value.greatest vs
  | .countDistinct => .ofRat (Value.present vs).dedup.length
  | .approxCountDistinct => .ofRat (approximate (Value.present vs))

/-- Whether the aggregate of a group can be computed from those of its parts. -/
def isMergeable (a : Aggregation) : Bool := !a.isDistinct && a != .avg

/-- The aggregate of a group, from those of its parts. -/
def merge (a : Aggregation) (parts : List Value) : Value :=
  match a with
  | .sum => (Value.total parts).map .number
  | .count => .ofRat ((Value.total parts).getD 0)
  | .min => Value.least parts
  | .max => Value.greatest parts
  | .avg | .countDistinct | .approxCountDistinct => none

variable {approximate : List Datum → Nat} {a : Aggregation}

theorem eval_flatten (h : a.isMergeable = true) (parts : List (List Value)) :
    a.eval approximate parts.flatten = a.merge (parts.map (a.eval approximate)) := by
  cases a with
  | sum =>
    rw [eval, Value.total_flatten]
    rfl
  | count =>
    have hmap : parts.map (count.eval approximate) =
        ((parts.map fun part => (Value.present part).length).map (Nat.cast : Nat → ℚ)).map
          .ofRat := by
      simp only [List.map_map]
      rfl
    rw [hmap, merge, Value.total_map_ofRat, eval, Value.length_present_flatten]
    exact congrArg Value.ofRat (Nat.cast_list_sum _)
  | min | max => exact Value.foldr_flatten_op parts
  | avg | countDistinct | approxCountDistinct => cases h

theorem merge_perm {parts parts' : List Value} (h : parts.Perm parts') :
    a.merge parts = a.merge parts' := by
  have htotal : Value.total parts = Value.total parts' := (h.map _).foldr_op_eq
  cases a with
  | sum | count => rw [merge, merge, htotal]
  | min | max => exact h.foldr_op_eq
  | avg | countDistinct | approxCountDistinct => rfl

theorem eval_perm (h : a.isMergeable = true) {vs vs' : List Value} (hvs : vs.Perm vs') :
    a.eval approximate vs = a.eval approximate vs' := by
  have htotal : Value.total vs = Value.total vs' := (hvs.map _).foldr_op_eq
  cases a with
  | sum => rw [eval, eval, htotal]
  | count => rw [eval, eval, Value.present, (hvs.filterMap id).length_eq, Value.present]
  | min | max => exact hvs.foldr_op_eq
  | avg | countDistinct | approxCountDistinct => cases h

/-- Averages and distinct counts of parts do not decide those of the whole. -/
theorem isMergeable_iff : a.isMergeable = true ↔
    ∀ approximate, ∃ merge : List Value → Value, ∀ parts : List (List Value),
      a.eval approximate parts.flatten = merge (parts.map (a.eval approximate)) := by
  constructor
  · exact fun h approximate => ⟨a.merge, eval_flatten h⟩
  · intro h
    by_contra hmergeable
    obtain ⟨merge, hmerge⟩ := h fun vs => vs.dedup.length
    -- two splits with equal parts and different wholes
    have hsame (parts parts' : List (List Value))
        (hparts : parts.map (a.eval fun vs => vs.dedup.length) =
          parts'.map (a.eval fun vs => vs.dedup.length)) :
        a.eval (fun vs => vs.dedup.length) parts.flatten =
          a.eval (fun vs => vs.dedup.length) parts'.flatten := by
      rw [hmerge, hmerge, hparts]
    cases a with
    | sum | count | min | max => exact hmergeable rfl
    | avg =>
      exact absurd (hsame [[.ofRat 0], [.ofRat 2]] [[.ofRat 0], [.ofRat 2, .ofRat 2]]
        (by decide +kernel)) (by decide +kernel)
    | countDistinct | approxCountDistinct =>
      exact absurd (hsame [[.ofRat 0], [.ofRat 0]] [[.ofRat 0], [.ofRat 1]]
        (by decide +kernel)) (by decide +kernel)

end Aggregation

end MetricLayer
