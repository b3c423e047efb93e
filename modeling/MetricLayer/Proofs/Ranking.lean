import MetricLayer.Ranking

/-!
# What a ranking puts first

Only the order of the scores counts (`ranked_congr`), and an element is ranked as what
is made of it (`ranked_map`). Where scores are integers, whatever stands before another
element in `ranked score xs` scores more, or scores the same and came first
(`pairwise_ranked`).
-/

namespace MetricLayer

section

variable {α β κ κ' : Type} [LT κ] [DecidableLT κ] [LT κ'] [DecidableLT κ']

theorem mem_insertRanked {score : α → κ} {x y : α} {ys : List α} :
    y ∈ insertRanked score x ys ↔ y = x ∨ y ∈ ys := by
  rw [(insertRanked_perm score x ys).mem_iff, List.mem_cons]

theorem mem_ranked {score : α → κ} {x : α} {xs : List α} : x ∈ ranked score xs ↔ x ∈ xs :=
  (ranked_perm score xs).mem_iff

theorem insertRanked_congr {score : α → κ} {score' : α → κ'} {x : α} {ys : List α}
    (h : ∀ y ∈ ys, score x < score y ↔ score' x < score' y) :
    insertRanked score x ys = insertRanked score' x ys := by
  induction ys with
  | nil => rfl
  | cons y ys ih =>
    rw [List.forall_mem_cons] at h
    simp only [insertRanked, h.1, ih h.2]

/-- Scores that compare alike rank alike. -/
theorem ranked_congr {score : α → κ} {score' : α → κ'} {xs : List α}
    (h : ∀ x ∈ xs, ∀ y ∈ xs, score x < score y ↔ score' x < score' y) :
    ranked score xs = ranked score' xs := by
  induction xs with
  | nil => rfl
  | cons x xs ih =>
    have hrest := ih fun a ha b hb => h a (List.mem_cons_of_mem _ ha) b (List.mem_cons_of_mem _ hb)
    simp only [ranked, List.foldr_cons] at hrest ⊢
    rw [hrest]
    exact insertRanked_congr fun y hy =>
      h x List.mem_cons_self y (List.mem_cons_of_mem _ (mem_ranked.1 hy))

theorem insertRanked_map (f : α → β) (score : β → κ) (x : α) (ys : List α) :
    insertRanked score (f x) (ys.map f) = (insertRanked (score ∘ f) x ys).map f := by
  induction ys with
  | nil => rfl
  | cons y ys ih =>
    simp only [List.map_cons, insertRanked, Function.comp_apply, ih]
    split <;> rfl

theorem ranked_map (f : α → β) (score : β → κ) (xs : List α) :
    ranked score (xs.map f) = (ranked (score ∘ f) xs).map f := by
  induction xs with
  | nil => rfl
  | cons x xs ih =>
    simp only [ranked, List.map_cons, List.foldr_cons] at ih ⊢
    rw [ih, insertRanked_map]

end

variable {α : Type} {score : α → Int} {x : α} {xs ys : List α}

/-- `x` comes before `y` in a ranking of `xs`. -/
def Outranks (score : α → Int) (xs : List α) (x y : α) : Prop :=
  score y < score x ∨ score x = score y ∧ [x, y].Sublist xs

theorem Outranks.mono {y z : α} (hsub : xs.Sublist ys) (h : Outranks score xs y z) :
    Outranks score ys y z :=
  h.imp_right fun ⟨heq, hpair⟩ => ⟨heq, hpair.trans hsub⟩

theorem Outranks.le {y z : α} (h : Outranks score xs y z) : score z ≤ score y := by
  rcases h with h | h
  · exact Int.le_of_lt h
  · exact Int.le_of_eq h.1.symm

/-- The first of a list outranks all that do not score more. -/
theorem outranks_of_le {y : α} (hy : y ∈ xs) (h : score y ≤ score x) :
    Outranks score (x :: xs) x y := by
  rcases Int.lt_or_eq_of_le h with h | h
  · exact .inl h
  · exact .inr ⟨h.symm, (List.singleton_sublist.2 hy).cons_cons x⟩

theorem pairwise_insertRanked (hsub : ys ⊆ xs) (h : ys.Pairwise (Outranks score xs)) :
    (insertRanked score x ys).Pairwise (Outranks score (x :: xs)) := by
  induction ys with
  | nil => simp [insertRanked]
  | cons y ys ih =>
    rw [List.cons_subset] at hsub
    have hrest := (List.pairwise_cons.1 h).2
    have hfirst := (List.pairwise_cons.1 h).1
    rw [insertRanked]
    split
    · rename_i hlt
      refine List.pairwise_cons.2 ⟨fun z hz => ?_, ih hsub.2 hrest⟩
      rcases mem_insertRanked.1 hz with rfl | hz
      · exact .inl hlt
      · exact (hfirst z hz).mono (List.sublist_cons_self x xs)
    · rename_i hnot
      refine List.pairwise_cons.2 ⟨fun z hz => ?_, h.imp (Outranks.mono (List.sublist_cons_self x xs))⟩
      have hyx : score y ≤ score x := Int.not_lt.1 hnot
      rcases List.mem_cons.1 hz with rfl | hz
      · exact outranks_of_le hsub.1 hyx
      · exact outranks_of_le (hsub.2 hz) (Int.le_trans (hfirst z hz).le hyx)

theorem pairwise_ranked (score : α → Int) (xs : List α) :
    (ranked score xs).Pairwise (Outranks score xs) := by
  induction xs with
  | nil => exact .nil
  | cons x xs ih => exact pairwise_insertRanked (fun _ => mem_ranked.1) ih

end MetricLayer
