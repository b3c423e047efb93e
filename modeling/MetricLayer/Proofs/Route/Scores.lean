import MetricLayer.Proofs.Route.Rules

/-!
# What a score tells

The score of a rollup is computed in words of 64 bits from weights that may be any
words, and `-1` is the answer for rollups that cannot answer a request. A score is
unambiguous (`Router.Unambiguous`) if no step of its computation leaves these words
and it is `-1` just for rollups that are not among the suitable ones. What is needed
for this of the weights, and of rollups that share an id, is
`Router.unambiguous_iff`.

Rollups may list a dimension more than once. Scores count it once, so a rollup scores
as the one that lists its dimensions in order (`RollupDefinition.distinct`), for which
the rules of routing say how it scores.
-/

namespace MetricLayer

/-! ## Checked arithmetic -/

/-- A word of 64 bits holds this number. -/
def IsWord (n : Int) : Prop := -2 ^ 63 ≤ n ∧ n < 2 ^ 63

instance (n : Int) : Decidable (IsWord n) := inferInstanceAs (Decidable (_ ∧ _))

/-- A number as a word of 64 bits, if it is one. -/
def word? (n : Int) : Option Int64 := if IsWord n then some (.ofInt n) else none

theorem word?_eq_some_iff {n : Int} {w : Int64} : word? n = some w ↔ w.toInt = n := by
  rw [word?]
  constructor
  · intro h
    split at h <;> [skip; cases h]
    rename_i hword
    rw [← Option.some.inj h]
    exact Int64.toInt_ofInt_of_le hword.1 hword.2
  · rintro rfl
    rw [if_pos ⟨w.le_toInt, w.toInt_lt⟩, Int64.ofInt_toInt]

theorem isWord_toInt (w : Int64) : IsWord w.toInt := ⟨w.le_toInt, w.toInt_lt⟩

theorem exists_toInt_iff {n : Int} : (∃ w : Int64, w.toInt = n) ↔ IsWord n :=
  ⟨fun ⟨w, hw⟩ => hw ▸ isWord_toInt w, fun h => ⟨.ofInt n, Int64.toInt_ofInt_of_le h.1 h.2⟩⟩

namespace RouterConfig

variable {config : RouterConfig} {spare : Nat}

/-- The score of a rollup with some dimensions to spare, if each step of its
computation gives a word. -/
def checkedScore? (config : RouterConfig) (spare : Nat) : Option Int64 := do
  let spare ← word? spare
  let cost ← word? (spare.toInt * config.extraDimensionPenalty.toInt)
  let score ← word? (config.baseScore.toInt - cost.toInt)
  if spare = 0 then word? (score.toInt + config.exactMatchBonus.toInt) else some score

/-- All numbers on the way to a score are words. -/
structure Fits (config : RouterConfig) (spare : Nat) : Prop where
  dimensions : IsWord spare
  cost : IsWord (spare * config.extraDimensionPenalty.toInt)
  rest : IsWord (config.baseScore.toInt - spare * config.extraDimensionPenalty.toInt)
  score : IsWord (config.exactScore spare)

theorem checkedScore?_eq_some_iff {score : Int64} :
    config.checkedScore? spare = some score ↔
      config.Fits spare ∧ score.toInt = config.exactScore spare := by
  have hzero {w : Int64} (h : w.toInt = spare) : w = 0 ↔ spare = 0 := by
    rw [← Int64.toInt_inj, h, Int64.toInt_zero, Int.natCast_eq_zero]
  simp only [checkedScore?, Option.bind_eq_bind, Option.bind_eq_some_iff, word?_eq_some_iff]
  constructor
  · rintro ⟨word, hword, cost, hcost, rest, hrest, hscore⟩
    rw [hword] at hcost
    rw [hcost] at hrest
    have hexact : score.toInt = config.exactScore spare := by
      rw [exactScore, ← hrest]
      split at hscore <;> rename_i hspare <;> rw [hzero hword] at hspare
      · rw [word?_eq_some_iff] at hscore
        rw [hscore, if_pos hspare]
      · rw [← Option.some.inj hscore, if_neg hspare, Int.add_zero]
    exact ⟨⟨hword ▸ isWord_toInt word, hcost ▸ isWord_toInt cost, hrest ▸ isWord_toInt rest,
      hexact ▸ isWord_toInt score⟩, hexact⟩
  · rintro ⟨hfits, hscore⟩
    obtain ⟨word, hword⟩ := exists_toInt_iff.2 hfits.dimensions
    obtain ⟨cost, hcost⟩ := exists_toInt_iff.2 hfits.cost
    obtain ⟨rest, hrest⟩ := exists_toInt_iff.2 hfits.rest
    refine ⟨word, hword, cost, by rw [hword, hcost], rest, by rw [hcost, hrest], ?_⟩
    rw [exactScore, ← hrest] at hscore
    split <;> rename_i hspare <;> rw [hzero hword] at hspare
    · rw [if_pos hspare] at hscore
      exact word?_eq_some_iff.2 hscore
    · rw [if_neg hspare, Int.add_zero] at hscore
      exact congrArg some (Int64.toInt_inj.1 hscore.symm)

theorem isSome_checkedScore?_iff : (config.checkedScore? spare).isSome ↔ config.Fits spare := by
  simp only [Option.isSome_iff_exists, checkedScore?_eq_some_iff]
  refine ⟨fun ⟨_, hfits, _⟩ => hfits, fun hfits => ?_⟩
  obtain ⟨score, hscore⟩ := exists_toInt_iff.2 hfits.score
  exact ⟨score, hfits, hscore⟩

/-- The weights that are used where none are given never add up to `-1`. -/
theorem exactScore_default_ne (spare : Nat) : ({} : RouterConfig).exactScore spare ≠ -1 := by
  have hbase : ({} : RouterConfig).baseScore.toInt = 100 := rfl
  have hbonus : ({} : RouterConfig).exactMatchBonus.toInt = 50 := rfl
  have hpenalty : ({} : RouterConfig).extraDimensionPenalty.toInt = 5 := rfl
  rw [exactScore, hbase, hbonus, hpenalty]
  split <;> omega

end RouterConfig

/-! ## Dimensions that are listed twice -/

/-- The same rollup with each of its dimensions once. -/
def RollupDefinition.distinct (rollup : RollupDefinition) : RollupDefinition :=
  { rollup with dimensions := sortedSet rollup.dimensions }

namespace Router

variable {router : Router} {request : RouteRequest} {needs : RouteNeeds}
  {rollup : RollupDefinition}

theorem score?_distinct : router.score? needs rollup.distinct = router.score? needs rollup := by
  have hdimensions : sortedSet rollup.distinct.dimensions = sortedSet rollup.dimensions :=
    sortedSet_of_pairwise (pairwise_sortedSet _)
  simp only [score?, hdimensions]
  rfl

theorem canAnswer_distinct :
    router.CanAnswer request rollup.distinct ↔ router.CanAnswer request rollup := by
  have hsubset {ids : List String} :
      ids ⊆ rollup.distinct.dimensions ↔ ids ⊆ rollup.dimensions := by
    simp [RollupDefinition.distinct, List.subset_def]
  have hsubset' {ids : List String} :
      rollup.distinct.dimensions ⊆ ids ↔ rollup.dimensions ⊆ ids := by
    simp [RollupDefinition.distinct, List.subset_def]
  constructor
  · rintro ⟨hready, hdimensions, hcolumns, hdistinct, hroutable⟩
    exact ⟨hready, hsubset.1 hdimensions, hcolumns, hsubset'.1 ∘ hdistinct, hroutable⟩
  · rintro ⟨hready, hdimensions, hcolumns, hdistinct, hroutable⟩
    exact ⟨hready, hsubset.2 hdimensions, hcolumns, hsubset'.2 ∘ hdistinct, hroutable⟩

theorem isSome_score?_iff_canAnswer (hneeds : needs.Are router.registry request) :
    (router.score? needs rollup).isSome ↔ router.CanAnswer request rollup := by
  rw [← score?_distinct, isSome_score?_iff hneeds (nodup_sortedSet _), canAnswer_distinct]

theorem score?_eq_of_canAnswer (hneeds : needs.Are router.registry request)
    (h : router.CanAnswer request rollup) :
    router.score? needs rollup =
      some (.ofInt (router.exactScore request rollup.distinct)) := by
  rw [← score?_distinct]
  exact score?_eq hneeds (nodup_sortedSet _) (canAnswer_distinct.2 h)

/-- What a request asks of ids is known, so each rollup has a score: `-1`, or the word
that stands for its exact score. -/
theorem score_cases (rollup : RollupDefinition)
    (hdimensions : ∀ id ∈ request.allDimensions, (router.registry.dimension? id).isSome)
    (hmetrics : ∀ id ∈ request.metrics, router.registry.Knows id) :
    (router.CanAnswer request rollup ∧
      router.score rollup request = .ok (.ofInt (router.exactScore request rollup.distinct))) ∨
    (¬ router.CanAnswer request rollup ∧ router.score rollup request = .ok (-1)) := by
  obtain ⟨needs, hof, hneeds⟩ := RouteNeeds.exists_are hdimensions hmetrics
  have hscore : router.score rollup request = .ok ((router.score? needs rollup).getD (-1)) := by
    rw [score, hof]
    rfl
  by_cases hcan : router.CanAnswer request rollup
  · rw [score?_eq_of_canAnswer hneeds hcan] at hscore
    exact .inl ⟨hcan, hscore⟩
  · have hnone : router.score? needs rollup = none := by
      rw [← Option.not_isSome_iff_eq_none, isSome_score?_iff_canAnswer hneeds]
      exact hcan
    rw [hnone] at hscore
    exact .inr ⟨hcan, hscore⟩

/-- The suitable rollups name an id if a rollup with this id can answer. -/
theorem exists_candidates
    (hdimensions : ∀ id ∈ request.allDimensions, (router.registry.dimension? id).isSome)
    (hmetrics : ∀ id ∈ request.metrics, router.registry.Knows id) :
    ∃ candidates, router.findSuitableRollups request = .ok candidates ∧ ∀ id,
      (∃ c ∈ candidates, c.rollupId = id) ↔
        ∃ other ∈ router.rollups, other.id = id ∧ router.CanAnswer request other := by
  obtain ⟨needs, hof, hneeds⟩ := RouteNeeds.exists_are hdimensions hmetrics
  refine ⟨router.candidates needs, by rw [findSuitableRollups, hof]; rfl, fun id => ?_⟩
  have hcandidate {other : RollupDefinition} {c : RollupCandidate} :
      router.candidate? needs other = some c →
        c.rollupId = other.id ∧ router.CanAnswer request other := by
    intro h
    obtain ⟨score, hscore, rfl⟩ := Option.map_eq_some_iff.1 h
    exact ⟨rfl, (isSome_score?_iff_canAnswer hneeds).1 (Option.isSome_of_eq_some hscore)⟩
  simp only [candidates, mem_ranked, List.mem_filterMap]
  constructor
  · rintro ⟨c, ⟨other, hmem, hc⟩, rfl⟩
    obtain ⟨hid, hcan⟩ := hcandidate hc
    exact ⟨other, hmem, hid.symm, hcan⟩
  · rintro ⟨other, hmem, rfl, hcan⟩
    obtain ⟨score, hscore⟩ :=
      Option.isSome_iff_exists.1 ((isSome_score?_iff_canAnswer hneeds).2 hcan)
    exact ⟨_, ⟨other, hmem, by rw [candidate?, hscore, Option.map_some]⟩, rfl⟩

/-! ## Unambiguous scores -/

/-- A score is computed without leaving words of 64 bits, and it is `-1` just if the
rollup is not among the suitable ones. -/
structure Unambiguous (router : Router) (request : RouteRequest) (rollup : RollupDefinition) :
    Prop where
  computed : router.CanAnswer request rollup →
    (router.config.checkedScore? (request.spare rollup.distinct)).isSome
  told : ∃ score candidates, router.score rollup request = .ok score ∧
    router.findSuitableRollups request = .ok candidates ∧
    (score = -1 ↔ ¬ ∃ c ∈ candidates, c.rollupId = rollup.id)

theorem toInt_ofInt_exactScore (h : router.config.Fits (request.spare rollup.distinct)) :
    (Int64.ofInt (router.exactScore request rollup.distinct)).toInt =
      router.exactScore request rollup.distinct :=
  Int64.toInt_ofInt_of_le h.score.1 h.score.2

/-- **What a score tells**: the score of a rollup is unambiguous exactly if the weights
keep the score of a rollup that can answer to words of 64 bits and apart from `-1`, and no
rollup can answer in the place of one of the same id that cannot. -/
theorem unambiguous_iff (hmem : rollup ∈ router.rollups)
    (hdimensions : ∀ id ∈ request.allDimensions, (router.registry.dimension? id).isSome)
    (hmetrics : ∀ id ∈ request.metrics, router.registry.Knows id) :
    router.Unambiguous request rollup ↔
      (router.CanAnswer request rollup →
        router.config.Fits (request.spare rollup.distinct) ∧
          router.config.exactScore (request.spare rollup.distinct) ≠ -1) ∧
      ∀ other ∈ router.rollups, other.id = rollup.id → router.CanAnswer request other →
        router.CanAnswer request rollup := by
  obtain ⟨candidates, hcandidates, hlisted⟩ := exists_candidates hdimensions hmetrics
  have hlisted := hlisted rollup.id
  have hminus : (-1 : Int64).toInt = -1 := rfl
  constructor
  · rintro ⟨hcomputed, score, candidates', hscore, hcandidates', htold⟩
    obtain rfl := Except.ok.inj (hcandidates.symm.trans hcandidates')
    rcases score_cases rollup hdimensions hmetrics with ⟨hcan, heq⟩ | ⟨hcan, heq⟩
    · obtain rfl := Except.ok.inj (hscore.symm.trans heq)
      have hfits := RouterConfig.isSome_checkedScore?_iff.1 (hcomputed hcan)
      refine ⟨fun _ => ⟨hfits, fun hclash => ?_⟩, fun _ _ _ _ => hcan⟩
      refine htold.1 (congrArg Int64.ofInt hclash) (hlisted.2 ⟨rollup, hmem, rfl, hcan⟩)
    · obtain rfl := Except.ok.inj (hscore.symm.trans heq)
      exact ⟨fun h => absurd h hcan, fun other hother hid hcan' =>
        absurd (hlisted.2 ⟨other, hother, hid, hcan'⟩) (htold.1 rfl)⟩
  · rintro ⟨hfits, hothers⟩
    refine ⟨fun hcan => RouterConfig.isSome_checkedScore?_iff.2 (hfits hcan).1, ?_⟩
    rcases score_cases rollup hdimensions hmetrics with ⟨hcan, heq⟩ | ⟨hcan, heq⟩
    · refine ⟨_, candidates, heq, hcandidates, iff_of_false (fun hclash => ?_) ?_⟩
      · refine (hfits hcan).2 ?_
        rw [← hminus, ← hclash, toInt_ofInt_exactScore (hfits hcan).1, exactScore]
      · exact not_not.2 (hlisted.2 ⟨rollup, hmem, rfl, hcan⟩)
    · refine ⟨_, candidates, heq, hcandidates, iff_of_true rfl fun hlists => hcan ?_⟩
      obtain ⟨other, hother, hid, hcan'⟩ := hlisted.1 hlists
      exact hothers other hother hid hcan'

/-- By the weights that are used where none are given, a rollup with a dimension to
spare, listed twice at that. -/
theorem unambiguous_of_default :
    let rollup := { RollupDefinition.daily ["clicks"] with
      dimensions := ["date", "country", "country"] }
    let router : Router := { registry := .searches, rollups := [rollup] }
    let request : RouteRequest := { dimensions := ["date"], metrics := ["clicks"] }
    rollup ∈ router.rollups ∧ router.score rollup request = .ok 95 ∧
      (∀ id ∈ request.allDimensions, (router.registry.dimension? id).isSome) ∧
      (∀ id ∈ request.metrics, router.registry.Knows id) ∧ router.Unambiguous request rollup := by
  intro rollup router request
  have hdimensions : ∀ id ∈ request.allDimensions, (router.registry.dimension? id).isSome := by
    decide +kernel
  have hmetrics : ∀ id ∈ request.metrics, router.registry.Knows id :=
    fun id hid => .inl ((by decide +kernel :
      ∀ id ∈ request.metrics, (router.registry.metric? id).isSome) id hid)
  have hfits : router.config.Fits (request.spare rollup.distinct) :=
    ⟨by decide +kernel, by decide +kernel, by decide +kernel, by decide +kernel⟩
  refine ⟨List.mem_singleton_self _, by decide +kernel, hdimensions, hmetrics,
    (unambiguous_iff (List.mem_singleton_self _) hdimensions hmetrics).2
      ⟨fun _ => ⟨hfits, RouterConfig.exactScore_default_ne _⟩, fun other hother _ hcan => ?_⟩⟩
  exact List.mem_singleton.1 hother ▸ hcan

/-- A rollup that can answer scores `-1` by a base of 4. By the largest base the score of
a rollup without dimensions to spare is no word of 64 bits. -/
theorem exists_not_unambiguous :
    let daily := RollupDefinition.daily ["clicks"]
    let byDate := { daily with id := "by_date", dimensions := ["date"] }
    let request : RouteRequest := { dimensions := ["date"], metrics := ["clicks"] }
    let clashing : Router :=
      { registry := .searches, rollups := [daily], config := { baseScore := 4 } }
    let overflowing : Router :=
      { registry := .searches, rollups := [byDate],
        config := { baseScore := 9223372036854775807 } }
    (clashing.score daily request = .ok (-1) ∧
      clashing.findSuitableRollups request = .ok [⟨"daily", -1, true⟩] ∧
      ¬ clashing.Unambiguous request daily) ∧ ¬ overflowing.Unambiguous request byDate := by
  intro daily byDate request clashing overflowing
  have hscore : clashing.score daily request = .ok (-1) := by decide +kernel
  have hsuitable : clashing.findSuitableRollups request = .ok [⟨"daily", -1, true⟩] := by
    decide +kernel
  refine ⟨⟨hscore, hsuitable, ?_⟩, ?_⟩
  · rintro ⟨-, score, candidates, hscore', hcandidates, htold⟩
    obtain rfl := Except.ok.inj (hscore.symm.trans hscore')
    obtain rfl := Except.ok.inj (hsuitable.symm.trans hcandidates)
    exact htold.1 rfl ⟨_, List.mem_singleton_self _, rfl⟩
  · rintro ⟨hcomputed, -⟩
    have hwrapped : overflowing.score byDate request = .ok (-9223372036854775759) := by
      decide +kernel
    have hmetrics : ∀ id ∈ request.metrics, (overflowing.registry.metric? id).isSome := by
      decide +kernel
    rcases @score_cases overflowing request byDate (by decide +kernel)
      fun id hid => .inl (hmetrics id hid) with ⟨hcan, -⟩ | ⟨-, heq⟩
    · exact absurd (hcomputed hcan) (by decide +kernel)
    · exact absurd (Except.ok.inj (hwrapped.symm.trans heq)) (by decide)

end Router

end MetricLayer
