import Databasus.Gfs.RetentionCounts

/-
  When a retention keeps the newest of its items.

  Windows of months and years always reach back; those of
  weeks, days and hours do while their 64 bits are negative.
  No window goes further back than that of the next coarser
  tier, so the coarsest tier decides for all of them.

  Main declarations:
    * `GfsRetention.ReachesBack`
    * `newest_isRetained`
    * `getItemsToRetain_eq_nil`
    * `getItemsToRetain_filter_of_retained`
-/

------------------------------------------------------------
-- The Coarsest Tier
------------------------------------------------------------

namespace Databasus

namespace Gfs

open Foundation

namespace GfsRetention

/- The window of the coarsest tier in use goes back in time. -/
def ReachesBack (retention : GfsRetention) : Prop :=
  if 0 < retention.years ∨ 0 < retention.months then
    True
  else if 0 < retention.weeks then
    retention.weeklyWindow < 0
  else if 0 < retention.days then
    retention.dailyWindow < 0
  else
    retention.hourlyWindow < 0

instance instDecidableReachesBack
    (retention : GfsRetention) :
    Decidable retention.ReachesBack := by
  unfold ReachesBack
  infer_instance

variable {location : Location}
variable {retention : GfsRetention}

theorem add_lt_of_neg
    (ref : Int)
    {window : Int}
    (hWindow : window < 0) :
    ref + window < ref := by
  omega

theorem le_laterOf_right
    {first second bound : Int}
    (hSecond : bound ≤ second) :
    bound ≤ laterOf first second := by
  unfold laterOf Time
  split
  · omega
  · exact hSecond

/- The coarsest tier has a cutoff before the newest item. -/
theorem ReachesBack.exists_tier
    (hBack : retention.ReachesBack)
    (hAny : retention.hasAnyPeriod = true)
    (location : Location) :
    ∃ tier, 0 < retention.count tier ∧
      ∀ ref : Int,
        retention.cutoff location ref tier < ref := by
  unfold ReachesBack at hBack
  by_cases hYears : 0 < retention.years
  · exact
      ⟨.yearly, hYears, fun ref => yearlyCutoff_lt ref hYears⟩
  by_cases hMonths : 0 < retention.months
  · exact
      ⟨.monthly, hMonths,
        fun ref => monthlyCutoff_lt ref hMonths⟩
  have hCoarse :
      ¬ (0 < retention.years ∨ 0 < retention.months) := by
    rintro (hPositive | hPositive)
    · exact hYears hPositive
    · exact hMonths hPositive
  rw [if_neg hCoarse] at hBack
  by_cases hWeeks : 0 < retention.weeks
  · rw [if_pos hWeeks] at hBack
    refine ⟨.weekly, hWeeks, ?_⟩
    intro ref
    unfold cutoff weeklyCutoff
    rw [if_neg hMonths, if_neg hYears]
    exact add_lt_of_neg ref hBack
  by_cases hDays : 0 < retention.days
  · rw [if_neg hWeeks, if_pos hDays] at hBack
    refine ⟨.daily, hDays, ?_⟩
    intro ref
    unfold cutoff dailyCutoff
    rw [if_neg hWeeks, if_neg hMonths, if_neg hYears]
    exact add_lt_of_neg ref hBack
  rw [if_neg hWeeks, if_neg hDays] at hBack
  have hHours : 0 < retention.hours := by
    unfold hasAnyPeriod at hAny
    simpa [hYears, hMonths, hWeeks, hDays] using hAny
  refine ⟨.hourly, hHours, ?_⟩
  intro ref
  unfold cutoff hourlyCutoff
  rw [if_neg hDays, if_neg hWeeks, if_neg hMonths,
    if_neg hYears]
  exact add_lt_of_neg ref hBack

/- Otherwise no tier has a cutoff before the newest item. -/
theorem le_cutoff_of_not_reachesBack
    (location : Location)
    (hBack : ¬ retention.ReachesBack)
    {tier : Tier}
    (hPositive : 0 < retention.count tier)
    (ref : Int) :
    ref ≤ retention.cutoff location ref tier := by
  unfold ReachesBack at hBack
  have hCoarse :
      ¬ (0 < retention.years ∨ 0 < retention.months) := by
    intro hPositive
    rw [if_pos hPositive] at hBack
    exact hBack trivial
  rw [if_neg hCoarse] at hBack
  rw [not_or] at hCoarse
  rcases hCoarse with ⟨hYears, hMonths⟩
  have hWeekly :
      0 < retention.weeks →
        ref ≤ retention.weeklyCutoff location ref := by
    intro hWeeks
    rw [if_pos hWeeks] at hBack
    unfold weeklyCutoff
    rw [if_neg hMonths, if_neg hYears]
    exact Int.le_add_of_nonneg_right (Int.not_lt.mp hBack)
  have hDaily :
      0 < retention.days →
        ref ≤ retention.dailyCutoff location ref := by
    intro hDays
    unfold dailyCutoff
    by_cases hWeeks : 0 < retention.weeks
    · rw [if_pos hWeeks]
      exact le_laterOf_right (hWeekly hWeeks)
    · rw [if_neg hWeeks, if_pos hDays] at hBack
      rw [if_neg hWeeks, if_neg hMonths, if_neg hYears]
      exact Int.le_add_of_nonneg_right (Int.not_lt.mp hBack)
  cases tier with
  | yearly => exact absurd hPositive hYears
  | monthly => exact absurd hPositive hMonths
  | weekly => exact hWeekly hPositive
  | daily => exact hDaily hPositive
  | hourly =>
      unfold cutoff hourlyCutoff
      by_cases hDays : 0 < retention.days
      · rw [if_pos hDays]
        exact le_laterOf_right (hDaily hDays)
      · by_cases hWeeks : 0 < retention.weeks
        · rw [if_neg hDays, if_pos hWeeks]
          exact le_laterOf_right (hWeekly hWeeks)
        · rw [if_neg hWeeks, if_neg hDays] at hBack
          rw [if_neg hDays, if_neg hWeeks, if_neg hMonths,
            if_neg hYears]
          exact Int.le_add_of_nonneg_right (Int.not_lt.mp hBack)

end GfsRetention

------------------------------------------------------------
-- The Newest Item
------------------------------------------------------------

variable {location : Location}
variable {retention : GfsRetention}
variable {items : List Item}
variable {newest : Item}
variable {older : List Item}

theorem newest_isRetained
    (location : Location)
    (hBack : retention.ReachesBack)
    (hAny : retention.hasAnyPeriod = true)
    (hItems : sortNewestFirst items = newest :: older) :
    isRetained location retention items newest = true := by
  rcases hBack.exists_tier hAny location with
    ⟨tier, hPositive, hCutoff⟩
  have hSorted := sorted_sortNewestFirst items
  rw [hItems] at hSorted
  have hMember := (le_newest hItems).1
  have hFirst : ∀ other ∈ items, newest.Precedes other := by
    intro other hOther
    rw [← mem_sortNewestFirst, hItems] at hOther
    rcases List.mem_cons.mp hOther with rfl | hLater
    · exact Or.inr ⟨rfl, Nat.le_refl _⟩
    · exact List.rel_of_pairwise_cons hSorted hLater
  have hKept :=
    isKeptBy_newest hPositive hMember hFirst (hCutoff _)
  have hTier :=
    (mem_getItemsToRetain_iff location retention items
      newest.id tier).mpr ⟨newest, hMember, rfl, hKept⟩
  have hRetained :
      newest ∈ retained location retention items :=
    mem_retained_iff.mpr ⟨hMember, tier, hTier⟩
  exact (List.mem_filter.mp hRetained).2

/- Without a window that goes back, nothing is kept. -/
theorem getItemsToRetain_eq_nil
    (hBack : ¬ retention.ReachesBack)
    (items : List Item)
    (id : Uuid) :
    getItemsToRetain location items retention id = [] := by
  apply List.eq_nil_iff_forall_not_mem.mpr
  intro tier hTier
  rcases (mem_getItemsToRetain_iff _ _ _ _ _).mp hTier with
    ⟨item, hItem, _, hKept⟩
  have hCounted := hKept.isCounted
  have hPositive : 0 < retention.count tier := by omega
  rcases hKept.isInside with
    ⟨newest, _, hNewest, hInside⟩
  have hCutoff :=
    GfsRetention.le_cutoff_of_not_reachesBack location hBack
      hPositive newest.createdAt
  exact
    absurd (lt_of_le_of_lt hCutoff hInside)
      (not_lt_of_ge (hNewest item hItem))

/- The tiers stay when only items that none keeps are left out. -/
theorem getItemsToRetain_filter_of_retained
    (hAny : retention.hasAnyPeriod = true)
    (selects : Item → Bool)
    (hRetained :
      ∀ item ∈ items,
        isRetained location retention items item = true →
          selects item = true) :
    getItemsToRetain location (items.filter selects)
        retention =
      getItemsToRetain location items retention := by
  by_cases hBack : retention.ReachesBack
  · cases hItems : sortNewestFirst items with
    | nil =>
        have hEmpty : items = [] := by
          apply List.eq_nil_iff_forall_not_mem.mpr
          intro item hItem
          rw [← mem_sortNewestFirst, hItems] at hItem
          exact absurd hItem List.not_mem_nil
        rw [hEmpty]
        rfl
    | cons newest older =>
        have hNewest :=
          newest_isRetained location hBack hAny hItems
        exact
          getItemsToRetain_filter selects hItems
            (hRetained newest (le_newest hItems).1 hNewest)
            hRetained
  · funext id
    rw [getItemsToRetain_eq_nil hBack,
      getItemsToRetain_eq_nil hBack]

end Gfs

end Databasus
