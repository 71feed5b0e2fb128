import Databasus.Gfs.RetainedSet

/-
  What a retention's counts have to do with what it keeps.

  As long as no window overflows its 64 bits, the newest item
  is kept, and a tier that keeps anything keeps no less with a
  larger count.

  Main declarations:
    * `GfsRetention.Raises`
    * `GfsRetention.WindowsExact`
    * `GfsRetention.WithinLimits`
    * `KeepsNewest`
    * `raised_counts_keep_iff`
-/

------------------------------------------------------------
-- Exact Windows
------------------------------------------------------------

namespace Databasus

namespace Gfs

open Foundation

namespace GfsRetention

/- Counts that are positive grow, the others stay. -/
def Raises (retention raised : GfsRetention) : Prop :=
  ∀ tier,
    if 0 < retention.count tier then
      retention.count tier ≤ raised.count tier
    else
      raised.count tier = retention.count tier

/- The windows that are used are as long as they should be. -/
structure WindowsExact (retention : GfsRetention) : Prop where
  hourly :
    0 < retention.hours →
      retention.hourlyWindow =
        -(retention.hours * Duration.hour)
  daily :
    0 < retention.days →
      retention.dailyWindow =
        -(retention.days * (24 * Duration.hour))
  weekly :
    0 < retention.weeks →
      retention.weeklyWindow =
        -(retention.weeks * (7 * 24 * Duration.hour))

/- About 292 years, in hours, in days and in weeks. -/
structure WithinLimits (retention : GfsRetention) : Prop where
  hours : retention.hours ≤ 2562047
  days : retention.days ≤ 106751
  weeks : retention.weeks ≤ 15250

end GfsRetention

/- A small product fits, and a large one does not. -/
theorem mulDuration_neg_eq_iff
    {count unit : Int}
    (hCount : 0 < count)
    (hUnit : 0 < unit) :
    mulDuration (-count) unit = -(count * unit) ↔
      count * unit ≤ 2 ^ 63 := by
  have hProduct : 0 < count * unit := Int.mul_pos hCount hUnit
  unfold mulDuration
  rw [Int.neg_mul]
  generalize count * unit = product at hProduct ⊢
  constructor
  · intro hSame
    have hLow := Int.le_bmod (x := -product) (m := 2 ^ 64) (by decide)
    rw [hSame] at hLow
    omega
  · intro hFits
    apply Int.bmod_eq_of_le
    · omega
    · omega

/- Factors of a duration may be multiplied first. -/
theorem mulDuration_mulDuration
    (first second third : Int) :
    mulDuration (mulDuration first second) third =
      mulDuration first (second * third) := by
  unfold mulDuration
  rw [Int.bmod_mul_bmod, Int.mul_assoc]

namespace GfsRetention

theorem dailyWindow_eq
    (retention : GfsRetention) :
    retention.dailyWindow =
      mulDuration (-retention.days) (24 * Duration.hour) :=
  mulDuration_mulDuration _ _ _

theorem weeklyWindow_eq
    (retention : GfsRetention) :
    retention.weeklyWindow =
      mulDuration (-retention.weeks)
        (7 * 24 * Duration.hour) := by
  unfold weeklyWindow
  rw [mulDuration_mulDuration, mulDuration_mulDuration,
    Int.mul_assoc 7]

/- Windows are exact up to a count and wrong beyond it. -/
theorem windowsExact_iff
    (retention : GfsRetention) :
    retention.WindowsExact ↔ retention.WithinLimits := by
  have hHour : Duration.hour = 3600000000000 := by decide
  constructor
  · intro hExact
    refine
      { hours := ?_
        days := ?_
        weeks := ?_ }
    · by_cases hPositive : 0 < retention.hours
      · have hFits :=
          (mulDuration_neg_eq_iff hPositive (by decide)).mp
            (hExact.hourly hPositive)
        rw [hHour] at hFits
        omega
      · omega
    · by_cases hPositive : 0 < retention.days
      · have hDaily := hExact.daily hPositive
        rw [dailyWindow_eq] at hDaily
        have hFits :=
          (mulDuration_neg_eq_iff hPositive (by decide)).mp
            hDaily
        rw [hHour] at hFits
        omega
      · omega
    · by_cases hPositive : 0 < retention.weeks
      · have hWeekly := hExact.weekly hPositive
        rw [weeklyWindow_eq] at hWeekly
        have hFits :=
          (mulDuration_neg_eq_iff hPositive (by decide)).mp
            hWeekly
        rw [hHour] at hFits
        omega
      · omega
  · rintro ⟨hHours, hDays, hWeeks⟩
    refine
      { hourly := ?_
        daily := ?_
        weekly := ?_ }
    · intro hPositive
      apply (mulDuration_neg_eq_iff hPositive (by decide)).mpr
      rw [hHour]
      omega
    · intro hPositive
      rw [dailyWindow_eq]
      apply (mulDuration_neg_eq_iff hPositive (by decide)).mpr
      rw [hHour]
      omega
    · intro hPositive
      rw [weeklyWindow_eq]
      apply (mulDuration_neg_eq_iff hPositive (by decide)).mpr
      rw [hHour]
      omega

end GfsRetention

------------------------------------------------------------
-- Cutoffs
------------------------------------------------------------

variable {tier : Tier}

theorem laterOf_lt
    {first second bound : Time}
    (hFirst : first < bound)
    (hSecond : second < bound) :
    laterOf first second < bound := by
  unfold laterOf
  split
  · exact hFirst
  · exact hSecond

theorem laterOf_le_laterOf
    {first first' second second' : Time}
    (hFirst : first ≤ first')
    (hSecond : second ≤ second') :
    laterOf first second ≤ laterOf first' second' := by
  unfold laterOf Time at *
  split <;> split <;> omega

/- What a coarser tier that is used does to a window. -/
theorem ite_laterOf_lt
    {isUsed : Prop}
    [Decidable isUsed]
    {raw coarser rest bound : Time}
    (hRaw : raw < bound)
    (hCoarser : isUsed → coarser < bound)
    (hRest : rest < bound) :
    (if isUsed then laterOf raw coarser else rest) <
      bound := by
  split
  · next hUsed => exact laterOf_lt hRaw (hCoarser hUsed)
  · exact hRest

theorem ite_laterOf_le
    {isUsed : Prop}
    [Decidable isUsed]
    {raw raw' coarser coarser' rest rest' : Time}
    (hRaw : raw ≤ raw')
    (hCoarser : isUsed → coarser ≤ coarser')
    (hRest : rest ≤ rest') :
    (if isUsed then laterOf raw coarser else rest) ≤
      if isUsed then laterOf raw' coarser' else rest' := by
  by_cases hUsed : isUsed
  · rw [if_pos hUsed, if_pos hUsed]
    exact laterOf_le_laterOf hRaw (hCoarser hUsed)
  · rw [if_neg hUsed, if_neg hUsed]
    exact hRest

namespace GfsRetention

variable {location : Location}
variable {retention raised : GfsRetention}

theorem Raises.pos_iff
    (hRaises : retention.Raises raised)
    (tier : Tier) :
    0 < raised.count tier ↔ 0 < retention.count tier := by
  have hTier := hRaises tier
  split at hTier
  · omega
  · omega

theorem Raises.le
    (hRaises : retention.Raises raised)
    (tier : Tier) :
    retention.count tier ≤ raised.count tier := by
  have hTier := hRaises tier
  split at hTier
  · exact hTier
  · exact le_of_eq hTier.symm

/- A window that is used and exact reaches back. -/
theorem yearlyCutoff_lt
    (ref : Time)
    (hYears : 0 < retention.years) :
    retention.yearlyCutoff location ref < ref := by
  have hBack : 0 < 12 * retention.years + 0 := by omega
  have hRaw := location.addDate_lt ref hBack
  rw [Int.neg_zero] at hRaw
  exact hRaw

theorem monthlyCutoff_lt
    (ref : Time)
    (hMonths : 0 < retention.months) :
    retention.monthlyCutoff location ref < ref := by
  have hBack : 0 < 12 * 0 + retention.months := by omega
  have hRaw := location.addDate_lt ref hBack
  rw [Int.neg_zero] at hRaw
  exact ite_laterOf_lt hRaw (yearlyCutoff_lt ref) hRaw

theorem weeklyCutoff_lt
    (hExact : retention.WindowsExact)
    (ref : Time)
    (hWeeks : 0 < retention.weeks) :
    retention.weeklyCutoff location ref < ref := by
  have hRaw : ref + retention.weeklyWindow < ref := by
    rw [hExact.weekly hWeeks]
    unfold Duration.hour Duration.minute Duration.second
    unfold Time at *
    omega
  apply ite_laterOf_lt hRaw (monthlyCutoff_lt ref)
  exact ite_laterOf_lt hRaw (yearlyCutoff_lt ref) hRaw

theorem dailyCutoff_lt
    (hExact : retention.WindowsExact)
    (ref : Time)
    (hDays : 0 < retention.days) :
    retention.dailyCutoff location ref < ref := by
  have hRaw : ref + retention.dailyWindow < ref := by
    rw [hExact.daily hDays]
    unfold Duration.hour Duration.minute Duration.second
    unfold Time at *
    omega
  apply ite_laterOf_lt hRaw (weeklyCutoff_lt hExact ref)
  apply ite_laterOf_lt hRaw (monthlyCutoff_lt ref)
  exact ite_laterOf_lt hRaw (yearlyCutoff_lt ref) hRaw

theorem hourlyCutoff_lt
    (hExact : retention.WindowsExact)
    (ref : Time)
    (hHours : 0 < retention.hours) :
    retention.hourlyCutoff location ref < ref := by
  have hRaw : ref + retention.hourlyWindow < ref := by
    rw [hExact.hourly hHours]
    unfold Duration.hour Duration.minute Duration.second
    unfold Time at *
    omega
  apply ite_laterOf_lt hRaw (dailyCutoff_lt hExact ref)
  apply ite_laterOf_lt hRaw (weeklyCutoff_lt hExact ref)
  apply ite_laterOf_lt hRaw (monthlyCutoff_lt ref)
  exact ite_laterOf_lt hRaw (yearlyCutoff_lt ref) hRaw

theorem cutoff_lt
    (hExact : retention.WindowsExact)
    (ref : Time)
    (hPositive : 0 < retention.count tier) :
    retention.cutoff location ref tier < ref := by
  cases tier with
  | hourly => exact hourlyCutoff_lt hExact ref hPositive
  | daily => exact dailyCutoff_lt hExact ref hPositive
  | weekly => exact weeklyCutoff_lt hExact ref hPositive
  | monthly => exact monthlyCutoff_lt ref hPositive
  | yearly => exact yearlyCutoff_lt ref hPositive

/- Smaller counts have exact windows where larger ones do. -/
theorem WindowsExact.of_raises
    (hExact : raised.WindowsExact)
    (hRaises : retention.Raises raised) :
    retention.WindowsExact := by
  rcases raised.windowsExact_iff.mp hExact with
    ⟨hHours, hDays, hWeeks⟩
  apply retention.windowsExact_iff.mpr
  exact
    { hours := Int.le_trans (hRaises.le .hourly) hHours
      days := Int.le_trans (hRaises.le .daily) hDays
      weeks := Int.le_trans (hRaises.le .weekly) hWeeks }

/- A raised count moves no cutoff forward. -/
theorem yearlyCutoff_le
    (hRaises : retention.Raises raised)
    (ref : Time) :
    raised.yearlyCutoff location ref ≤
      retention.yearlyCutoff location ref := by
  have hYears : retention.years ≤ raised.years :=
    hRaises.le .yearly
  have hBack :
      12 * retention.years + 0 ≤ 12 * raised.years + 0 := by
    omega
  have hRaw := location.addDate_le ref hBack
  rw [Int.neg_zero] at hRaw
  exact hRaw

theorem monthlyCutoff_le
    (hRaises : retention.Raises raised)
    (ref : Time) :
    raised.monthlyCutoff location ref ≤
      retention.monthlyCutoff location ref := by
  have hMonths : retention.months ≤ raised.months :=
    hRaises.le .monthly
  have hYears : 0 < raised.years ↔ 0 < retention.years :=
    hRaises.pos_iff .yearly
  have hBack :
      12 * 0 + retention.months ≤ 12 * 0 + raised.months := by
    omega
  have hRaw := location.addDate_le ref hBack
  rw [Int.neg_zero] at hRaw
  unfold monthlyCutoff
  simp only [hYears]
  exact
    ite_laterOf_le hRaw
      (fun _ => yearlyCutoff_le hRaises ref) hRaw

theorem weeklyCutoff_le
    (hRaises : retention.Raises raised)
    (hExact : raised.WindowsExact)
    (ref : Time)
    (hWeek : 0 < retention.weeks) :
    raised.weeklyCutoff location ref ≤
      retention.weeklyCutoff location ref := by
  have hWeeks : retention.weeks ≤ raised.weeks :=
    hRaises.le .weekly
  have hMonths : 0 < raised.months ↔ 0 < retention.months :=
    hRaises.pos_iff .monthly
  have hYears : 0 < raised.years ↔ 0 < retention.years :=
    hRaises.pos_iff .yearly
  have hRaw :
      ref + raised.weeklyWindow ≤
        ref + retention.weeklyWindow := by
    rw [hExact.weekly (by omega),
      (hExact.of_raises hRaises).weekly hWeek]
    unfold Duration.hour Duration.minute Duration.second
    unfold Time at *
    omega
  unfold weeklyCutoff
  simp only [hMonths, hYears]
  apply
    ite_laterOf_le hRaw fun _ => monthlyCutoff_le hRaises ref
  exact
    ite_laterOf_le hRaw
      (fun _ => yearlyCutoff_le hRaises ref) hRaw

theorem dailyCutoff_le
    (hRaises : retention.Raises raised)
    (hExact : raised.WindowsExact)
    (ref : Time)
    (hDay : 0 < retention.days) :
    raised.dailyCutoff location ref ≤
      retention.dailyCutoff location ref := by
  have hDays : retention.days ≤ raised.days := hRaises.le .daily
  have hWeeks : 0 < raised.weeks ↔ 0 < retention.weeks :=
    hRaises.pos_iff .weekly
  have hMonths : 0 < raised.months ↔ 0 < retention.months :=
    hRaises.pos_iff .monthly
  have hYears : 0 < raised.years ↔ 0 < retention.years :=
    hRaises.pos_iff .yearly
  have hRaw :
      ref + raised.dailyWindow ≤
        ref + retention.dailyWindow := by
    rw [hExact.daily (by omega),
      (hExact.of_raises hRaises).daily hDay]
    unfold Duration.hour Duration.minute Duration.second
    unfold Time at *
    omega
  unfold dailyCutoff
  simp only [hWeeks, hMonths, hYears]
  apply ite_laterOf_le hRaw (weeklyCutoff_le hRaises hExact ref)
  apply
    ite_laterOf_le hRaw fun _ => monthlyCutoff_le hRaises ref
  exact
    ite_laterOf_le hRaw
      (fun _ => yearlyCutoff_le hRaises ref) hRaw

theorem hourlyCutoff_le
    (hRaises : retention.Raises raised)
    (hExact : raised.WindowsExact)
    (ref : Time)
    (hHour : 0 < retention.hours) :
    raised.hourlyCutoff location ref ≤
      retention.hourlyCutoff location ref := by
  have hHours : retention.hours ≤ raised.hours :=
    hRaises.le .hourly
  have hDays : 0 < raised.days ↔ 0 < retention.days :=
    hRaises.pos_iff .daily
  have hWeeks : 0 < raised.weeks ↔ 0 < retention.weeks :=
    hRaises.pos_iff .weekly
  have hMonths : 0 < raised.months ↔ 0 < retention.months :=
    hRaises.pos_iff .monthly
  have hYears : 0 < raised.years ↔ 0 < retention.years :=
    hRaises.pos_iff .yearly
  have hRaw :
      ref + raised.hourlyWindow ≤
        ref + retention.hourlyWindow := by
    rw [hExact.hourly (by omega),
      (hExact.of_raises hRaises).hourly hHour]
    unfold Duration.hour Duration.minute Duration.second
    unfold Time at *
    omega
  unfold hourlyCutoff
  simp only [hDays, hWeeks, hMonths, hYears]
  apply ite_laterOf_le hRaw (dailyCutoff_le hRaises hExact ref)
  apply ite_laterOf_le hRaw (weeklyCutoff_le hRaises hExact ref)
  apply
    ite_laterOf_le hRaw fun _ => monthlyCutoff_le hRaises ref
  exact
    ite_laterOf_le hRaw
      (fun _ => yearlyCutoff_le hRaises ref) hRaw

theorem cutoff_le
    (hRaises : retention.Raises raised)
    (hExact : raised.WindowsExact)
    (ref : Time)
    (hPositive : 0 < retention.count tier) :
    raised.cutoff location ref tier ≤
      retention.cutoff location ref tier := by
  cases tier with
  | hourly => exact hourlyCutoff_le hRaises hExact ref hPositive
  | daily => exact dailyCutoff_le hRaises hExact ref hPositive
  | weekly => exact weeklyCutoff_le hRaises hExact ref hPositive
  | monthly => exact monthlyCutoff_le hRaises ref
  | yearly => exact yearlyCutoff_le hRaises ref

end GfsRetention

------------------------------------------------------------
-- Larger Counts
------------------------------------------------------------

variable {location : Location}
variable {retention raised : GfsRetention}
variable {items : List Item}
variable {item newest : Item}

/- What a tier keeps, it keeps with a larger count as well. -/
theorem IsKeptBy.raise
    (hRaises : retention.Raises raised)
    (hExact : raised.WindowsExact)
    (hKept : IsKeptBy location retention items tier item) :
    IsKeptBy location raised items tier item := by
  have hCounted := hKept.isCounted
  have hPositive : 0 < retention.count tier := by omega
  rcases hKept.isInside with
    ⟨newest, hMember, hNewest, hInside⟩
  refine
    { isInside := ⟨newest, hMember, hNewest, ?_⟩
      isNewest := hKept.isNewest
      isCounted := ?_ }
  · exact
      lt_of_le_of_lt
        (GfsRetention.cutoff_le hRaises hExact _ hPositive)
        hInside
  · exact lt_of_lt_of_le hCounted (hRaises.le tier)

/- A tier whose cutoff lies back keeps the newest item. -/
theorem isKeptBy_newest
    (hPositive : 0 < retention.count tier)
    (hMember : newest ∈ items)
    (hNewest :
      ∀ other ∈ items, newest.Precedes other)
    (hCutoff :
      retention.cutoff location newest.createdAt tier <
        newest.createdAt) :
    IsKeptBy location retention items tier newest := by
  have hNone : ∀ other ∈ items, ¬other.IsBefore newest := by
    rintro other hOther ⟨hPrecedes, hDistinct⟩
    exact
      hDistinct
        (Std.Antisymm.antisymm _ _ hPrecedes
          (hNewest other hOther))
  refine
    { isInside := ⟨newest, hMember, ?_, hCutoff⟩
      isNewest := ?_
      isCounted := ?_ }
  · intro other hOther
    exact (hNewest other hOther).createdAt_le
  · intro other hOther hIs
    exact absurd hIs (hNone other hOther)
  · have hEmpty :
        (items.filter fun other => other.IsBefore newest) =
          [] := by
      apply List.filter_eq_nil_iff.mpr
      intro other hOther hIs
      exact hNone other hOther (of_decide_eq_true hIs)
    rw [hEmpty]
    simpa using hPositive

theorem exists_positive_count
    (hAny : retention.hasAnyPeriod = true) :
    ∃ tier, 0 < retention.count tier := by
  simp only [GfsRetention.hasAnyPeriod, Bool.or_eq_true,
    decide_eq_true_eq] at hAny
  rcases hAny with
    (((hHours | hDays) | hWeeks) | hMonths) | hYears
  · exact ⟨.hourly, hHours⟩
  · exact ⟨.daily, hDays⟩
  · exact ⟨.weekly, hWeeks⟩
  · exact ⟨.monthly, hMonths⟩
  · exact ⟨.yearly, hYears⟩

/-
  The newest item of every list is kept, larger counts keep
  no less, and no window overflows, exactly when the raised
  counts stay within the limits.
-/
theorem raised_counts_keep_iff
    (location : Location)
    (retention raised : GfsRetention)
    (hAny : retention.hasAnyPeriod = true)
    (hRaises : retention.Raises raised) :
    ((∀ (items : List Item) (newest : Item),
        newest ∈ items →
          (∀ other ∈ items, newest.Precedes other) →
            getItemsToRetain location items raised
                newest.id ≠
              []) ∧
      (∀ (items : List Item) (id : Uuid),
        getItemsToRetain location items retention id ⊆
          getItemsToRetain location items raised id) ∧
      raised.WindowsExact) ↔
      raised.WithinLimits := by
  rw [← raised.windowsExact_iff]
  constructor
  · rintro ⟨_, _, hExact⟩
    exact hExact
  · intro hExact
    refine ⟨?_, ?_, hExact⟩
    · intro items newest hMember hNewest hNone
      rcases exists_positive_count hAny with
        ⟨tier, hPositive⟩
      have hRaised := (hRaises.pos_iff tier).mpr hPositive
      have hKept :
          IsKeptBy location raised items tier newest :=
        isKeptBy_newest hRaised hMember hNewest
          (GfsRetention.cutoff_lt hExact _ hRaised)
      have hTier :=
        (mem_getItemsToRetain_iff location raised items
          newest.id tier).mpr ⟨newest, hMember, rfl, hKept⟩
      rw [hNone] at hTier
      exact absurd hTier List.not_mem_nil
    · intro items id tier hTier
      rcases
          (mem_getItemsToRetain_iff _ _ _ _ _).mp hTier
        with ⟨item, hItem, hID, hKept⟩
      exact
        (mem_getItemsToRetain_iff _ _ _ _ _).mpr
          ⟨item, hItem, hID, hKept.raise hRaises hExact⟩

theorem raised_counts_keep_iff_weekly :
    ((∀ (items : List Item) (newest : Item),
        newest ∈ items →
          (∀ other ∈ items, newest.Precedes other) →
            getItemsToRetain Location.utc items
                ⟨0, 0, 8, 12, 0⟩ newest.id ≠
              []) ∧
      (∀ (items : List Item) (id : Uuid),
        getItemsToRetain Location.utc items
            ⟨0, 0, 4, 12, 0⟩ id ⊆
          getItemsToRetain Location.utc items
            ⟨0, 0, 8, 12, 0⟩ id) ∧
      (⟨0, 0, 8, 12, 0⟩ : GfsRetention).WindowsExact) ↔
      (⟨0, 0, 8, 12, 0⟩ : GfsRetention).WithinLimits := by
  apply raised_counts_keep_iff
  · decide
  · intro tier
    cases tier <;> decide

/- One hour more, and the only backup is no longer kept. -/
theorem overflow_drops_newest :
    (⟨2562047, 0, 0, 0, 0⟩ : GfsRetention).Raises
        ⟨2562048, 0, 0, 0, 0⟩ ∧
      getItemsToRetain Location.utc [⟨1, 0⟩]
          ⟨2562047, 0, 0, 0, 0⟩ 1 =
        [.hourly] ∧
      getItemsToRetain Location.utc [⟨1, 0⟩]
          ⟨2562048, 0, 0, 0, 0⟩ 1 =
        [] := by
  refine ⟨?_, by decide +kernel, by decide +kernel⟩
  intro tier
  cases tier <;> decide

end Gfs

end Databasus
