import Databasus.Gfs.Retention

/-
  Which items a retention keeps does not depend on how the
  items are listed, nor on the items that it does not keep.

  Main declarations:
    * `mem_keep_iff`
    * `IsKeptBy`, `mem_getItemsToRetain_iff`
    * `retained`
    * `retained_set_is_stable`
-/

------------------------------------------------------------
-- The Order
------------------------------------------------------------

namespace Databasus

namespace Gfs

open Foundation

instance instTotalPrecedes :
    Std.Total Item.Precedes where
  total first second := by
    unfold Item.Precedes Time Uuid
    omega

instance instIsTransPrecedes :
    IsTrans Item Item.Precedes where
  trans first second third := by
    unfold Item.Precedes Time Uuid
    omega

instance instAntisymmPrecedes :
    Std.Antisymm Item.Precedes where
  antisymm first second hFirst hSecond := by
    rcases first with ⟨id, createdAt⟩
    rcases second with ⟨id', createdAt'⟩
    unfold Item.Precedes Time Uuid at hFirst hSecond
    dsimp only at hFirst hSecond
    unfold Time at createdAt createdAt'
    unfold Uuid at id id'
    have hTime : createdAt = createdAt' := by omega
    have hID : id = id' := by omega
    rw [hTime, hID]

/- The one item comes before the other. -/
def Item.IsBefore (first second : Item) : Prop :=
  first.Precedes second ∧ first ≠ second

instance instDecidableRelIsBefore :
    DecidableRel Item.IsBefore :=
  fun _ _ => inferInstanceAs (Decidable (_ ∧ _))

variable {items items' : List Item}
variable {item : Item}

@[simp]
theorem mem_sortNewestFirst :
    item ∈ sortNewestFirst items ↔ item ∈ items :=
  List.mem_insertionSort Item.Precedes

theorem sorted_sortNewestFirst
    (items : List Item) :
    (sortNewestFirst items).Pairwise Item.Precedes :=
  List.pairwise_insertionSort Item.Precedes items

/- There is one list of the same items in order. -/
theorem sortNewestFirst_eq
    (hPerm : items'.Perm items)
    (hSorted : items'.Pairwise Item.Precedes) :
    sortNewestFirst items = items' := by
  apply
    List.Perm.eq_of_pairwise'
      (sorted_sortNewestFirst items) hSorted
  exact
    (List.perm_insertionSort Item.Precedes items).trans
      hPerm.symm

theorem sortNewestFirst_of_perm
    (hPerm : items'.Perm items) :
    sortNewestFirst items' = sortNewestFirst items := by
  apply sortNewestFirst_eq _ (sorted_sortNewestFirst items)
  exact
    (List.perm_insertionSort Item.Precedes items).trans
      hPerm.symm

theorem sortNewestFirst_filter
    (selects : Item → Bool)
    (items : List Item) :
    sortNewestFirst (items.filter selects) =
      (sortNewestFirst items).filter selects := by
  apply sortNewestFirst_eq
  · exact
      (List.perm_insertionSort Item.Precedes items).filter
        selects
  · exact (sorted_sortNewestFirst items).filter selects

------------------------------------------------------------
-- Visits
------------------------------------------------------------

variable {rules : Tier → BucketRule Item PeriodKey}
variable {before : List Item}
variable {tier : Tier}
variable {id : Uuid}

theorem mem_all (tier : Tier) : tier ∈ Tier.all := by
  cases tier <;> decide

/- The tiers advance independently of one another. -/
theorem progress_foldl
    (items : List Item)
    (tier : Tier) :
    (items.foldl (visit rules) {}).progress tier =
      (rules tier).progress items := by
  induction items using List.reverseRecOn with
  | nil => rfl
  | append_singleton items item ih =>
      unfold BucketRule.progress at ih ⊢
      rw [List.foldl_append, List.foldl_append]
      simp only [List.foldl_cons, List.foldl_nil, visit]
      rw [ih]

/- The tier takes the item after the ones before it. -/
def Claims
    (rules : Tier → BucketRule Item PeriodKey)
    (before : List Item)
    (item : Item)
    (tier : Tier) : Prop :=
  (rules tier).claims ((rules tier).progress before) item =
    true

theorem mem_keep_visit
    {s : RetentionState} :
    tier ∈ (visit rules s item).keep id ↔
      tier ∈ s.keep id ∨
        id = item.id ∧
          (rules tier).claims (s.progress tier) item =
            true := by
  unfold visit
  dsimp only
  by_cases hID : id = item.id
  · rw [if_pos hID, List.mem_append, List.mem_filter]
    simp [hID, mem_all]
  · simp [hID]

/- An id collects the tiers that take one of its items. -/
theorem mem_keep_iff
    (items : List Item) :
    tier ∈ (items.foldl (visit rules) {}).keep id ↔
      ∃ before item after,
        items = before ++ item :: after ∧
          item.id = id ∧ Claims rules before item tier := by
  induction items using List.reverseRecOn with
  | nil => simp
  | append_singleton items last ih =>
      rw [List.foldl_append, List.foldl_cons,
        List.foldl_nil, mem_keep_visit, ih, progress_foldl]
      constructor
      · rintro (⟨before, item, after, rfl, hID, hClaims⟩ |
          ⟨hID, hClaims⟩)
        · exact
            ⟨before, item, after ++ [last], by simp, hID,
              hClaims⟩
        · exact ⟨items, last, [], rfl, hID.symm, hClaims⟩
      · rintro ⟨before, item, after, hSplit, hID, hClaims⟩
        rcases List.eq_nil_or_concat after with
          rfl | ⟨rest, final, rfl⟩
        · right
          have hEnds := List.append_inj' hSplit rfl
          cases hEnds.1
          cases hEnds.2
          exact ⟨hID.symm, hClaims⟩
        · left
          have hShape :
              items ++ [last] =
                (before ++ item :: rest) ++ [final] := by
            rw [hSplit]
            simp
          have hEnds := List.append_inj' hShape rfl
          exact ⟨before, item, rest, hEnds.1, hID, hClaims⟩

/- An item that no tier takes leaves no trace. -/
theorem visit_eq_self
    (hNone : ∀ tier, ¬Claims rules before item tier) :
    visit rules (before.foldl (visit rules) {}) item =
      before.foldl (visit rules) {} := by
  have hClaims :
      ∀ tier,
        (rules tier).claims
            ((before.foldl (visit rules) {}).progress tier)
            item =
          false := by
    intro tier
    rw [progress_foldl]
    exact Bool.eq_false_iff.mpr (hNone tier)
  generalize before.foldl (visit rules) {} = s at hClaims ⊢
  unfold visit
  dsimp only
  have hClaimed :
      (Tier.all.filter fun tier =>
          (rules tier).claims (s.progress tier) item) =
        [] := by
    simp [hClaims]
  rw [hClaimed]
  cases s
  congr 1
  · funext tier
    exact BucketRule.advance_of_not_claims (hClaims tier)
  · funext id
    simp

/- Items that no tier takes can be left out. -/
theorem foldl_visit_filter
    (rules : Tier → BucketRule Item PeriodKey)
    (selects : Item → Bool)
    (items : List Item)
    (hSelects :
      ∀ before item after,
        items = before ++ item :: after →
          selects item = false →
            ∀ tier, ¬Claims rules before item tier) :
    (items.filter selects).foldl (visit rules) {} =
      items.foldl (visit rules) {} := by
  induction items using List.reverseRecOn with
  | nil => rfl
  | append_singleton items last ih =>
      have hItems :
          (items.filter selects).foldl (visit rules) {} =
            items.foldl (visit rules) {} := by
        apply ih
        intro before item after hSplit
        apply hSelects before item (after ++ [last])
        rw [hSplit]
        simp
      rw [List.filter_append, List.foldl_append,
        List.foldl_append, hItems]
      cases hLast : selects last with
      | true => simp [hLast]
      | false =>
          simp only [List.filter_cons, hLast,
            Bool.false_eq_true, if_false, List.filter_nil,
            List.foldl_nil, List.foldl_cons]
          exact
            (visit_eq_self
              (hSelects items last [] rfl hLast)).symm

------------------------------------------------------------
-- What a Tier Keeps
------------------------------------------------------------

variable (location : Location)
variable (retention : GfsRetention)

/-
  The item is the newest of its period, it lies in the window
  before the newest item of all, and fewer periods than the
  count have newer items.
-/
structure IsKeptBy
    (items : List Item)
    (tier : Tier)
    (item : Item) : Prop where
  isInside :
    ∃ newest ∈ items,
      (∀ other ∈ items,
        other.createdAt ≤ newest.createdAt) ∧
        retention.cutoff location newest.createdAt tier <
          item.createdAt
  isNewest :
    ∀ other ∈ items, other.IsBefore item →
      tier.key location other.createdAt ≠
        tier.key location item.createdAt
  isCounted :
    (((items.filter fun other => other.IsBefore item).map
          fun other =>
            tier.key location other.createdAt).dedup.length :
        Int) <
      retention.count tier

variable {location retention}
variable {items before after : List Item}
variable {item newest : Item}
variable {older : List Item}
variable {tier : Tier}
variable {id : Uuid}

theorem precedes_of_mem_before
    (hSorted :
      (before ++ item :: after).Pairwise Item.Precedes) :
    ∀ other ∈ before, other.Precedes item := by
  intro other hOther
  exact
    (List.pairwise_append.mp hSorted).2.2 other hOther item
      List.mem_cons_self

theorem Item.Precedes.createdAt_le
    {first second : Item}
    (hPrecedes : first.Precedes second) :
    second.createdAt ≤ first.createdAt := by
  unfold Item.Precedes Time Uuid at hPrecedes
  unfold Time
  omega

/- Before the first copy of an item stand the earlier ones. -/
theorem filter_isBefore
    (hSorted :
      (before ++ item :: after).Pairwise Item.Precedes)
    (hFirst : item ∉ before) :
    ((before ++ item :: after).filter fun other =>
        other.IsBefore item) =
      before := by
  have hBefore :
      (before.filter fun other => other.IsBefore item) =
        before := by
    apply List.filter_eq_self.mpr
    intro other hOther
    apply decide_eq_true
    refine ⟨precedes_of_mem_before hSorted other hOther, ?_⟩
    rintro rfl
    exact hFirst hOther
  have hAfter :
      ((item :: after).filter fun other =>
          other.IsBefore item) =
        [] := by
    apply List.filter_eq_nil_iff.mpr
    intro other hOther hIs
    rcases of_decide_eq_true hIs with ⟨hPrecedes, hOthers⟩
    rcases List.mem_cons.mp hOther with rfl | hLater
    · exact hOthers rfl
    · have hRest :=
        (List.pairwise_append.mp hSorted).2.1
      exact
        hOthers
          (Std.Antisymm.antisymm _ _ hPrecedes
            (List.rel_of_pairwise_cons hRest hLater))
  rw [List.filter_append, hBefore, hAfter,
    List.append_nil]

/- A tier takes an item for what stands before it. -/
theorem claims_tierRule_iff
    (hSorted :
      (before ++ item :: after).Pairwise Item.Precedes)
    (ref : Time) :
    Claims (tierRule location retention ref) before item
        tier ↔
      retention.cutoff location ref tier < item.createdAt ∧
        tier.key location item.createdAt ∉
            (before.map fun other =>
              tier.key location other.createdAt) ∧
          ((before.map fun other =>
                tier.key location other.createdAt).dedup.length :
              Int) <
            retention.count tier := by
  unfold Claims
  rw [BucketRule.claims_progress_iff]
  · simp only [tierRule, decide_eq_true_eq]
  · intro other hOther hInside
    have hLe :=
      (precedes_of_mem_before hSorted other
        hOther).createdAt_le
    simp only [tierRule, decide_eq_true_eq] at hInside ⊢
    exact lt_of_lt_of_le hInside hLe

/- The first item in order is as new as any. -/
theorem le_newest
    (hItems : sortNewestFirst items = newest :: older) :
    newest ∈ items ∧
      ∀ other ∈ items,
        other.createdAt ≤ newest.createdAt := by
  constructor
  · rw [← mem_sortNewestFirst, hItems]
    exact List.mem_cons_self
  · intro other hOther
    rw [← mem_sortNewestFirst, hItems] at hOther
    rcases List.mem_cons.mp hOther with rfl | hLater
    · exact le_refl _
    · have hSorted := sorted_sortNewestFirst items
      rw [hItems] at hSorted
      exact
        (List.rel_of_pairwise_cons hSorted
          hLater).createdAt_le

/- The window is seen from the newest item. -/
theorem isInside_iff
    (hItems : sortNewestFirst items = newest :: older) :
    (∃ newest ∈ items,
        (∀ other ∈ items,
          other.createdAt ≤ newest.createdAt) ∧
          retention.cutoff location newest.createdAt tier <
            item.createdAt) ↔
      retention.cutoff location newest.createdAt tier <
        item.createdAt := by
  rcases le_newest hItems with ⟨hMember, hNewest⟩
  constructor
  · rintro ⟨other, hOther, hMost, hInside⟩
    have hSame : other.createdAt = newest.createdAt :=
      le_antisymm (hNewest other hOther) (hMost newest hMember)
    rw [← hSame]
    exact hInside
  · intro hInside
    exact ⟨newest, hMember, hNewest, hInside⟩

theorem isKeptBy_iff
    (hItems : sortNewestFirst items = newest :: older)
    (hSplit : sortNewestFirst items = before ++ item :: after)
    (hFirst : item ∉ before) :
    IsKeptBy location retention items tier item ↔
      Claims (tierRule location retention newest.createdAt)
        before item tier := by
  have hSorted := sorted_sortNewestFirst items
  rw [hSplit] at hSorted
  have hBefore :
      (items.filter fun other => other.IsBefore item).Perm
        before := by
    have hPerm :=
      (List.perm_insertionSort Item.Precedes items).filter
        fun other => decide (other.IsBefore item)
    change
      ((sortNewestFirst items).filter _).Perm _ at hPerm
    rw [hSplit, filter_isBefore hSorted hFirst] at hPerm
    exact hPerm.symm
  rw [claims_tierRule_iff hSorted]
  have hKeys :=
    hBefore.map fun other => tier.key location other.createdAt
  constructor
  · intro hKept
    refine ⟨(isInside_iff hItems).mp hKept.isInside, ?_, ?_⟩
    · intro hKey
      rcases List.mem_map.mp hKey with ⟨other, hOther, hSame⟩
      rcases List.mem_filter.mp (hBefore.symm.subset hOther)
        with ⟨hMember, hIs⟩
      exact
        hKept.isNewest other hMember (of_decide_eq_true hIs)
          hSame
    · rw [← hKeys.dedup.length_eq]
      exact hKept.isCounted
  · rintro ⟨hInside, hNewest, hCounted⟩
    refine
      { isInside := (isInside_iff hItems).mpr hInside
        isNewest := ?_
        isCounted := ?_ }
    · intro other hOther hIs hSame
      apply hNewest
      apply List.mem_map.mpr
      refine ⟨other, hBefore.subset ?_, hSame⟩
      exact List.mem_filter.mpr ⟨hOther, decide_eq_true hIs⟩
    · rw [hKeys.dedup.length_eq]
      exact hCounted

/- The tiers of an id are those that keep an item with it. -/
theorem mem_getItemsToRetain_iff
    (location : Location)
    (retention : GfsRetention)
    (items : List Item)
    (id : Uuid)
    (tier : Tier) :
    tier ∈ getItemsToRetain location items retention id ↔
      ∃ item ∈ items,
        item.id = id ∧
          IsKeptBy location retention items tier item := by
  unfold getItemsToRetain
  cases hItems : sortNewestFirst items with
  | nil =>
      have hEmpty : ∀ item, item ∉ items := by
        intro item hItem
        rw [← mem_sortNewestFirst, hItems] at hItem
        exact absurd hItem List.not_mem_nil
      constructor
      · intro hMember
        exact absurd hMember List.not_mem_nil
      · rintro ⟨item, hItem, _⟩
        exact absurd hItem (hEmpty item)
  | cons newest older =>
      dsimp only
      rw [mem_keep_iff]
      constructor
      · rintro ⟨before, item, after, hSplit, hID, hClaims⟩
        rw [← hItems] at hSplit
        have hSorted := sorted_sortNewestFirst items
        rw [hSplit] at hSorted
        have hFirst : item ∉ before := by
          intro hBefore
          apply ((claims_tierRule_iff hSorted _).mp hClaims).2.1
          exact List.mem_map.mpr ⟨item, hBefore, rfl⟩
        refine ⟨item, ?_, hID, ?_⟩
        · rw [← mem_sortNewestFirst, hSplit]
          simp
        · exact (isKeptBy_iff hItems hSplit hFirst).mpr hClaims
      · rintro ⟨item, hItem, hID, hKept⟩
        rw [← mem_sortNewestFirst] at hItem
        rcases List.eq_append_cons_of_mem hItem with
          ⟨before, after, hSplit, hFirst⟩
        refine ⟨before, item, after, ?_, hID, ?_⟩
        · rw [← hItems, hSplit]
        · exact (isKeptBy_iff hItems hSplit hFirst).mp hKept

------------------------------------------------------------
-- Running Again
------------------------------------------------------------

variable (location)
variable (retention)

/- Some tier retains the item. -/
def isRetained
    (items : List Item)
    (item : Item) : Bool :=
  !(getItemsToRetain location items retention
      item.id).isEmpty

def retained (items : List Item) : List Item :=
  items.filter (isRetained location retention items)

variable {location retention}
variable {items : List Item}
variable {item newest : Item}
variable {older : List Item}
variable {tier : Tier}

theorem mem_retained_iff :
    item ∈ retained location retention items ↔
      item ∈ items ∧
        ∃ tier,
          tier ∈
            getItemsToRetain location items retention
              item.id := by
  unfold retained isRetained
  rw [List.mem_filter, Bool.not_eq_true',
    List.isEmpty_eq_false_iff_exists_mem]

/- A tier that keeps anything keeps the newest item. -/
theorem IsKeptBy.keeps_newest
    (hItems : sortNewestFirst items = newest :: older)
    (hItem : item ∈ items)
    (hKept : IsKeptBy location retention items tier item) :
    IsKeptBy location retention items tier newest := by
  have hSorted := sorted_sortNewestFirst items
  rw [hItems] at hSorted
  have hNone : ∀ other ∈ items, ¬other.IsBefore newest := by
    rintro other hOther ⟨hPrecedes, hDistinct⟩
    rw [← mem_sortNewestFirst, hItems] at hOther
    rcases List.mem_cons.mp hOther with rfl | hLater
    · exact hDistinct rfl
    · exact
        hDistinct
          (Std.Antisymm.antisymm _ _ hPrecedes
            (List.rel_of_pairwise_cons hSorted hLater))
  have hFirst := (isInside_iff hItems).mp hKept.isInside
  refine
    { isInside := (isInside_iff hItems).mpr ?_
      isNewest := ?_
      isCounted := ?_ }
  · exact lt_of_lt_of_le hFirst ((le_newest hItems).2 item hItem)
  · intro other hOther hIs
    exact absurd hIs (hNone other hOther)
  · have hEmpty :
        (items.filter fun other => other.IsBefore newest) =
          [] := by
      apply List.filter_eq_nil_iff.mpr
      intro other hOther hIs
      exact hNone other hOther (of_decide_eq_true hIs)
    rw [hEmpty]
    have hCounted := hKept.isCounted
    simp only [List.map_nil, List.dedup_nil, List.length_nil]
    omega

/- Whatever is retained, the newest item is. -/
theorem newest_mem_retained
    (hItems : sortNewestFirst items = newest :: older)
    (hItem : item ∈ retained location retention items) :
    newest ∈ retained location retention items := by
  rcases mem_retained_iff.mp hItem with ⟨_, tier, hTier⟩
  rcases (mem_getItemsToRetain_iff _ _ _ _ _).mp hTier with
    ⟨kept, hMember, _, hKept⟩
  have hNewest := (le_newest hItems).1
  apply mem_retained_iff.mpr
  refine ⟨hNewest, tier, ?_⟩
  exact
    (mem_getItemsToRetain_iff _ _ _ _ _).mpr
      ⟨newest, hNewest, rfl, hKept.keeps_newest hItems hMember⟩

/- Items that are not retained can be left out. -/
theorem getItemsToRetain_filter
    (selects : Item → Bool)
    (hItems : sortNewestFirst items = newest :: older)
    (hNewest : selects newest = true)
    (hRetained :
      ∀ item ∈ items,
        isRetained location retention items item = true →
          selects item = true) :
    getItemsToRetain location (items.filter selects)
        retention =
      getItemsToRetain location items retention := by
  have hSorted :
      sortNewestFirst (items.filter selects) =
        newest :: older.filter selects := by
    rw [sortNewestFirst_filter, hItems,
      List.filter_cons_of_pos hNewest]
  have hRun :
      getItemsToRetain location items retention =
        ((newest :: older).foldl
          (visit
            (tierRule location retention
              newest.createdAt)) {}).keep := by
    unfold getItemsToRetain
    rw [hItems]
  have hSkips :
      ∀ before item after,
        newest :: older = before ++ item :: after →
          selects item = false →
            ∀ tier,
              ¬Claims
                (tierRule location retention
                  newest.createdAt) before item tier := by
    intro before item after hSplit hSelects tier hClaims
    have hTier :
        tier ∈
          getItemsToRetain location items retention
            item.id := by
      rw [hRun, mem_keep_iff]
      exact ⟨before, item, after, hSplit, rfl, hClaims⟩
    have hMember : item ∈ items := by
      rw [← mem_sortNewestFirst, hItems, hSplit]
      exact List.mem_append_right before List.mem_cons_self
    have hKept : item ∈ retained location retention items :=
      mem_retained_iff.mpr ⟨hMember, tier, hTier⟩
    rw [hRetained item hMember
      (List.mem_filter.mp hKept).2] at hSelects
    cases hSelects
  have hFilter :=
    foldl_visit_filter
      (tierRule location retention newest.createdAt)
      selects (newest :: older) hSkips
  rw [List.filter_cons_of_pos hNewest] at hFilter
  conv_lhs => unfold getItemsToRetain
  rw [hSorted, hRun, ← hFilter]

/- What is not retained does not matter. -/
theorem getItemsToRetain_retained
    (items : List Item) :
    getItemsToRetain location
        (retained location retention items) retention =
      getItemsToRetain location items retention := by
  cases hItems : sortNewestFirst items with
  | nil =>
      have hEmpty : items = [] := by
        apply List.eq_nil_iff_forall_not_mem.mpr
        intro item hItem
        rw [← mem_sortNewestFirst, hItems] at hItem
        exact absurd hItem List.not_mem_nil
      rw [hEmpty]
      rfl
  | cons newest older =>
      by_cases hNone :
          retained location retention items = []
      · have hKeep :
            ∀ id,
              getItemsToRetain location items retention id =
                [] := by
          intro id
          apply List.eq_nil_iff_forall_not_mem.mpr
          intro tier hTier
          rcases
              (mem_getItemsToRetain_iff _ _ _ _ _).mp hTier
            with ⟨item, hItem, rfl, _⟩
          have hRetained :
              item ∈ retained location retention items :=
            mem_retained_iff.mpr ⟨hItem, tier, hTier⟩
          rw [hNone] at hRetained
          exact absurd hRetained List.not_mem_nil
        rw [hNone]
        funext id
        rw [hKeep id]
        rfl
      · rcases List.exists_mem_of_ne_nil _ hNone with
          ⟨item, hItem⟩
        have hNewest := newest_mem_retained hItems hItem
        exact
          getItemsToRetain_filter
            (isRetained location retention items) hItems
            (List.mem_filter.mp hNewest).2
            (fun _ _ hKeeps => hKeeps)

/-
  Neither the order of the list nor the items that are not
  kept matter, and every tier keeps the newest item of each of
  its newest periods in its window.
-/
theorem retained_set_is_stable
    (location : Location)
    (retention : GfsRetention)
    (items : List Item) :
    (∀ items' : List Item,
      items'.Perm items →
        getItemsToRetain location items' retention =
          getItemsToRetain location items retention) ∧
      (∀ id tier,
        tier ∈ getItemsToRetain location items retention id ↔
          ∃ item ∈ items,
            item.id = id ∧
              IsKeptBy location retention items tier
                item) ∧
      getItemsToRetain location
          (retained location retention items) retention =
        getItemsToRetain location items retention ∧
      retained location retention
          (retained location retention items) =
        retained location retention items := by
  refine ⟨?_, ?_, getItemsToRetain_retained items, ?_⟩
  · intro items' hPerm
    unfold getItemsToRetain
    rw [sortNewestFirst_of_perm hPerm]
  · exact mem_getItemsToRetain_iff location retention items
  · apply List.filter_eq_self.mpr
    intro item hItem
    unfold isRetained
    rw [getItemsToRetain_retained]
    exact (List.mem_filter.mp hItem).2

end Gfs

end Databasus
