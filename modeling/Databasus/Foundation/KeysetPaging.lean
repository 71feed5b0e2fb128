import Databasus.Foundation.WindowFunctions

/-
  Pages of a list that is read from the greatest key down.

  A page holds the next rows below a position, and the position
  after it is the key of its last row.  Where no two rows share
  a key, the pages that follow one another spell out the list.

  Main declarations:
    * `Paging.pageAfter`
    * `Paging.followPages`
    * `Paging.followPages_eq_take`
    * `Paging.followPages_perm`
-/

------------------------------------------------------------
-- Pages
------------------------------------------------------------

namespace Foundation

namespace Paging

open Window

variable {ρ ι : Type}
variable [LinearOrder ι]

/- A row lies below a position, if one is given. -/
def isAfter
    (key : ρ → ι)
    (after : Option ι)
    (row : ρ) : Bool :=
  after.all fun position => key row < position

def pageAfter
    (key : ρ → ι)
    (rows : List ρ)
    (after : Option ι)
    (limit : Nat) : List ρ :=
  (orderByDesc key (rows.filter (isAfter key after))).take
    limit

/- The last key of a page; an empty page keeps the position. -/
def nextAfter
    (key : ρ → ι)
    (after : Option ι)
    (page : List ρ) : Option ι :=
  match page.getLast? with
  | some row => some (key row)
  | none => after

/- The rows of the pages with these limits, page by page. -/
def followPages
    (key : ρ → ι)
    (rows : List ρ) : Option ι → List Nat → List ρ
  | _, [] => []
  | after, limit :: limits =>
      let page := pageAfter key rows after limit
      page ++
        followPages key rows (nextAfter key after page)
          limits

------------------------------------------------------------
-- Positions
------------------------------------------------------------

variable {key : ρ → ι}
variable {rows : List ρ}
variable {after : Option ι}
variable {count : Nat}

/- Selecting rows first or ordering them first is the same. -/
theorem orderByDesc_filter
    (hDistinct : (rows.map key).Nodup)
    (selects : ρ → Bool) :
    orderByDesc key (rows.filter selects) =
      (orderByDesc key rows).filter selects := by
  have hSelected : ((rows.filter selects).map key).Nodup :=
    hDistinct.sublist (List.filter_sublist.map key)
  have hPerm :
      (orderByDesc key (rows.filter selects)).Perm
        ((orderByDesc key rows).filter selects) :=
    orderByDesc_perm.trans
      (orderByDesc_perm.symm.filter selects)
  refine List.Perm.eq_of_pairwise ?_
    (orderByDesc_strict hSelected)
    ((orderByDesc_strict hDistinct).filter selects) hPerm
  intro first second _ _ hLt hGt
  exact absurd hLt (lt_asymm hGt)

/- A position with this many rows of the list above it. -/
def IsAt
    (key : ρ → ι)
    (rows : List ρ)
    (after : Option ι)
    (count : Nat) : Prop :=
  (orderByDesc key rows).filter (isAfter key after) =
    (orderByDesc key rows).drop count

theorem isAt_none :
    IsAt key rows none 0 := by
  unfold IsAt isAfter
  simp

theorem pageAfter_eq
    (hDistinct : (rows.map key).Nodup)
    (hAt : IsAt key rows after count)
    (limit : Nat) :
    pageAfter key rows after limit =
      ((orderByDesc key rows).drop count).take limit := by
  unfold pageAfter
  rw [orderByDesc_filter hDistinct, hAt]

/- The position after a page has the page's rows above it. -/
theorem IsAt.next
    (hDistinct : (rows.map key).Nodup)
    (hAt : IsAt key rows after count)
    (limit : Nat) :
    IsAt key rows
      (nextAfter key after
        (pageAfter key rows after limit))
      (count + limit) := by
  rw [pageAfter_eq hDistinct hAt]
  have hStrict := orderByDesc_strict hDistinct
  unfold IsAt at hAt ⊢
  unfold nextAfter
  generalize orderByDesc key rows = sorted at *
  cases hLast : ((sorted.drop count).take limit).getLast? with
  | none =>
      rw [List.getLast?_eq_none_iff] at hLast
      rw [hAt, ← List.drop_drop]
      have hSplit :=
        List.take_append_drop limit (sorted.drop count)
      rw [hLast, List.nil_append] at hSplit
      exact hSplit.symm
  | some row =>
      rcases List.getLast?_eq_some_iff.mp hLast with
        ⟨page, hPage⟩
      have hSorted :
          sorted =
            (sorted.take count ++ page) ++
              row :: sorted.drop (count + limit) := by
        calc
          sorted =
              sorted.take count ++ sorted.drop count :=
            (List.take_append_drop count sorted).symm
          _ = sorted.take count ++
                ((page ++ [row]) ++
                  (sorted.drop count).drop limit) := by
            rw [← hPage, List.take_append_drop limit]
          _ = (sorted.take count ++ page) ++
                row :: sorted.drop (count + limit) := by
            rw [List.drop_drop]
            simp only [List.append_assoc,
              List.singleton_append]
      generalize sorted.take count ++ page = above at *
      generalize sorted.drop (count + limit) = below at *
      subst hSorted
      rcases List.pairwise_append.mp hStrict with
        ⟨_, hBelow, hAcross⟩
      have hAboveNone :
          (above.filter (isAfter key (some (key row)))) =
            [] := by
        rw [List.filter_eq_nil_iff]
        intro other hOther
        have hLt := hAcross other hOther row List.mem_cons_self
        simpa [isAfter] using le_of_lt hLt
      have hBelowAll :
          (below.filter (isAfter key (some (key row)))) =
            below := by
        rw [List.filter_eq_self]
        intro other hOther
        have hLt := List.rel_of_pairwise_cons hBelow hOther
        simpa [isAfter] using hLt
      rw [List.filter_append, hAboveNone,
        List.filter_cons_of_neg (by simp [isAfter]),
        hBelowAll, List.nil_append]

/- The pages from a position on are the rows from there on. -/
theorem followPages_eq_drop
    (hDistinct : (rows.map key).Nodup)
    (hAt : IsAt key rows after count)
    (limits : List Nat) :
    followPages key rows after limits =
      ((orderByDesc key rows).drop count).take
        limits.sum := by
  induction limits generalizing after count with
  | nil => simp [followPages]
  | cons limit limits ih =>
      rw [followPages, ih (hAt.next hDistinct limit),
        pageAfter_eq hDistinct hAt, List.sum_cons,
        List.take_add, List.drop_drop]

/- The pages from the start are the first of the list. -/
theorem followPages_eq_take
    (hDistinct : (rows.map key).Nodup)
    (limits : List Nat) :
    followPages key rows none limits =
      (orderByDesc key rows).take limits.sum := by
  rw [followPages_eq_drop hDistinct isAt_none,
    List.drop_zero]

/- Pages that reach the end hold every row once. -/
theorem followPages_perm
    {limits : List Nat}
    (hDistinct : (rows.map key).Nodup)
    (hEnough : rows.length ≤ limits.sum) :
    (followPages key rows none limits).Perm rows := by
  have hLength :
      (orderByDesc key rows).length ≤ limits.sum := by
    rw [orderByDesc_perm.length_eq]
    exact hEnough
  rw [followPages_eq_take hDistinct,
    List.take_of_length_le hLength]
  exact orderByDesc_perm

end Paging

end Foundation
