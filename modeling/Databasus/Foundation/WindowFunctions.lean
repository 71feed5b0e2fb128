import Mathlib.Algebra.GroupWithZero.Nat
import Mathlib.Data.List.Dedup
import Mathlib.Data.List.MinMax
import Mathlib.Data.List.Perm.Basic
import Mathlib.Data.List.Sort
import Mathlib.Order.MinMax

/-
  Window functions of queries over lists of rows.

  A window splits the rows by a key and puts each part in the
  order of another key.  Along a part, `lag` gives each row the
  row before it, and `runningSum` the sum of a value up to and
  with it.

  Main declarations:
    * `Window.orderBy`
    * `Window.lag`
    * `Window.runningSum`
    * `Window.overParts`
    * `Window.previous_of_mem_lag`
    * `Window.runningSum_eq_iff`
    * `Window.mem_overParts_iff`
-/

------------------------------------------------------------
-- Order
------------------------------------------------------------

namespace Foundation

namespace Window

variable {α ι : Type}
variable [LinearOrder ι]
variable {key : α → ι}
variable {rows : List α}
variable {row : α}
variable {others : List α}
variable {before after : List α}

def orderBy
    (key : α → ι)
    (rows : List α) : List α :=
  rows.insertionSort fun first second =>
    key first ≤ key second

def orderByDesc
    (key : α → ι)
    (rows : List α) : List α :=
  rows.insertionSort fun first second =>
    key second ≤ key first

/- The keys of the rows rise strictly. -/
def IsOrdered
    (key : α → ι)
    (rows : List α) : Prop :=
  rows.Pairwise fun first second => key first < key second

theorem orderBy_perm :
    (orderBy key rows).Perm rows :=
  List.perm_insertionSort _ rows

theorem orderByDesc_perm :
    (orderByDesc key rows).Perm rows :=
  List.perm_insertionSort _ rows

@[simp]
theorem mem_orderBy :
    row ∈ orderBy key rows ↔ row ∈ rows :=
  List.mem_insertionSort _

theorem pairwise_orderBy :
    (orderBy key rows).Pairwise fun first second =>
      key first ≤ key second := by
  have hTotal :
      Std.Total fun first second : α =>
        key first ≤ key second :=
    ⟨fun first second => le_total (key first) (key second)⟩
  have hTrans :
      IsTrans α fun first second =>
        key first ≤ key second :=
    ⟨fun _ _ _ => le_trans⟩
  exact List.pairwise_insertionSort _ rows

theorem pairwise_orderByDesc :
    (orderByDesc key rows).Pairwise fun first second =>
      key second ≤ key first := by
  have hTotal :
      Std.Total fun first second : α =>
        key second ≤ key first :=
    ⟨fun first second => le_total (key second) (key first)⟩
  have hTrans :
      IsTrans α fun first second =>
        key second ≤ key first :=
    ⟨fun _ _ _ hFirst hSecond => le_trans hSecond hFirst⟩
  exact List.pairwise_insertionSort _ rows

/- Rows whose keys all differ come in strict order. -/
theorem isOrdered_orderBy
    (hDistinct : (rows.map key).Nodup) :
    IsOrdered key (orderBy key rows) := by
  have hOrderedKeys : ((orderBy key rows).map key).Nodup :=
    (orderBy_perm.map key).nodup_iff.mpr hDistinct
  have hDiffer :
      (orderBy key rows).Pairwise fun first second =>
        key first ≠ key second :=
    List.pairwise_map.mp hOrderedKeys
  exact (pairwise_orderBy.and hDiffer).imp
    fun hBoth => lt_of_le_of_ne hBoth.1 hBoth.2

theorem orderByDesc_strict
    (hDistinct : (rows.map key).Nodup) :
    (orderByDesc key rows).Pairwise fun first second =>
      key second < key first := by
  have hKeys : ((orderByDesc key rows).map key).Nodup :=
    (orderByDesc_perm.map key).nodup_iff.mpr hDistinct
  exact (pairwise_orderByDesc.and
    (List.pairwise_map.mp hKeys)).imp
      fun hBoth => lt_of_le_of_ne hBoth.1 (Ne.symm hBoth.2)

theorem orderByDesc_eq_reverse
    (hDistinct : (rows.map key).Nodup) :
    orderByDesc key rows = (orderBy key rows).reverse := by
  refine List.Perm.eq_of_pairwise ?_
    (orderByDesc_strict hDistinct)
    (List.pairwise_reverse.mpr (isOrdered_orderBy hDistinct))
    (orderByDesc_perm.trans
      (orderBy_perm.symm.trans
        (List.reverse_perm _).symm))
  intro first second _ _ hLt hGt
  exact absurd hLt (lt_asymm hGt)

/- A value that a row takes and none undercuts. -/
theorem min?_map_eq
    (key : α → ι)
    (hRow : row ∈ rows)
    (hLeast : ∀ other ∈ rows, key row ≤ key other) :
    (rows.map key).min? = some (key row) := by
  have hMin : Std.LawfulOrderMin ι :=
    { min_eq_or := min_choice
      le_min_iff := fun _ _ _ => le_min_iff }
  rw [List.min?_eq_some_iff]
  refine ⟨List.mem_map_of_mem hRow, ?_⟩
  intro value hValue
  rcases List.mem_map.mp hValue with ⟨other, hOther, rfl⟩
  exact hLeast other hOther

theorem max?_map_eq
    (key : α → ι)
    (hRow : row ∈ rows)
    (hGreatest : ∀ other ∈ rows, key other ≤ key row) :
    (rows.map key).max? = some (key row) := by
  have hMax : Std.LawfulOrderMax ι :=
    { max_eq_or := max_choice
      max_le_iff := fun _ _ _ => max_le_iff }
  rw [List.max?_eq_some_iff]
  refine ⟨List.mem_map_of_mem hRow, ?_⟩
  intro value hValue
  rcases List.mem_map.mp hValue with ⟨other, hOther, rfl⟩
  exact hGreatest other hOther

/- The order of the rows does not change their least key. -/
theorem exists_min?_map
    (key : α → ι)
    (hRows : rows ≠ [])
    (hPerm : rows.Perm others) :
    ∃ least,
      (rows.map key).min? = some least ∧
        (others.map key).min? = some least := by
  cases hLeast : rows.argmin key with
  | none => exact absurd (List.argmin_eq_none.mp hLeast) hRows
  | some row =>
      have hMember := List.argmin_mem hLeast
      refine ⟨key row, min?_map_eq key hMember ?_,
        min?_map_eq key (hPerm.mem_iff.mp hMember) ?_⟩
      · intro other hOther
        exact List.le_of_mem_argmin hOther hLeast
      · intro other hOther
        exact List.le_of_mem_argmin
          (hPerm.mem_iff.mpr hOther) hLeast

theorem exists_max?_map
    (key : α → ι)
    (hRows : rows ≠ [])
    (hPerm : rows.Perm others) :
    ∃ greatest,
      (rows.map key).max? = some greatest ∧
        (others.map key).max? = some greatest := by
  cases hGreatest : rows.argmax key with
  | none =>
      exact absurd (List.argmax_eq_none.mp hGreatest) hRows
  | some row =>
      have hMember := List.argmax_mem hGreatest
      refine ⟨key row, max?_map_eq key hMember ?_,
        max?_map_eq key (hPerm.mem_iff.mp hMember) ?_⟩
      · intro other hOther
        exact List.le_of_mem_argmax hOther hGreatest
      · intro other hOther
        exact List.le_of_mem_argmax
          (hPerm.mem_iff.mpr hOther) hGreatest

/- Rows that are in order stay as they are. -/
theorem orderBy_eq_self
    (hOrdered : IsOrdered key rows) :
    orderBy key rows = rows :=
  List.Pairwise.insertionSort_eq (hOrdered.imp le_of_lt)

/- An ordered list is determined by what it holds. -/
theorem IsOrdered.eq_orderBy
    (hOrdered : IsOrdered key rows)
    (hPerm : rows.Perm others) :
    orderBy key others = rows := by
  have hDistinct : (others.map key).Nodup := by
    rw [← (hPerm.map key).nodup_iff]
    exact List.pairwise_map.mpr
      (hOrdered.imp fun hLt => ne_of_lt hLt)
  have hOthers := isOrdered_orderBy hDistinct
  refine List.Perm.eq_of_pairwise ?_ hOthers hOrdered
    (orderBy_perm.trans hPerm.symm)
  intro first second _ _ hLt hGt
  exact absurd hLt (lt_asymm hGt)

/- The rows around one of them, in strict order. -/
theorem IsOrdered.mem_before_iff
    {row other : α}
    (hOrdered : IsOrdered key (before ++ row :: after)) :
    other ∈ before ↔
      other ∈ before ++ row :: after ∧
        key other < key row := by
  rcases List.pairwise_append.mp hOrdered with
    ⟨_, hAfter, hAcross⟩
  constructor
  · intro hBefore
    exact ⟨List.mem_append_left _ hBefore,
      hAcross other hBefore row List.mem_cons_self⟩
  · rintro ⟨hOther, hLt⟩
    rcases List.mem_append.mp hOther with hBefore | hRest
    · exact hBefore
    · rcases List.mem_cons.mp hRest with rfl | hLater
      · exact absurd hLt (lt_irrefl _)
      · exact absurd hLt
          (lt_asymm (List.rel_of_pairwise_cons hAfter hLater))

theorem IsOrdered.mem_after_iff
    {row other : α}
    (hOrdered : IsOrdered key (before ++ row :: after)) :
    other ∈ after ↔
      other ∈ before ++ row :: after ∧
        key row < key other := by
  rcases List.pairwise_append.mp hOrdered with
    ⟨_, hAfter, hAcross⟩
  constructor
  · intro hLater
    exact ⟨List.mem_append_right _
        (List.mem_cons_of_mem _ hLater),
      List.rel_of_pairwise_cons hAfter hLater⟩
  · rintro ⟨hOther, hLt⟩
    rcases List.mem_append.mp hOther with hBefore | hRest
    · exact absurd hLt
        (lt_asymm
          (hAcross other hBefore row List.mem_cons_self))
    · rcases List.mem_cons.mp hRest with rfl | hLater
      · exact absurd hLt (lt_irrefl _)
      · exact hLater

end Window

end Foundation

------------------------------------------------------------
-- The Row Before
------------------------------------------------------------

namespace Foundation

namespace Window

variable {α ι : Type}
variable {row : α}
variable {previous : Option α}

def lagFrom : Option α → List α → List (α × Option α)
  | _, [] => []
  | previous, row :: rows =>
      (row, previous) :: lagFrom (some row) rows

/- Each row with the row before it. -/
def lag
    (rows : List α) : List (α × Option α) :=
  lagFrom none rows

theorem map_fst_lagFrom
    (start : Option α)
    (rows : List α) :
    (lagFrom start rows).map Prod.fst = rows := by
  induction rows generalizing start with
  | nil => rfl
  | cons row rows ih => rw [lagFrom, List.map_cons, ih]

theorem map_fst_lag
    (rows : List α) :
    (lag rows).map Prod.fst = rows :=
  map_fst_lagFrom none rows

theorem mem_lagFrom
    {start previous : Option α}
    {rows : List α}
    (hRow : (row, previous) ∈ lagFrom start rows) :
    ∃ before after,
      rows = before ++ row :: after ∧
        previous = before.getLast?.or start := by
  induction rows generalizing start with
  | nil => cases hRow
  | cons head rows ih =>
      rw [lagFrom] at hRow
      rcases List.mem_cons.mp hRow with hHead | hRest
      · rcases Prod.mk.inj hHead with ⟨rfl, rfl⟩
        exact ⟨[], rows, rfl, rfl⟩
      · rcases ih hRest with ⟨before, after, hRows, hLast⟩
        refine ⟨head :: before, after, ?_, ?_⟩
        · rw [hRows, List.cons_append]
        · rw [hLast, List.getLast?_cons]
          cases before.getLast? <;> rfl

variable [LinearOrder ι]
variable {key : α → ι}
variable {rows : List α}

/- The last of the rows that lie before a row, if any. -/
def IsPrevious
    (key : α → ι)
    (rows : List α)
    (row : α) : Option α → Prop
  | none => ∀ other ∈ rows, key row ≤ key other
  | some previous =>
      previous ∈ rows ∧ key previous < key row ∧
        ∀ other ∈ rows, key other < key row →
          key other ≤ key previous

theorem previous_of_mem_lag
    (hOrdered : IsOrdered key rows)
    (hRow : (row, previous) ∈ lag rows) :
    IsPrevious key rows row previous := by
  rcases mem_lagFrom hRow with
    ⟨before, after, rfl, hPrevious⟩
  rw [Option.or_none] at hPrevious
  subst hPrevious
  cases hLast : before.getLast? with
  | none =>
      rw [List.getLast?_eq_none_iff] at hLast
      subst hLast
      intro other hOther
      by_contra hLt
      have hBefore :=
        hOrdered.mem_before_iff.mpr
          ⟨hOther, not_le.mp hLt⟩
      cases hBefore
  | some previous =>
      rcases List.getLast?_eq_some_iff.mp hLast with
        ⟨earlier, hBefore⟩
      subst hBefore
      have hPrevious : previous ∈ earlier ++ [previous] := by
        simp
      rcases hOrdered.mem_before_iff.mp hPrevious with
        ⟨hMember, hLt⟩
      refine ⟨hMember, hLt, ?_⟩
      intro other hOther hOtherLt
      have hEarlier :=
        hOrdered.mem_before_iff.mpr ⟨hOther, hOtherLt⟩
      rcases List.mem_append.mp hEarlier with hOld | hSame
      · exact le_of_lt
          ((List.pairwise_append.mp
            (List.pairwise_append.mp hOrdered).1).2.2
              other hOld previous (by simp))
      · rw [List.mem_singleton.mp hSame]

/- Every row has its place in the lag. -/
theorem exists_mem_lag
    (hRow : row ∈ rows) :
    ∃ previous, (row, previous) ∈ lag rows := by
  rw [← map_fst_lag rows] at hRow
  rcases List.mem_map.mp hRow with
    ⟨⟨_, previous⟩, hPair, rfl⟩
  exact ⟨previous, hPair⟩

theorem fst_mem_of_mem_lag
    (hRow : (row, previous) ∈ lag rows) :
    row ∈ rows := by
  rw [← map_fst_lag rows]
  exact List.mem_map.mpr ⟨_, hRow, rfl⟩

/- Fewer rows lie before a row than before a later one. -/
theorem length_filter_lt
    {row later : α}
    (hRow : row ∈ rows)
    (hLt : key row < key later) :
    (rows.filter fun other => key other < key row).length <
      (rows.filter fun other =>
        key other < key later).length := by
  have hFilter :
      (rows.filter fun other => key other < key row) =
        (rows.filter fun other =>
          key other < key later).filter fun other =>
            key other < key row := by
    rw [List.filter_filter]
    apply List.filter_congr
    intro other _
    by_cases hOther : key other < key row
    · simp [hOther, lt_trans hOther hLt]
    · simp [hOther]
  rw [hFilter, List.length_filter_lt_length_iff_exists]
  exact ⟨row, by simp [hRow, hLt], by simp⟩

/- What holds along the lag holds from row to row. -/
theorem isChain_of_lag
    {R : α → α → Prop}
    (hLag :
      ∀ row previous,
        (row, some previous) ∈ lag rows → R previous row) :
    rows.IsChain R := by
  unfold lag at hLag
  generalize none = start at hLag
  induction rows generalizing start with
  | nil => exact List.IsChain.nil
  | cons first rest ih =>
      cases rest with
      | nil => exact List.IsChain.singleton first
      | cons second rest =>
          rw [List.isChain_cons_cons]
          refine ⟨hLag second first ?_, ih (some first) ?_⟩
          · simp [lagFrom]
          · intro row previous hRow
            exact hLag row previous
              (List.mem_cons_of_mem _ hRow)

/-
  What passes from each row to the next passes from one row
  to every row after it, as far as a last one.
-/
theorem IsOrdered.lag_induction
    {P : α → Prop}
    {first last : α}
    (hOrdered : IsOrdered key rows)
    (hFirst : first ∈ rows)
    (hStart : P first)
    (hStep :
      ∀ row previous,
        (row, some previous) ∈ lag rows →
          key first ≤ key previous →
            key row ≤ key last →
              P previous → P row)
    (row : α)
    (hRow : row ∈ rows)
    (hAfter : key first ≤ key row)
    (hBefore : key row ≤ key last) :
    P row := by
  -- Fewer rows lie before the previous row than before a row.
  induction hCount :
      (rows.filter fun other => key other < key row).length
    using Nat.strong_induction_on generalizing row with
  | _ count ih =>
      rcases exists_mem_lag hRow with ⟨previous, hLag⟩
      have hPrevious := previous_of_mem_lag hOrdered hLag
      by_cases hSame : key row ≤ key first
      · have hEq : row = first := by
          by_contra hNe
          have hDistinct :=
            hOrdered.imp (fun hLt => ne_of_lt hLt)
          have hKeys : (rows.map key).Nodup :=
            List.pairwise_map.mpr hDistinct
          exact hNe (List.inj_on_of_nodup_map hKeys hRow
            hFirst (le_antisymm hSame hAfter))
        rw [hEq]
        exact hStart
      · have hLt : key first < key row := not_le.mp hSame
        cases previous with
        | none =>
            exact absurd (hPrevious first hFirst)
              (not_le.mpr hLt)
        | some previous =>
            rcases hPrevious with
              ⟨hMember, hPreviousLt, hGreatest⟩
            have hFrom := hGreatest first hFirst hLt
            refine hStep row previous hLag hFrom hBefore
              (ih _ ?_ previous hMember hFrom
                (le_of_lt
                  (lt_of_lt_of_le hPreviousLt hBefore)) rfl)
            rw [← hCount]
            exact length_filter_lt hMember hPreviousLt

end Window

end Foundation

------------------------------------------------------------
-- Running Sums
------------------------------------------------------------

namespace Foundation

namespace Window

variable {α ι : Type}
variable {rows : List α}
variable {row : α}
variable {total : Nat}
variable {first second : α}
variable {firstTotal secondTotal : Nat}

def runningSumFrom
    (value : α → Nat) : Nat → List α → List (α × Nat)
  | _, [] => []
  | total, row :: rows =>
      (row, total + value row) ::
        runningSumFrom value (total + value row) rows

/- Each row with the sum of the values up to and with it. -/
def runningSum
    (value : α → Nat)
    (rows : List α) : List (α × Nat) :=
  runningSumFrom value 0 rows

theorem map_fst_runningSumFrom
    (value : α → Nat)
    (total : Nat)
    (rows : List α) :
    (runningSumFrom value total rows).map Prod.fst =
      rows := by
  induction rows generalizing total with
  | nil => rfl
  | cons row rows ih => rw [runningSumFrom, List.map_cons, ih]

theorem map_fst_runningSum
    (value : α → Nat)
    (rows : List α) :
    (runningSum value rows).map Prod.fst = rows :=
  map_fst_runningSumFrom value 0 rows

variable {value : α → Nat}

theorem fst_mem_of_mem_runningSum
    (hRow : (row, total) ∈ runningSum value rows) :
    row ∈ rows := by
  rw [← map_fst_runningSum value rows]
  exact List.mem_map.mpr ⟨_, hRow, rfl⟩

theorem mem_runningSumFrom
    {start total : Nat}
    (hRow : (row, total) ∈ runningSumFrom value start rows) :
    ∃ before after,
      rows = before ++ row :: after ∧
        total =
          start + (before.map value).sum + value row := by
  induction rows generalizing start with
  | nil => cases hRow
  | cons head rows ih =>
      rw [runningSumFrom] at hRow
      rcases List.mem_cons.mp hRow with hHead | hRest
      · rcases Prod.mk.inj hHead with ⟨rfl, rfl⟩
        exact ⟨[], rows, rfl, by simp⟩
      · rcases ih hRest with ⟨before, after, hRows, hTotal⟩
        refine ⟨head :: before, after, ?_, ?_⟩
        · rw [hRows, List.cons_append]
        · rw [hTotal, List.map_cons, List.sum_cons]
          omega

variable [LinearOrder ι]
variable {key : α → ι}
variable {rows : List α}

/- The sum at a row, from the values of the rows up to it. -/
theorem runningSum_eq_sum
    (hOrdered : IsOrdered key rows)
    (hRow : (row, total) ∈ runningSum value rows) :
    total =
      ((rows.filter fun other =>
        key other ≤ key row).map value).sum := by
  rcases mem_runningSumFrom hRow with
    ⟨before, after, rfl, hTotal⟩
  have hBefore :
      (before.filter fun other => key other ≤ key row) =
        before := by
    rw [List.filter_eq_self]
    intro other hOther
    exact decide_eq_true
      (le_of_lt (hOrdered.mem_before_iff.mp hOther).2)
  have hAfter :
      (after.filter fun other => key other ≤ key row) =
        [] := by
    rw [List.filter_eq_nil_iff]
    intro other hOther
    simpa using (hOrdered.mem_after_iff.mp hOther).2
  rw [hTotal, List.filter_append, hBefore,
    List.filter_cons_of_pos (by simp), hAfter,
    List.map_append, List.sum_append]
  simp

/- A later row's sum adds the values of the rows between. -/
theorem runningSum_eq_add
    (hOrdered : IsOrdered key rows)
    (hFirst : (first, firstTotal) ∈ runningSum value rows)
    (hSecond :
      (second, secondTotal) ∈ runningSum value rows)
    (hLe : key first ≤ key second) :
    secondTotal =
      firstTotal +
        ((rows.filter fun row =>
          key first < key row ∧ key row ≤ key second).map
            value).sum := by
  rw [runningSum_eq_sum hOrdered hFirst,
    runningSum_eq_sum hOrdered hSecond,
    ← List.sum_append, ← List.map_append]
  apply List.Perm.sum_nat
  apply List.Perm.map
  have hSplit :=
    List.filter_append_perm
      (fun row => decide (key row ≤ key first))
      (rows.filter fun row => key row ≤ key second)
  refine hSplit.symm.trans (List.Perm.of_eq ?_)
  rw [List.filter_filter, List.filter_filter]
  congr 1
  · apply List.filter_congr
    intro row _
    by_cases hRow : key row ≤ key first
    · simp [hRow, le_trans hRow hLe]
    · simp [hRow]
  · apply List.filter_congr
    intro row _
    simp [Bool.decide_and, ← not_le]

theorem runningSum_mono
    (hOrdered : IsOrdered key rows)
    (hFirst : (first, firstTotal) ∈ runningSum value rows)
    (hSecond :
      (second, secondTotal) ∈ runningSum value rows)
    (hLe : key first ≤ key second) :
    firstTotal ≤ secondTotal := by
  rw [runningSum_eq_add hOrdered hFirst hSecond hLe]
  exact Nat.le_add_right _ _

/- Sums agree where the rows between add nothing. -/
theorem runningSum_eq_iff
    (hOrdered : IsOrdered key rows)
    (hFirst : (first, firstTotal) ∈ runningSum value rows)
    (hSecond :
      (second, secondTotal) ∈ runningSum value rows)
    (hLe : key first ≤ key second) :
    firstTotal = secondTotal ↔
      ∀ row ∈ rows, key first < key row →
        key row ≤ key second → value row = 0 := by
  have hSum := runningSum_eq_add hOrdered hFirst hSecond hLe
  constructor
  · intro hEq row hRow hAfter hBefore
    have hZero :
        ((rows.filter fun row =>
          key first < key row ∧ key row ≤ key second).map
            value).sum = 0 := by
      omega
    rw [List.sum_eq_zero_iff_forall_eq_nat] at hZero
    apply hZero
    exact List.mem_map.mpr
      ⟨row, by simp [hRow, hAfter, hBefore], rfl⟩
  · intro hZero
    have hNothing :
        ((rows.filter fun row =>
          key first < key row ∧ key row ≤ key second).map
            value).sum = 0 := by
      rw [List.sum_eq_zero_iff_forall_eq_nat]
      intro added hAdded
      rcases List.mem_map.mp hAdded with ⟨row, hRow, rfl⟩
      rw [List.mem_filter, decide_eq_true_eq] at hRow
      exact hZero row hRow.1 hRow.2.1 hRow.2.2
    omega

end Window

end Foundation

------------------------------------------------------------
-- Partitions
------------------------------------------------------------

namespace Foundation

namespace Window

variable {α β κ ι : Type}
variable [DecidableEq κ]
variable {part : α → κ}
variable {along : List α → List β}

/- The rows of each key, the keys as they first appear. -/
def partitions
    (part : α → κ)
    (rows : List α) : List (List α) :=
  (rows.map part).dedup.map fun value =>
    rows.filter fun row => part row = value

/- The rows that share a row's key. -/
def partOf
    (part : α → κ)
    (rows : List α)
    (row : α) : List α :=
  rows.filter fun other => part other = part row

variable {rows : List α}

theorem mem_partOf_iff
    {row other : α} :
    other ∈ partOf part rows row ↔
      other ∈ rows ∧ part other = part row := by
  rw [partOf, List.mem_filter, decide_eq_true_eq]

theorem partOf_congr
    {first second : α}
    (hPart : part first = part second) :
    partOf part rows first = partOf part rows second := by
  unfold partOf
  rw [hPart]

theorem mem_partitions_iff
    {group : List α} :
    group ∈ partitions part rows ↔
      ∃ row ∈ rows, group = partOf part rows row := by
  unfold partitions partOf
  rw [List.mem_map]
  constructor
  · rintro ⟨value, hValue, rfl⟩
    rw [List.mem_dedup] at hValue
    rcases List.mem_map.mp hValue with ⟨row, hRow, rfl⟩
    exact ⟨row, hRow, rfl⟩
  · rintro ⟨row, hRow, rfl⟩
    refine ⟨part row, ?_, rfl⟩
    rw [List.mem_dedup]
    exact List.mem_map_of_mem hRow

/- What holds of the parts of different keys. -/
theorem pairwise_partitions
    {R : List α → List α → Prop}
    (hParts :
      ∀ first ∈ rows, ∀ second ∈ rows,
        part first ≠ part second →
          R (partOf part rows first)
            (partOf part rows second)) :
    (partitions part rows).Pairwise R := by
  unfold partitions
  rw [List.pairwise_map]
  refine List.Pairwise.imp_of_mem ?_
    (List.nodup_dedup (rows.map part))
  intro first second hFirst hSecond hNe
  rcases List.mem_map.mp (List.mem_dedup.mp hFirst) with
    ⟨firstRow, hFirstRow, rfl⟩
  rcases List.mem_map.mp (List.mem_dedup.mp hSecond) with
    ⟨secondRow, hSecondRow, rfl⟩
  exact hParts firstRow hFirstRow secondRow hSecondRow hNe

/- Keys that differ and cover the rows split them. -/
theorem flatMap_filter_perm
    {values : List κ}
    (hDistinct : values.Nodup)
    (hCover : ∀ row ∈ rows, part row ∈ values) :
    (values.flatMap fun value =>
      rows.filter fun row => part row = value).Perm rows := by
  induction values generalizing rows with
  | nil =>
      have hEmpty : rows = [] := by
        rw [List.eq_nil_iff_forall_not_mem]
        intro row hRow
        cases hCover row hRow
      rw [hEmpty]
      rfl
  | cons value values ih =>
      rcases List.nodup_cons.mp hDistinct with
        ⟨hNew, hRest⟩
      have hOthers :
          ∀ row ∈ rows.filter fun row =>
              !decide (part row = value),
            part row ∈ values := by
        intro row hRow
        rw [List.mem_filter] at hRow
        rcases List.mem_cons.mp (hCover row hRow.1) with
          hSame | hOther
        · simp [hSame] at hRow
        · exact hOther
      have hTail :
          (values.flatMap fun other =>
              rows.filter fun row => part row = other) =
            values.flatMap fun other =>
              (rows.filter fun row =>
                !decide (part row = value)).filter fun row =>
                  part row = other := by
        apply List.flatMap_congr
        intro other hOther
        rw [List.filter_filter]
        apply List.filter_congr
        intro row _
        by_cases hRow : part row = other
        · have hNe : other ≠ value := by
            rintro rfl
            exact hNew hOther
          simp [hRow, hNe]
        · simp [hRow]
      rw [List.flatMap_cons, hTail]
      exact ((ih hRest hOthers).append_left _).trans
        (List.filter_append_perm
          (fun row => decide (part row = value)) rows)

theorem flatten_partitions_perm
    (part : α → κ)
    (rows : List α) :
    (partitions part rows).flatten.Perm rows := by
  unfold partitions
  rw [← List.flatMap_def]
  apply flatMap_filter_perm (List.nodup_dedup _)
  intro row hRow
  rw [List.mem_dedup]
  exact List.mem_map_of_mem hRow

variable [LinearOrder ι]
variable {key : α → ι}

/- A function along the ordered rows of each part. -/
def overParts
    (part : α → κ)
    (key : α → ι)
    (along : List α → List β)
    (rows : List α) : List β :=
  (partitions part rows).flatMap fun group =>
    along (orderBy key group)

theorem mem_overParts_iff
    {value : β} :
    value ∈ overParts part key along rows ↔
      ∃ row ∈ rows,
        value ∈
          along (orderBy key (partOf part rows row)) := by
  unfold overParts
  rw [List.mem_flatMap]
  constructor
  · rintro ⟨group, hGroup, hValue⟩
    rcases mem_partitions_iff.mp hGroup with
      ⟨row, hRow, rfl⟩
    exact ⟨row, hRow, hValue⟩
  · rintro ⟨row, hRow, hValue⟩
    exact ⟨_, mem_partitions_iff.mpr ⟨row, hRow, rfl⟩,
      hValue⟩

/- What keeps the rows along each part keeps them in all. -/
theorem map_overParts_perm
    {row : β → α}
    (hAlong : ∀ group, (along group).map row = group) :
    ((overParts part key along rows).map row).Perm rows := by
  unfold overParts
  rw [List.map_flatMap]
  refine List.Perm.trans ?_
    (flatten_partitions_perm part rows)
  rw [List.flatten_eq_flatMap]
  apply List.Perm.flatMap_left
  intro group _
  rw [hAlong]
  exact orderBy_perm

end Window

end Foundation
