import Mathlib.Data.List.Dedup
import Mathlib.Data.List.Induction
import Mathlib.Data.List.Perm.Subperm

/-
  The first of each bucket, as far as a limit and a window go.

  A rule walks a list once.  It takes a value that lies in its
  window and whose key it has not taken yet, until it has taken
  as many as its limit.  When the values of the list leave the
  window only once, what the rule takes depends on the list
  alone: on the keys of the values before.

  Main declarations:
    * `BucketRule.claims`
    * `BucketRule.progress`
    * `BucketRule.claims_progress_iff`
-/

------------------------------------------------------------
-- Rules
------------------------------------------------------------

namespace Foundation

structure BucketRule (α κ : Type) where
  limit : Int
  key : α → κ
  isInside : α → Bool

/- The keys that a rule has taken, and how many. -/
structure BucketProgress (κ : Type) where
  seen : List κ := []
  kept : Int := 0
deriving DecidableEq, Repr

namespace BucketRule

variable {α κ : Type}
variable [DecidableEq κ]

def claims
    (rule : BucketRule α κ)
    (progress : BucketProgress κ)
    (value : α) : Bool :=
  0 < rule.limit && progress.kept < rule.limit &&
    !progress.seen.contains (rule.key value) &&
      rule.isInside value

def advance
    (rule : BucketRule α κ)
    (progress : BucketProgress κ)
    (value : α) : BucketProgress κ :=
  if rule.claims progress value then
    { seen := rule.key value :: progress.seen
      kept := progress.kept + 1 }
  else
    progress

/- What the rule has taken after the given values. -/
def progress
    (rule : BucketRule α κ)
    (values : List α) : BucketProgress κ :=
  values.foldl rule.advance {}

variable {rule : BucketRule α κ}
variable {progress : BucketProgress κ}
variable {values : List α}
variable {value : α}

theorem claims_iff :
    rule.claims progress value = true ↔
      0 < rule.limit ∧ progress.kept < rule.limit ∧
        rule.key value ∉ progress.seen ∧
          rule.isInside value = true := by
  simp [claims, and_assoc]

theorem advance_of_not_claims
    (hClaims : rule.claims progress value = false) :
    rule.advance progress value = progress := by
  simp [advance, hClaims]

/-
  The keys taken are keys of the values, each once.  A value
  in the window has its key taken, or the limit is reached.
-/
structure IsProgressOf
    (rule : BucketRule α κ)
    (values : List α)
    (progress : BucketProgress κ) : Prop where
  count : progress.kept = progress.seen.length
  nodup : progress.seen.Nodup
  subset : progress.seen ⊆ values.map rule.key
  covers :
    ∀ value ∈ values, rule.isInside value = true →
      progress.kept < rule.limit →
        rule.key value ∈ progress.seen

theorem IsProgressOf.advance
    (hProgress : IsProgressOf rule values progress)
    (value : α) :
    IsProgressOf rule (values ++ [value])
      (rule.advance progress value) := by
  unfold BucketRule.advance
  split
  · next hClaims =>
      rcases claims_iff.mp hClaims with
        ⟨_, hLimit, hNew, hInside⟩
      refine
        { count := ?_
          nodup := List.nodup_cons.mpr ⟨hNew, hProgress.nodup⟩
          subset := ?_
          covers := ?_ }
      · simp [hProgress.count]
      · intro key hKey
        rw [List.map_append, List.mem_append]
        rcases List.mem_cons.mp hKey with rfl | hOld
        · right
          simp
        · exact Or.inl (hProgress.subset hOld)
      · intro other hOther hOtherInside hBelow
        rcases List.mem_append.mp hOther with hOld | hLast
        · exact
            List.mem_cons_of_mem _
              (hProgress.covers other hOld hOtherInside hLimit)
        · rw [List.mem_singleton.mp hLast]
          exact List.mem_cons_self
  · next hClaims =>
      refine
        { count := hProgress.count
          nodup := hProgress.nodup
          subset := ?_
          covers := ?_ }
      · intro key hKey
        rw [List.map_append, List.mem_append]
        exact Or.inl (hProgress.subset hKey)
      · intro other hOther hOtherInside hBelow
        rcases List.mem_append.mp hOther with hOld | hLast
        · exact hProgress.covers other hOld hOtherInside hBelow
        · rw [List.mem_singleton.mp hLast] at hOtherInside ⊢
          by_contra hNew
          apply hClaims
          have hPositive : 0 < rule.limit := by
            have hCount := hProgress.count
            omega
          exact
            claims_iff.mpr
              ⟨hPositive, hBelow, hNew, hOtherInside⟩

theorem isProgressOf_progress
    (rule : BucketRule α κ)
    (values : List α) :
    IsProgressOf rule values (rule.progress values) := by
  induction values using List.reverseRecOn with
  | nil =>
      exact
        { count := rfl
          nodup := List.nodup_nil
          subset := fun _ hKey => hKey
          covers := fun _ hMember =>
            absurd hMember List.not_mem_nil }
  | append_singleton values value ih =>
      unfold BucketRule.progress at ih ⊢
      rw [List.foldl_append]
      exact ih.advance value

/- A rule takes the first of a bucket, and so many buckets. -/
theorem claims_progress_iff
    (hInside :
      ∀ before ∈ values, rule.isInside value = true →
        rule.isInside before = true) :
    rule.claims (rule.progress values) value = true ↔
      rule.isInside value = true ∧
        rule.key value ∉ values.map rule.key ∧
          ((values.map rule.key).dedup.length : Int) <
            rule.limit := by
  have hProgress := isProgressOf_progress rule values
  rw [claims_iff]
  constructor
  · rintro ⟨_, hBelow, hNew, hValue⟩
    have hSeen :
        ∀ key,
          key ∈ values.map rule.key →
            key ∈ (rule.progress values).seen := by
      intro key hKey
      rcases List.mem_map.mp hKey with ⟨before, hBefore, rfl⟩
      exact
        hProgress.covers before hBefore
          (hInside before hBefore hValue) hBelow
    refine ⟨hValue, fun hKey => hNew (hSeen _ hKey), ?_⟩
    have hLength :
        (values.map rule.key).dedup.length ≤
          (rule.progress values).seen.length := by
      apply
        (List.subperm_of_subset (List.nodup_dedup _) _).length_le
      intro key hKey
      exact hSeen key (List.mem_dedup.mp hKey)
    have hCount := hProgress.count
    omega
  · rintro ⟨hValue, hNew, hBelow⟩
    have hLength :
        (rule.progress values).seen.length ≤
          (values.map rule.key).dedup.length := by
      apply (List.subperm_of_subset hProgress.nodup _).length_le
      intro key hKey
      exact List.mem_dedup.mpr (hProgress.subset hKey)
    have hCount := hProgress.count
    refine ⟨by omega, by omega, ?_, hValue⟩
    intro hSeen
    exact hNew (hProgress.subset hSeen)

end BucketRule

end Foundation
