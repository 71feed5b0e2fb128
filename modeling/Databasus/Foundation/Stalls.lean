import Mathlib.Algebra.Order.Group.Defs
import Mathlib.Data.Nat.Find

/-
  Stalls of an archive behind the source that it copies.

  A sample raises the archive when it lies above all earlier
  ones.  After the last raise a stall begins with the first
  sample at which the source has moved on, and it lasts until
  the archive is raised again.

  A report is due once in every stall that has lasted for a
  threshold.

  Main declarations:
    * `Stalls.Raises`
    * `Stalls.BeganAt`
    * `Stalls.beganAt_succ_iff`
    * `Stalls.IsDue`
    * `Stalls.eq_of_due`
    * `Stalls.exists_due`
-/

------------------------------------------------------------
-- Raises and Stalls
------------------------------------------------------------

namespace Foundation

namespace Stalls

variable {α : Type}
variable [LinearOrder α]

/- Nothing precedes the first sample: it raises the archive. -/
def Raises
    (archive : Nat → α)
    (i : Nat) : Prop :=
  ∀ j < i, archive j < archive i

/- The source lies above where the sample before it was. -/
def Writes
    (source : Nat → α) : Nat → Prop
  | 0 => False
  | i + 1 => source i < source (i + 1)

def AfterLastRaise
    (archive : Nat → α)
    (n i : Nat) : Prop :=
  i ≤ n ∧ ∀ r, i ≤ r → r ≤ n → ¬ Raises archive r

/- The stall that lasts at a sample began with another one. -/
def BeganAt
    (source archive : Nat → α)
    (n start : Nat) : Prop :=
  AfterLastRaise archive n start ∧
    Writes source start ∧
    ∀ i < start,
      AfterLastRaise archive n i → ¬ Writes source i

/- The highest position of the samples so far. -/
def highest
    (archive : Nat → α) : Nat → α
  | 0 => archive 0
  | n + 1 => max (highest archive n) (archive (n + 1))

------------------------------------------------------------
-- One More Sample
------------------------------------------------------------

variable {source archive : Nat → α}
variable {n : Nat}

theorem highest_lt_iff
    (bound : α)
    (n : Nat) :
    highest archive n < bound ↔
      ∀ j < n + 1, archive j < bound := by
  induction n with
  | zero =>
      unfold highest
      simp only [Nat.zero_add, Nat.lt_one_iff, forall_eq]
  | succ n ih =>
      unfold highest
      rw [max_lt_iff, ih]
      constructor
      · rintro ⟨hEarlier, hLast⟩ j hBelow
        rcases Nat.lt_succ_iff_lt_or_eq.mp hBelow with
          hLess | rfl
        · exact hEarlier j hLess
        · exact hLast
      · intro hAll
        exact
          ⟨fun j hBelow => hAll j (Nat.lt_succ_of_lt hBelow),
            hAll (n + 1) (Nat.lt_succ_self _)⟩

/- A sample is compared with the highest one so far. -/
theorem raises_succ_iff
    (n : Nat) :
    Raises archive (n + 1) ↔
      highest archive n < archive (n + 1) :=
  (highest_lt_iff (archive (n + 1)) n).symm

theorem afterLastRaise_succ_iff
    (hNoRaise : ¬ Raises archive (n + 1))
    (i : Nat) :
    AfterLastRaise archive (n + 1) i ↔
      AfterLastRaise archive n i ∨ i = n + 1 := by
  constructor
  · rintro ⟨hBound, hNone⟩
    rcases Nat.le_succ_iff.mp hBound with hEarlier | hLast
    · refine Or.inl ⟨hEarlier, ?_⟩
      intro r hFrom hTo
      exact hNone r hFrom (Nat.le_succ_of_le hTo)
    · exact Or.inr hLast
  · rintro (⟨hBound, hNone⟩ | rfl)
    · refine ⟨Nat.le_succ_of_le hBound, ?_⟩
      intro r hFrom hTo
      rcases Nat.le_succ_iff.mp hTo with hEarlier | rfl
      · exact hNone r hFrom hEarlier
      · exact hNoRaise
    · refine ⟨Nat.le_refl _, ?_⟩
      intro r hFrom hTo
      rw [Nat.le_antisymm hTo hFrom]
      exact hNoRaise

/- A raise ends the stall. -/
theorem not_beganAt_of_raises
    {n start : Nat}
    (hRaise : Raises archive n) :
    ¬ BeganAt source archive n start := by
  rintro ⟨⟨hBound, hNone⟩, _, _⟩
  exact hNone n hBound (Nat.le_refl n) hRaise

theorem not_beganAt_zero
    {start : Nat} :
    ¬ BeganAt source archive 0 start := by
  apply not_beganAt_of_raises
  intro j hBelow
  exact absurd hBelow (Nat.not_lt_zero j)

theorem BeganAt.unique
    {n first second : Nat}
    (hFirst : BeganAt source archive n first)
    (hSecond : BeganAt source archive n second) :
    first = second := by
  rcases hFirst with ⟨hFirstAfter, hFirstWrites, hFirstLeast⟩
  rcases hSecond with
    ⟨hSecondAfter, hSecondWrites, hSecondLeast⟩
  rcases Nat.lt_trichotomy first second with
    hLess | hSame | hMore
  · exact
      absurd hFirstWrites (hSecondLeast first hLess hFirstAfter)
  · exact hSame
  · exact
      absurd hSecondWrites
        (hFirstLeast second hMore hSecondAfter)

/- A source that moved since the last raise is in a stall. -/
theorem exists_beganAt
    {n i : Nat}
    (hAfter : AfterLastRaise archive n i)
    (hWrites : Writes source i) :
    ∃ start, BeganAt source archive n start := by
  classical
  have hSome :
      ∃ j, AfterLastRaise archive n j ∧ Writes source j :=
    ⟨i, hAfter, hWrites⟩
  refine ⟨Nat.find hSome, (Nat.find_spec hSome).1,
    (Nat.find_spec hSome).2, ?_⟩
  intro j hLess hOther hMoved
  exact Nat.find_min hSome hLess ⟨hOther, hMoved⟩

/- The stall goes on, or one begins with the new sample. -/
theorem beganAt_succ_iff
    (hNoRaise : ¬ Raises archive (n + 1))
    (start : Nat) :
    BeganAt source archive (n + 1) start ↔
      BeganAt source archive n start ∨
        (∀ other, ¬ BeganAt source archive n other) ∧
          start = n + 1 ∧ Writes source (n + 1) := by
  have hAfterIff := afterLastRaise_succ_iff hNoRaise
  constructor
  · rintro ⟨hAfter, hWrites, hLeast⟩
    rcases (hAfterIff start).mp hAfter with hEarlier | rfl
    · refine Or.inl ⟨hEarlier, hWrites, ?_⟩
      intro i hLess hOther
      exact hLeast i hLess ((hAfterIff i).mpr (Or.inl hOther))
    · refine Or.inr ⟨?_, rfl, hWrites⟩
      rintro other ⟨hOther, hMoved, _⟩
      exact
        hLeast other (Nat.lt_succ_of_le hOther.1)
          ((hAfterIff other).mpr (Or.inl hOther)) hMoved
  · rintro (⟨hAfter, hWrites, hLeast⟩ | ⟨hNone, rfl, hWrites⟩)
    · refine
        ⟨(hAfterIff start).mpr (Or.inl hAfter), hWrites, ?_⟩
      intro i hLess hOther
      rcases (hAfterIff i).mp hOther with hEarlier | rfl
      · exact hLeast i hLess hEarlier
      · exact absurd (hAfter.1.trans_lt (Nat.lt_succ_self n))
          (Nat.lt_asymm hLess)
    · refine ⟨(hAfterIff _).mpr (Or.inr rfl), hWrites, ?_⟩
      intro i hLess hOther hMoved
      rcases (hAfterIff i).mp hOther with hEarlier | rfl
      · rcases exists_beganAt hEarlier hMoved with
          ⟨other, hBegan⟩
        exact hNone other hBegan
      · exact Nat.lt_irrefl _ hLess

/- A stall that lasts began as early at the samples between. -/
theorem BeganAt.earlier
    {n start middle : Nat}
    (hBegan : BeganAt source archive n start)
    (hFrom : start ≤ middle)
    (hTo : middle ≤ n) :
    BeganAt source archive middle start := by
  rcases hBegan with ⟨⟨_, hNone⟩, hWrites, hLeast⟩
  refine ⟨⟨hFrom, ?_⟩, hWrites, ?_⟩
  · intro r hAfter hBefore
    exact hNone r hAfter (hBefore.trans hTo)
  · rintro i hLess ⟨_, hNoRaise⟩
    apply hLeast i hLess
    refine ⟨hLess.le.trans (hFrom.trans hTo), ?_⟩
    intro r hAfter hBefore
    rcases Nat.le_total r middle with hInside | hPast
    · exact hNoRaise r hAfter hInside
    · exact hNone r (hFrom.trans hPast) hBefore

end Stalls

end Foundation

------------------------------------------------------------
-- Reports
------------------------------------------------------------

namespace Foundation

namespace Stalls

variable {α τ : Type}
variable [LinearOrder α]
variable [AddCommGroup τ] [LinearOrder τ]

/- The stall has lasted, and nothing in it was reported. -/
def IsDue
    (source archive : Nat → α)
    (observed : Nat → τ)
    (threshold : τ)
    (reported : Nat → Prop)
    (n : Nat) : Prop :=
  ∃ start,
    BeganAt source archive n start ∧
      start < n ∧
      threshold ≤ observed n - observed start ∧
      ∀ k, start < k → k < n → ¬ reported k

variable {source archive : Nat → α}
variable {observed : Nat → τ}
variable {threshold : τ}
variable {reported : Nat → Prop}

/- Nothing is due where no stall began before. -/
theorem not_isDue
    {n : Nat}
    (hNone :
      ∀ start < n, ¬ BeganAt source archive n start) :
    ¬ IsDue source archive observed threshold reported n := by
  rintro ⟨start, hBegan, hLess, _⟩
  exact hNone start hLess hBegan

/- In a stall a report is due by when it began. -/
theorem isDue_iff
    {n start : Nat}
    (hBegan : BeganAt source archive n start)
    (hLess : start < n) :
    IsDue source archive observed threshold reported n ↔
      threshold ≤ observed n - observed start ∧
        ∀ k, start < k → k < n → ¬ reported k := by
  constructor
  · rintro ⟨other, hOther, _, hLasts, hNone⟩
    rcases hOther.unique hBegan with rfl
    exact ⟨hLasts, hNone⟩
  · rintro ⟨hLasts, hNone⟩
    exact ⟨start, hBegan, hLess, hLasts, hNone⟩

/- A stall is reported once at most. -/
theorem eq_of_due
    (hReported :
      ∀ n, reported n →
        IsDue source archive observed threshold reported n)
    {n k start : Nat}
    (hFirst : reported n)
    (hSecond : reported k)
    (hFirstBegan : BeganAt source archive n start)
    (hSecondBegan : BeganAt source archive k start) :
    n = k := by
  rcases hReported n hFirst with
    ⟨first, hFirst', hFirstLess, _, hFirstNone⟩
  rcases hReported k hSecond with
    ⟨second, hSecond', hSecondLess, _, hSecondNone⟩
  have hFirstStart := hFirst'.unique hFirstBegan
  have hSecondStart := hSecond'.unique hSecondBegan
  subst hFirstStart
  subst hSecondStart
  rcases Nat.lt_trichotomy n k with hLess | hSame | hMore
  · exact absurd hFirst (hSecondNone n hFirstLess hLess)
  · exact hSame
  · exact absurd hSecond (hFirstNone k hSecondLess hMore)

/- A stall that lasts for the threshold is reported. -/
theorem exists_due
    (hReported :
      ∀ n,
        IsDue source archive observed threshold reported n →
          reported n)
    {n start : Nat}
    (hBegan : BeganAt source archive n start)
    (hLess : start < n)
    (hLasts : threshold ≤ observed n - observed start) :
    ∃ k,
      start < k ∧ k ≤ n ∧ reported k ∧
        BeganAt source archive k start := by
  by_cases hBefore :
      ∃ k, start < k ∧ k < n ∧ reported k
  · rcases hBefore with ⟨k, hFrom, hTo, hMade⟩
    exact
      ⟨k, hFrom, hTo.le, hMade, hBegan.earlier hFrom.le hTo.le⟩
  · refine ⟨n, hLess, Nat.le_refl n, ?_, hBegan⟩
    apply hReported
    refine ⟨start, hBegan, hLess, hLasts, ?_⟩
    intro k hFrom hTo hMade
    exact hBefore ⟨k, hFrom, hTo, hMade⟩

end Stalls

end Foundation
