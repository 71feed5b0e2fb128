import Databasus.Foundation.Json

/-
  The layouts of a JSON text that are read as one value.

  A value may have spaces before it, and before what follows
  it.  What is said of a text here is said for any fuel that
  its length allows, so layouts are put together from parts.

  Main declarations:
    * `Json.IsValueOf`
    * `Json.isValueOf_arr`
    * `Json.isValueOf_obj`
    * `Json.parse_of_isValueOf`
    * `Json.parse_render`
-/

------------------------------------------------------------
-- Layouts
------------------------------------------------------------

namespace Foundation

namespace Json

variable {gap : List Char}
variable {c : Char}
variable {written : List Char}
variable {member : List Char × Json}
variable {value : Json}
variable {item : Json}
variable {items : List Json}
variable {members : List (List Char × Json)}

/- Nothing but spaces. -/
def Spaces (gap : List Char) : Prop :=
  ∀ c ∈ gap, isSpace c = true

/- What is read as a value, before anything that ends one. -/
def IsValueOf
    (written : List Char)
    (value : Json) : Prop :=
  ∀ (fuel : Nat) (rest : List Char),
    written.length ≤ fuel →
      Ends rest →
        readValue fuel (written ++ rest) = some (value, rest)

/- What is read as a member, before anything that ends one. -/
def IsMemberOf
    (written : List Char)
    (member : List Char × Json) : Prop :=
  ∀ (fuel : Nat) (rest : List Char),
    written.length ≤ fuel →
      Ends rest →
        readMember fuel (written ++ rest) =
          some (member, rest)

/- What is read as items, with the bracket behind them. -/
def AreItemsOf
    (written : List Char)
    (items : List Json) : Prop :=
  ∀ (fuel : Nat) (rest : List Char),
    written.length ≤ fuel →
      readItems fuel (written ++ rest) = some (items, rest)

def AreMembersOf
    (written : List Char)
    (members : List (List Char × Json)) : Prop :=
  ∀ (fuel : Nat) (rest : List Char),
    written.length ≤ fuel →
      readMembers fuel (written ++ rest) =
        some (members, rest)

theorem spaces_nil : Spaces [] := by
  intro c hChar
  cases hChar

theorem skipSpace_append
    (hGap : Spaces gap)
    (rest : List Char) :
    skipSpace (gap ++ rest) = skipSpace rest :=
  List.dropWhile_append_of_pos hGap

theorem ends_append
    {gap rest : List Char}
    (hGap : Spaces gap)
    (hStops : Stops rest) :
    Ends (gap ++ rest) := by
  unfold Ends
  rw [skipSpace_append hGap, skipSpace_of_stops hStops]
  exact hStops

theorem stops_cons
    (hStop : c = ',' ∨ c = ']' ∨ c = '}')
    (rest : List Char) :
    Stops (c :: rest) := by
  intro first hHead
  obtain rfl : c = first := Option.some.inj hHead
  exact hStop

/- After a value, the spaces before a stop are skipped. -/
theorem skipSpace_stop
    (hGap : Spaces gap)
    (hStop : c = ',' ∨ c = ']' ∨ c = '}')
    (rest : List Char) :
    skipSpace (gap ++ c :: rest) = c :: rest := by
  rw [skipSpace_append hGap]
  exact skipSpace_of_stops (stops_cons hStop rest)

theorem stops_nil : Stops [] := by
  intro c hHead
  cases hHead

theorem ends_nil : Ends [] :=
  stops_nil

theorem isMemberOf_length_pos
    (hMember : IsMemberOf written member) :
    0 < written.length := by
  rw [List.length_pos_iff]
  rintro rfl
  have hRead := hMember 0 [] (Nat.le_refl 0) ends_nil
  cases hRead

theorem isValueOf_length_pos
    (hValue : IsValueOf written value) :
    0 < written.length := by
  rw [List.length_pos_iff]
  rintro rfl
  have hRead := hValue 0 [] (Nat.le_refl 0) ends_nil
  cases hRead

/- Spaces before a value are skipped. -/
theorem IsValueOf.spaced
    {gap written : List Char}
    (hGap : Spaces gap)
    (hValue : IsValueOf written value) :
    IsValueOf (gap ++ written) value := by
  intro fuel rest hLength hEnds
  rw [List.length_append] at hLength
  have hRead := hValue fuel rest (by omega) hEnds
  cases fuel with
  | zero =>
      have hPositive := isValueOf_length_pos hValue
      omega
  | succ fuel =>
      rw [readValue] at hRead ⊢
      rw [List.append_assoc, skipSpace_append hGap]
      exact hRead

theorem isValueOf_str
    {written text : List Char}
    (hText : IsTextOf written text) :
    IsValueOf ('\"' :: (written ++ ['\"'])) (.str text) := by
  intro fuel rest hLength _
  simp only [List.length_cons, List.length_append,
    List.length_nil] at hLength
  cases fuel with
  | zero => omega
  | succ fuel =>
      have hRead := hText fuel rest (by omega)
      rw [List.cons_append, List.append_assoc,
        List.cons_append, List.nil_append, readValue,
        skipSpace_cons (by decide)]
      simp [hRead]

theorem areItemsOf_singleton
    {written gap : List Char}
    (hItem : IsValueOf written item)
    (hGap : Spaces gap) :
    AreItemsOf (written ++ (gap ++ [']'])) [item] := by
  intro fuel rest hLength
  simp only [List.length_append, List.length_cons,
    List.length_nil] at hLength
  have hStop := skipSpace_stop hGap (.inr (.inl rfl)) rest
  have hEnds :=
    ends_append hGap (stops_cons (.inr (.inl rfl)) rest)
  cases fuel with
  | zero => omega
  | succ fuel =>
      have hRead :=
        hItem fuel (gap ++ ']' :: rest) (by omega) hEnds
      rw [readItems, List.append_assoc, List.append_assoc,
        List.cons_append, List.nil_append, hRead]
      simp only [Option.bind_eq_bind, Option.bind_some, hStop]
      rw [if_pos trivial]

theorem AreItemsOf.cons
    {written gap more : List Char}
    (hItem : IsValueOf written item)
    (hGap : Spaces gap)
    (hItems : AreItemsOf more items) :
    AreItemsOf (written ++ (gap ++ ',' :: more))
      (item :: items) := by
  intro fuel rest hLength
  simp only [List.length_append, List.length_cons] at hLength
  have hPositive := isValueOf_length_pos hItem
  have hStop := skipSpace_stop hGap (.inl rfl) (more ++ rest)
  have hEnds :=
    ends_append hGap (stops_cons (.inl rfl) (more ++ rest))
  cases fuel with
  | zero => omega
  | succ fuel =>
      have hRead :=
        hItem fuel (gap ++ ',' :: (more ++ rest)) (by omega)
          hEnds
      have hRest := hItems fuel rest (by omega)
      rw [readItems, List.append_assoc, List.append_assoc,
        List.cons_append, hRead]
      simp only [Option.bind_eq_bind, Option.bind_some, hStop]
      rw [if_neg (by decide), if_pos trivial, hRest]
      rfl

/- A member begins with the quote of its name. -/
theorem IsMemberOf.head
    (hMember : IsMemberOf written member) :
    ∃ more, written = '\"' :: more := by
  have hRead :=
    hMember written.length [] (Nat.le_refl _) ends_nil
  cases written with
  | nil => cases hRead
  | cons c more =>
      rw [List.length_cons, readMember] at hRead
      split at hRead
      · next hHead =>
          refine ⟨more, ?_⟩
          rw [Option.some.inj hHead]
      · cases hRead

theorem skipSpace_member
    {lead written : List Char}
    (hLead : Spaces lead)
    (hMember : IsMemberOf written member)
    (rest : List Char) :
    skipSpace (lead ++ (written ++ rest)) =
      written ++ rest := by
  rcases hMember.head with ⟨more, rfl⟩
  rw [skipSpace_append hLead]
  exact skipSpace_cons (by decide) _

theorem areMembersOf_singleton
    {lead written gap : List Char}
    (hLead : Spaces lead)
    (hMember : IsMemberOf written member)
    (hGap : Spaces gap) :
    AreMembersOf (lead ++ (written ++ (gap ++ ['}'])))
      [member] := by
  intro fuel rest hLength
  simp only [List.length_append, List.length_cons,
    List.length_nil] at hLength
  have hStop := skipSpace_stop hGap (.inr (.inr rfl)) rest
  have hEnds :=
    ends_append hGap (stops_cons (.inr (.inr rfl)) rest)
  cases fuel with
  | zero => omega
  | succ fuel =>
      have hRead :=
        hMember fuel (gap ++ '}' :: rest) (by omega) hEnds
      simp only [List.append_assoc, List.cons_append,
        List.nil_append]
      rw [readMembers, skipSpace_member hLead hMember, hRead]
      simp only [Option.bind_eq_bind, Option.bind_some, hStop]
      rw [if_pos trivial]

theorem AreMembersOf.cons
    {lead written gap more : List Char}
    (hLead : Spaces lead)
    (hMember : IsMemberOf written member)
    (hGap : Spaces gap)
    (hMembers : AreMembersOf more members) :
    AreMembersOf (lead ++ (written ++ (gap ++ ',' :: more)))
      (member :: members) := by
  intro fuel rest hLength
  simp only [List.length_append, List.length_cons] at hLength
  have hPositive := isMemberOf_length_pos hMember
  have hStop := skipSpace_stop hGap (.inl rfl) (more ++ rest)
  have hEnds :=
    ends_append hGap (stops_cons (.inl rfl) (more ++ rest))
  cases fuel with
  | zero => omega
  | succ fuel =>
      have hRead :=
        hMember fuel (gap ++ ',' :: (more ++ rest)) (by omega)
          hEnds
      have hRest := hMembers fuel rest (by omega)
      simp only [List.append_assoc, List.cons_append]
      rw [readMembers, skipSpace_member hLead hMember, hRead]
      simp only [Option.bind_eq_bind, Option.bind_some, hStop]
      rw [if_neg (by decide), if_pos trivial, hRest]
      rfl

/- A name, a colon and a value, with spaces between. -/
theorem isMemberOf_pair
    {named name gap written : List Char}
    (hName : IsTextOf named name)
    (hGap : Spaces gap)
    (hValue : IsValueOf written value) :
    IsMemberOf
      ('\"' :: (named ++ '\"' :: (gap ++ ':' :: written)))
      (name, value) := by
  intro fuel rest hLength hEnds
  simp only [List.length_append, List.length_cons] at hLength
  have hColon :
      skipSpace (gap ++ ':' :: (written ++ rest)) =
        ':' :: (written ++ rest) := by
    rw [skipSpace_append hGap]
    exact skipSpace_cons (by decide) _
  cases fuel with
  | zero => omega
  | succ fuel =>
      have hReadName :=
        hName fuel (gap ++ ':' :: (written ++ rest)) (by omega)
      have hRead := hValue fuel rest (by omega) hEnds
      simp only [List.cons_append, List.append_assoc]
      rw [readMember, if_pos List.head?_cons, List.tail_cons,
        hReadName]
      simp only [Option.bind_eq_bind, Option.bind_some, hColon]
      rw [if_pos List.head?_cons, List.tail_cons, hRead]
      rfl

/- No value begins with a closing bracket. -/
theorem readValue_bracket
    {input : List Char}
    (hHead : (skipSpace input).head? = some ']')
    (fuel : Nat) :
    readValue fuel input = none := by
  cases fuel with
  | zero => rfl
  | succ fuel =>
      cases hInput : skipSpace input with
      | nil =>
          rw [hInput] at hHead
          cases hHead
      | cons c rest =>
          rw [hInput] at hHead
          obtain rfl : c = ']' := Option.some.inj hHead
          rw [readValue, hInput]
          simp [readInt, readNat]

theorem AreItemsOf.head
    (hItems : AreItemsOf written items)
    (rest : List Char) :
    (skipSpace (written ++ rest)).head? ≠ some ']' := by
  intro hHead
  have hRead := hItems written.length rest (Nat.le_refl _)
  cases hLength : written.length with
  | zero =>
      rw [hLength] at hRead
      cases hRead
  | succ fuel =>
      rw [hLength, readItems, readValue_bracket hHead] at hRead
      cases hRead

theorem isValueOf_arr
    (hItems : AreItemsOf written items) :
    IsValueOf ('[' :: written) (.arr items) := by
  intro fuel rest hLength _
  rw [List.length_cons] at hLength
  cases fuel with
  | zero => omega
  | succ fuel =>
      have hRead := hItems fuel rest (by omega)
      rw [List.cons_append, readValue,
        skipSpace_cons (by decide)]
      simp only
      rw [if_neg (by decide), if_pos trivial,
        if_neg (hItems.head rest), hRead]
      rfl

theorem isValueOf_arr_nil
    (hGap : Spaces gap) :
    IsValueOf ('[' :: (gap ++ [']'])) (.arr []) := by
  intro fuel rest hLength _
  have hStop := skipSpace_stop hGap (.inr (.inl rfl)) rest
  cases fuel with
  | zero => cases hLength
  | succ fuel =>
      simp only [List.cons_append, List.append_assoc,
        List.nil_append]
      rw [readValue, skipSpace_cons (by decide)]
      simp only
      rw [if_neg (by decide), if_pos trivial, hStop,
        if_pos List.head?_cons, List.tail_cons]

theorem AreMembersOf.head
    (hMembers : AreMembersOf written members)
    (rest : List Char) :
    (skipSpace (written ++ rest)).head? ≠ some '}' := by
  intro hHead
  have hRead := hMembers written.length rest (Nat.le_refl _)
  have hQuote :
      ¬ (skipSpace (written ++ rest)).head? = some '\"' := by
    rw [hHead]
    decide
  rcases hLength : written.length with _ | _ | fuel
  · rw [hLength] at hRead
    cases hRead
  · rw [hLength, readMembers, readMember] at hRead
    cases hRead
  · rw [hLength, readMembers, readMember, if_neg hQuote]
      at hRead
    cases hRead

theorem isValueOf_obj
    (hMembers : AreMembersOf written members) :
    IsValueOf ('{' :: written) (.obj members) := by
  intro fuel rest hLength _
  rw [List.length_cons] at hLength
  cases fuel with
  | zero => omega
  | succ fuel =>
      have hRead := hMembers fuel rest (by omega)
      rw [List.cons_append, readValue,
        skipSpace_cons (by decide)]
      simp only
      rw [if_neg (by decide), if_neg (by decide),
        if_pos trivial, if_neg (hMembers.head rest), hRead]
      rfl

theorem isValueOf_obj_nil
    (hGap : Spaces gap) :
    IsValueOf ('{' :: (gap ++ ['}'])) (.obj []) := by
  intro fuel rest hLength _
  have hStop := skipSpace_stop hGap (.inr (.inr rfl)) rest
  cases fuel with
  | zero => cases hLength
  | succ fuel =>
      simp only [List.cons_append, List.append_assoc,
        List.nil_append]
      rw [readValue, skipSpace_cons (by decide)]
      simp only
      rw [if_neg (by decide), if_neg (by decide),
        if_pos trivial, hStop, if_pos List.head?_cons,
        List.tail_cons]

/- A value is read from a text of its own. -/
theorem parse_of_isValueOf
    {written gap : List Char}
    (hValue : IsValueOf written value)
    (hGap : Spaces gap) :
    parse (written ++ gap) = some value := by
  have hEnds : Ends gap := by
    have hEnd := ends_append hGap stops_nil
    rw [List.append_nil] at hEnd
    exact hEnd
  have hLast : skipSpace gap = [] := by
    have hSkip := skipSpace_append hGap []
    rw [List.append_nil] at hSkip
    exact hSkip
  have hRead :=
    hValue ((written ++ gap).length + 1) gap
      (by rw [List.length_append]; omega) hEnds
  unfold parse
  rw [hRead]
  simp only [hLast, if_true]

------------------------------------------------------------
-- Values Read Back
------------------------------------------------------------

/- No digit or sign is a space or opens anything. -/
theorem renderInt_head
    (value : Int) :
    ∃ c rest,
      renderInt value = c :: rest ∧
        (c.isDigit = true ∨ c = '-') := by
  cases value with
  | ofNat n =>
      cases hDigits : Nat.toDigits 10 n with
      | nil => exact absurd hDigits Nat.toDigits_ne_nil
      | cons digit digits =>
          refine ⟨digit, digits, hDigits, Or.inl ?_⟩
          apply
            Nat.isDigit_of_mem_toDigits
              (b := 10) (n := n) (by omega) (by omega)
          rw [hDigits]
          exact List.mem_cons_self
  | negSucc n => exact ⟨_, _, rfl, Or.inr rfl⟩

theorem isSpace_of_isDigit
    (hDigit : c.isDigit = true) :
    isSpace c = false := by
  by_contra hSpace
  simp only [isSpace, Bool.not_eq_false, Bool.or_eq_true,
    decide_eq_true_eq] at hSpace
  rcases hSpace with ((rfl | rfl) | rfl) | rfl <;>
    exact absurd hDigit (by decide)

theorem isValueOf_num
    (value : Int) :
    IsValueOf (renderInt value) (.num value) := by
  intro fuel rest hLength hEnds
  have hRead := readInt_renderInt value hEnds
  rcases renderInt_head value with ⟨c, more, hHead, hC⟩
  rw [hHead, List.length_cons] at hLength
  rw [hHead, List.cons_append] at hRead
  have hSpace : isSpace c = false := by
    rcases hC with hDigit | rfl
    · exact isSpace_of_isDigit hDigit
    · decide
  have hOther :
      c ≠ '\"' ∧ c ≠ '[' ∧ c ≠ '{' ∧ c ≠ 'n' ∧ c ≠ 't' ∧
        c ≠ 'f' := by
    rcases hC with hDigit | rfl
    · refine ⟨?_, ?_, ?_, ?_, ?_, ?_⟩ <;> rintro rfl <;>
        exact absurd hDigit (by decide)
    · decide
  rcases hOther with
    ⟨hQuote, hArr, hObj, hNull, hTrue, hFalse⟩
  cases fuel with
  | zero => omega
  | succ fuel =>
      rw [hHead, List.cons_append, readValue,
        skipSpace_cons hSpace]
      simp only
      rw [if_neg hQuote, if_neg hArr, if_neg hObj,
        if_neg hNull, if_neg hTrue, if_neg hFalse, hRead]
      rfl

theorem isTextOf_render
    (text : List Char) :
    IsTextOf (text.flatMap renderChar) text :=
  isTextOf_flatMap fun c _ => isEscapeOf_renderChar c

mutual

theorem isValueOf_render :
    (value : Json) → IsValueOf (render value) value
  | .null => by
      intro fuel rest hLength _
      cases fuel with
      | zero => cases hLength
      | succ fuel =>
          simp [readValue, render, skipSpace, isSpace, readWord]
  | .bool value => by
      intro fuel rest hLength _
      cases fuel with
      | zero => cases value <;> cases hLength
      | succ fuel =>
          cases value <;>
            simp [readValue, render, skipSpace, isSpace,
              readWord]
  | .num value => by
      rw [render]
      exact isValueOf_num value
  | .str text => by
      rw [render, renderText]
      exact isValueOf_str (isTextOf_render text)
  | .arr [] => by
      rw [render]
      exact isValueOf_arr_nil spaces_nil
  | .arr (item :: items) => by
      rw [render]
      exact isValueOf_arr (areItemsOf_render item items)
  | .obj [] => by
      rw [render]
      exact isValueOf_obj_nil spaces_nil
  | .obj (member :: members) => by
      rw [render]
      exact isValueOf_obj (areMembersOf_render member members)
termination_by value => sizeOf value

theorem areItemsOf_render :
    (item : Json) →
      (items : List Json) →
        AreItemsOf (render item ++ renderItems items)
          (item :: items)
  | item, [] => by
      rw [renderItems]
      exact
        areItemsOf_singleton (isValueOf_render item) spaces_nil
  | item, next :: items => by
      rw [renderItems]
      exact
        AreItemsOf.cons (isValueOf_render item) spaces_nil
          (areItemsOf_render next items)
termination_by item items => sizeOf item + sizeOf items

theorem areMembersOf_render :
    (member : List Char × Json) →
      (members : List (List Char × Json)) →
        AreMembersOf
          (renderMember member ++ renderMembers members)
          (member :: members)
  | member, [] => by
      rw [renderMembers]
      exact
        areMembersOf_singleton spaces_nil
          (isMemberOf_render member) spaces_nil
  | member, next :: members => by
      rw [renderMembers]
      exact
        AreMembersOf.cons spaces_nil (isMemberOf_render member)
          spaces_nil (areMembersOf_render next members)
termination_by member members => sizeOf member + sizeOf members

theorem isMemberOf_render :
    (member : List Char × Json) →
      IsMemberOf (renderMember member) member
  | (name, value) => by
      rw [renderMember, renderText]
      have hMember :=
        isMemberOf_pair (isTextOf_render name) spaces_nil
          (isValueOf_render value)
      simpa using hMember
termination_by member => sizeOf member

end

/- The text of a value is read as that value. -/
theorem parse_render
    (value : Json) :
    parse (render value) = some value := by
  have hRead :=
    parse_of_isValueOf (isValueOf_render value) spaces_nil
  rw [List.append_nil] at hRead
  exact hRead

end Json

end Foundation
