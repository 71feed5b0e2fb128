import Databasus.Download.UserStream
import Databasus.Foundation.CappedLog
import Databasus.Foundation.Timestamps
import Databasus.Storages.S3.ChunkedManifest

/-
  A counter of attempts in a store of short-lived values.

  The times of the latest attempts of a scope and an
  identifier are one entry, which lives for a window after the
  last of them.  The counter and the store read one clock, on
  which an attempt takes no time.

  Main declarations:
    * `Attempt`
    * `getCounterKey`, `storeKey_injective`
    * `decodeTimes_encodeTimes`
    * `recordAttemptAndCheckIsAllowed`
-/

------------------------------------------------------------
-- Attempts and their Keys
------------------------------------------------------------

namespace Databasus

namespace Ratelimit

open Cache
open Download (jsonStoreKey)

structure Attempt where
  scope : String
  identifier : String
  limit : Int
  window : Duration
deriving DecidableEq, Repr

/- An attempt, the time on the clock and its context. -/
structure CounterCall where
  attempt : Attempt
  now : Time
  isContextDone : Bool
deriving DecidableEq, Repr

inductive CounterError
  | invalidSettings
  | encodeCachedValue
  | decodeCachedValue
  | cache (error : CacheError)
deriving DecidableEq, Repr

def cacheNamespace : String := "rate_limit_attempts"

def getCounterKey
    (attempt : Attempt) : String :=
  toString attempt.scope.utf8ByteSize ++ ":" ++
    attempt.scope ++ ":" ++ attempt.identifier

/- The key of the entry in the store. -/
def storeKey
    (attempt : Attempt) : String :=
  jsonStoreKey cacheNamespace (getCounterKey attempt)

/- The attempts share an entry. -/
def Attempt.SameKey
    (first second : Attempt) : Prop :=
  first.scope = second.scope ∧
    first.identifier = second.identifier

instance instDecidableSameKey
    (first second : Attempt) :
    Decidable (first.SameKey second) :=
  inferInstanceAs (Decidable (_ ∧ _))

theorem Attempt.SameKey.storeKey_eq
    {first second : Attempt}
    (hSame : first.SameKey second) :
    storeKey first = storeKey second := by
  unfold storeKey getCounterKey
  rw [hSame.1, hSame.2]

/- A mark ends the digits that stand before it. -/
theorem takeWhile_digits
    (n : Nat)
    (rest : List Char) :
    (Nat.toDigits 10 n ++ ':' :: rest).takeWhile
        Char.isDigit =
      Nat.toDigits 10 n := by
  have hMark : Char.isDigit ':' = false := by decide
  rw [List.takeWhile_append_of_pos, List.takeWhile_cons,
    hMark]
  · exact List.append_nil _
  · intro c hMember
    exact Nat.isDigit_of_mem_toDigits (by decide)
      (by decide) hMember

theorem toList_getCounterKey
    (attempt : Attempt) :
    (getCounterKey attempt).toList =
      Nat.toDigits 10 attempt.scope.utf8ByteSize ++
        ':' :: (attempt.scope.toList ++
          ':' :: attempt.identifier.toList) := by
  have hDigits :
      (toString attempt.scope.utf8ByteSize).toList =
        Nat.toDigits 10 attempt.scope.utf8ByteSize :=
    Nat.toList_repr
  have hMark : (":" : String).toList = [':'] := rfl
  unfold getCounterKey
  simp only [String.toList_append, hDigits, hMark,
    List.append_assoc, List.cons_append, List.nil_append]

theorem eq_of_toDigits_eq
    {first second : Nat}
    (hSame :
      Nat.toDigits 10 first = Nat.toDigits 10 second) :
    first = second := by
  have hValue :=
    congrArg (fun digits => Nat.ofDigitChars 10 digits 0)
      hSame
  simp only [Nat.ofDigitChars_ten_toDigits] at hValue
  exact hValue

/- Texts that start alike and are as long are the same. -/
theorem eq_of_prefix_of_size
    {first second : String}
    {rest : List Char}
    (hPrefix : second.toList = first.toList ++ rest)
    (hSize : first.utf8ByteSize = second.utf8ByteSize) :
    first = second := by
  have hSplit : second = first ++ String.ofList rest := by
    apply String.toList_injective
    rw [hPrefix, String.toList_append, String.toList_ofList]
  have hNone : (String.ofList rest).utf8ByteSize = 0 := by
    rw [hSplit, String.utf8ByteSize_append] at hSize
    omega
  rw [String.utf8ByteSize_eq_zero_iff.mp hNone,
    String.append_empty] at hSplit
  exact hSplit.symm

/- The size of the scope tells where the identifier starts. -/
theorem getCounterKey_injective
    {first second : Attempt}
    (hKey : getCounterKey first = getCounterKey second) :
    first.SameKey second := by
  have hText := congrArg String.toList hKey
  rw [toList_getCounterKey, toList_getCounterKey] at hText
  have hDigits := congrArg (List.takeWhile Char.isDigit) hText
  rw [takeWhile_digits, takeWhile_digits] at hDigits
  have hSize := eq_of_toDigits_eq hDigits
  rw [hDigits] at hText
  have hRest := List.append_cancel_left hText
  rw [List.cons.injEq] at hRest
  have hScope : first.scope = second.scope := by
    rcases List.append_eq_append_iff.mp hRest.2 with
      ⟨rest, hPrefix, _⟩ | ⟨rest, hPrefix, _⟩
    · exact eq_of_prefix_of_size hPrefix hSize
    · exact (eq_of_prefix_of_size hPrefix hSize.symm).symm
  refine ⟨hScope, ?_⟩
  rw [hScope] at hRest
  have hMarked := List.append_cancel_left hRest.2
  rw [List.cons.injEq] at hMarked
  exact String.toList_injective hMarked.2

theorem storeKey_injective
    {first second : Attempt}
    (hKey : storeKey first = storeKey second) :
    first.SameKey second := by
  apply getCounterKey_injective
  unfold storeKey jsonStoreKey at hKey
  apply String.toList_injective
  have hText := congrArg String.toList hKey
  simp only [String.toList_append] at hText
  exact List.append_cancel_left hText

------------------------------------------------------------
-- Stored Times
------------------------------------------------------------

open Foundation
open Storages.S3
open Timestamps

variable {times : List Time}

/- A time is marshalled when its year has four digits. -/
def IsWritable (t : Time) : Prop :=
  InFourDigitYears (t / 1000000000)

instance instDecidableIsWritable
    (t : Time) :
    Decidable (IsWritable t) :=
  inferInstanceAs (Decidable (InFourDigitYears _))

def timeToJson (t : Time) : Json :=
  .str (writeInstant t)

def timeOfJson : Json → Option Time
  | .str text => readInstant text
  | _ => none

def encodeTimes
    (times : List Time) : Option Bytes :=
  if ∀ t ∈ times, IsWritable t then
    some
      (encodeUtf8 (Json.arr (times.map timeToJson)).render)
  else
    none

def decodeTimes
    (payload : Bytes) : Option (List Time) := do
  let text ← decodeUtf8 payload
  match ← Json.parse text with
  | .null => some []
  | .arr items => items.mapM timeOfJson
  | _ => none

theorem mapM_timeOfJson
    (hWritable : ∀ t ∈ times, IsWritable t) :
    (times.map timeToJson).mapM timeOfJson = some times := by
  induction times with
  | nil => rfl
  | cons t times ih =>
      rw [List.forall_mem_cons] at hWritable
      rw [List.map_cons, List.mapM_cons, ih hWritable.2]
      change
        (readInstant (writeInstant t)).bind
            (fun value => some (value :: times)) =
          some (t :: times)
      rw [readInstant_writeInstant hWritable.1]
      rfl

/- Stored times are read as they were written. -/
theorem decodeTimes_encodeTimes
    {payload : Bytes}
    (hEncoded : encodeTimes times = some payload) :
    decodeTimes payload = some times := by
  unfold encodeTimes at hEncoded
  split at hEncoded
  · next hWritable =>
      cases hEncoded
      unfold decodeTimes
      rw [decodeUtf8_encodeUtf8]
      simp only [Option.bind_eq_bind, Option.bind_some]
      rw [Json.parse_render]
      exact mapM_timeOfJson hWritable
  · cases hEncoded

theorem encodeTimes_eq_none_iff :
    encodeTimes times = none ↔
      ∃ t ∈ times, ¬ IsWritable t := by
  unfold encodeTimes
  split
  · next hWritable =>
      apply iff_of_false (Option.some_ne_none _)
      rintro ⟨t, hMember, hUnwritable⟩
      exact hUnwritable (hWritable t hMember)
  · next hUnwritable =>
      apply iff_of_true rfl
      by_contra hNone
      apply hUnwritable
      intro t hMember
      by_contra hOne
      exact hNone ⟨t, hMember, hOne⟩

------------------------------------------------------------
-- The Counter
------------------------------------------------------------

/- Read what is stored of the attempts. -/
def readAttempts
    (store : MemoryStore)
    (call : CounterCall) :
    MemoryStore × Except CounterError (List Time) :=
  match
    store.get call.isContextDone (storeKey call.attempt)
      call.now
  with
  | (after, .error error) => (after, .error (.cache error))
  | (after, .ok none) => (after, .ok [])
  | (after, .ok (some payload)) =>
      match decodeTimes payload with
      | none => (after, .error .decodeCachedValue)
      | some storedAttempts => (after, .ok storedAttempts)

/- The attempts of the window, with this one, up to a cap. -/
def recentAttempts
    (call : CounterCall)
    (storedAttempts : List Time) : List Time :=
  let windowStart := call.now - call.attempt.window
  let recentAttempts :=
    (storedAttempts.filter fun recordedAt =>
        windowStart < recordedAt) ++
      [call.now]
  if call.attempt.limit + 1 < recentAttempts.length then
    recentAttempts.drop
      (recentAttempts.length - (call.attempt.limit + 1).toNat)
  else
    recentAttempts

/- The entry lives for a window from this attempt. -/
def writeAttempts
    (store : MemoryStore)
    (call : CounterCall)
    (recentAttempts : List Time) :
    MemoryStore × Except CounterError Unit :=
  match encodeTimes recentAttempts with
  | none => (store, .error .encodeCachedValue)
  | some payload =>
      match
        store.set call.isContextDone
          { key := storeKey call.attempt
            payload := payload
            lifetime := call.attempt.window }
          call.now
      with
      | (after, .error error) =>
          (after, .error (.cache error))
      | (after, .ok _) => (after, .ok ())

def recordAttemptAndCheckIsAllowed
    (store : MemoryStore)
    (call : CounterCall) :
    MemoryStore × Except CounterError Bool :=
  if
    call.attempt.limit ≤ 0 ∨ call.attempt.window ≤ 0
  then
    (store, .error .invalidSettings)
  else if call.isContextDone then
    (store, .error (.cache .contextDone))
  else
    match readAttempts store call with
    | (read, .error error) => (read, .error error)
    | (read, .ok storedAttempts) =>
        let recent := recentAttempts call storedAttempts
        match writeAttempts read call recent with
        | (written, .error error) => (written, .error error)
        | (written, .ok _) =>
            (written,
              .ok (recent.length ≤ call.attempt.limit))

end Ratelimit

end Databasus
