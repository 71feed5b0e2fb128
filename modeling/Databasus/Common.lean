/-
  Values that every module of the backend shares.

  Identifiers are only compared, so a natural number stands
  for one.  Instants and durations count nanoseconds, as the
  backend's clock does.

  Main declarations:
    * `Uuid`
    * `Time`
    * `Duration`
    * `Bytes`
-/

namespace Databasus

/- An identifier of a row. -/
abbrev Uuid := Nat

/- An instant, in nanoseconds. -/
abbrev Time := Int

/- A length of time, in nanoseconds. -/
abbrev Duration := Int

/- What a file or an object holds. -/
abbrev Bytes := List UInt8

namespace Duration

def second : Duration := 1000000000

def minute : Duration := 60 * second

def hour : Duration := 60 * minute

end Duration

end Databasus
