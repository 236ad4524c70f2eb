/-
# Timestamps

A point on a calendar with a time of day and, if it is known, the offset from
universal time. Reports write the offset in hours and minutes; logs write `Z`
for universal time itself.

Key definitions: `Timestamp`, `Timestamp.iso`, `Timestamp.logText`.
-/
import ReverseDns.Text

namespace ReverseDns

/-- A date and time; `offset` is in minutes east of universal time. -/
structure Timestamp where
  year : Nat
  month : Nat
  day : Nat
  hour : Nat := 0
  minute : Nat := 0
  second : Nat := 0
  microsecond : Nat := 0
  offset : Option Int := some 0
deriving DecidableEq, Repr

namespace Timestamp

/-- The date, the time, and the microseconds if there are any. -/
def clock (t : Timestamp) : Text :=
  Text.padded 10 4 t.year ++ '-' :: Text.padded 10 2 t.month ++ '-' :: Text.padded 10 2 t.day
    ++ 'T' :: Text.padded 10 2 t.hour ++ ':' :: Text.padded 10 2 t.minute
    ++ ':' :: Text.padded 10 2 t.second
    ++ (if t.microsecond = 0 then [] else '.' :: Text.padded 10 6 t.microsecond)

/-- An offset as sign, hours and minutes. -/
def offsetText (minutes : Int) : Text :=
  (if minutes < 0 then '-' else '+') :: (Text.padded 10 2 (minutes.natAbs / 60)
    ++ ':' :: Text.padded 10 2 (minutes.natAbs % 60))

/-- The timestamp with its offset in hours and minutes, if it has one. -/
def iso (t : Timestamp) : Text :=
  t.clock ++ match t.offset with
    | none => []
    | some minutes => offsetText minutes

/-- The same with `Z` for the offset zero. -/
def logText (t : Timestamp) : Text :=
  if t.offset = some 0 then t.clock ++ ['Z'] else t.iso

end Timestamp
end ReverseDns
