/-
# Elapsed time

A run reads the clock in seconds when it starts and when it has converted its
inputs. The time between is logged in seconds and reported in whole
milliseconds, with the fraction dropped.

Key definitions: `Clock`, `Clock.seconds`, `Clock.milliseconds`.
-/
import ReverseDns.Decimal.Binary64
import ReverseDns.Fault

namespace ReverseDns

/-- The two readings of the clock. -/
structure Clock where
  start : Float := 0
  finish : Float := 0

namespace Clock

/-- The seconds between the readings. -/
def seconds (c : Clock) : Binary64 := .ofFloat (c.finish - c.start)

/-- The whole milliseconds between the readings; too long a time has none. -/
def milliseconds (c : Clock) : Except Fault Int :=
  let x := Binary64.ofFloat ((c.finish - c.start) * 1000)
  match x.truncate? with
  | some n => .ok n
  | none =>
    if x = .nan then .error ⟨.value, "cannot convert float NaN to integer".toList⟩
    else .error ⟨.overflow, "cannot convert float infinity to integer".toList⟩

end Clock
end ReverseDns
