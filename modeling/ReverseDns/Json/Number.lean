/-
# Doubles in JSON

A double is written with the fewest digits that read back as it: positionally
with at least one place after the point if its leading digit stands between
10^-4 and 10^15, else with an exponent of at least two digits. The infinities
and the value that is not a number are written as words.

Key definitions: `Json.place`, `Json.number`.
-/
import ReverseDns.Decimal.Binary64
import ReverseDns.Decimal.Shortest
import ReverseDns.Text

namespace ReverseDns
namespace Json

/-- The powers of ten of a leading digit that is written positionally: from the
first up to but not including the second. -/
def positional : Int × Int := (-4, 16)

/-- The fewest digits of an exponent. -/
def exponentDigits : Nat := 2

/-- Writes digits, the leading one being at `10 ^ power`. -/
def place (ds : Text) (power : Int) : Text :=
  if power < positional.1 ∨ positional.2 ≤ power then
    let exponent := Nat.toDigits 10 power.natAbs
    ds.take 1 ++ (if ds.length ≤ 1 then [] else '.' :: ds.drop 1)
      ++ 'e' :: (if power < 0 then '-' else '+')
      :: (List.replicate (exponentDigits - exponent.length) '0' ++ exponent)
  else if power < 0 then
    ['0', '.'] ++ List.replicate (-power - 1).toNat '0' ++ ds
  else
    let whole := power.toNat + 1
    ds.take whole ++ List.replicate (whole - ds.length) '0' ++ '.' ::
      (if ds.length ≤ whole then ['0'] else ds.drop whole)

/-- A double as it is written. -/
def number : Binary64 → Text
  | .finite negative m e =>
    let sign := if negative then ['-'] else []
    if m = 0 then sign ++ "0.0".toList
    else
      let (ds, power) := Binary64.digits m e
      sign ++ place ds power
  | .infinite negative => if negative then "-Infinity".toList else "Infinity".toList
  | .nan => "NaN".toList

end Json
end ReverseDns
