/-
# The shortest decimal of a double

`digits` finds the shortest decimal that reads back as the same double. For one,
two, … seventeen digits it looks at the two decimals next to the value, and the
first length at which one of them rounds to the double wins; of two that do, the
nearer, and at equal distance the one with the even last digit.

Key definitions: `Binary64.roundsTo`, `Binary64.shortest`, `Binary64.digits`.
-/
import ReverseDns.Decimal.Binary64
import ReverseDns.Text

namespace ReverseDns
namespace Binary64

/-- `num / den` rounded down on the grid of step `10 ^ k`. -/
def gridBelow (num den : Nat) (k : Int) : Nat :=
  num * Nat.pow 10 (-k).toNat / (den * Nat.pow 10 k.toNat)

/-- Whether `point * 10 ^ k` rounds to `m * 2 ^ e`. The numbers that do reach
half a last place up and half a place down, below a power of two a quarter; the
two ends belong to them when the mantissa is even. -/
def roundsTo (m : Nat) (e : Int) (point : Nat) (k : Int) : Bool :=
  let scale := fun (n : Nat) (two ten : Int) => n * Nat.pow 2 two.toNat * Nat.pow 10 ten.toNat
  -- `point * 10 ^ k` against `(4 * m ± d) * 2 ^ (e - 2)`, both made whole
  let x := scale point (2 - e) k
  let low := scale (4 * m - (if m = fractions ∧ -1074 < e then 1 else 2)) (e - 2) (-k)
  let high := scale (4 * m + 2) (e - 2) (-k)
  if m % 2 = 0 then low ≤ x && x ≤ high else low < x && x < high

/-- The power of ten of the leading digit of `num / den`. -/
def leadingPower (num den : Nat) : Int :=
  let whole := num / den
  if 0 < whole then ((Nat.toDigits 10 whole).length : Int) - 1
  else
    let inverse := (den + num - 1) / num
    -- `num / den` lies in `(1 / (inverse + 1), 1 / (inverse - 1))`
    let k := ((Nat.toDigits 10 inverse).length : Int)
    if den ≤ num * Nat.pow 10 (k - 1).toNat then 1 - k else -k

/-- The shortest decimal `(d, k)`, meaning `d · 10 ^ k`, that rounds to
`m · 2 ^ e`; it has at least `count` digits, and `fuel` more are tried. -/
def shortest (m : Nat) (e : Int) : (fuel count : Nat) → Nat × Int
  | fuel, count =>
    let num := m * Nat.pow 2 e.toNat
    let den := Nat.pow 2 (-e).toNat
    let k := leadingPower num den - count + 1
    let below := gridBelow num den k
    let twice := 2 * num * Nat.pow 10 (-k).toNat
    let middle := (2 * below + 1) * den * Nat.pow 10 k.toNat
    let nearer := if twice < middle ∨ (twice = middle ∧ below % 2 = 0) then below else below + 1
    let farther := if nearer = below then below + 1 else below
    match fuel with
    | 0 => (nearer, k)
    | fuel + 1 =>
      if roundsTo m e nearer k then (nearer, k)
      else if roundsTo m e farther k then (farther, k)
      else shortest m e fuel (count + 1)

/-- The digits of the shortest decimal, without zeros at the end, and the
power of ten of the first one. -/
def digits (m : Nat) (e : Int) : Text × Int :=
  let (d, k) := shortest m e 17 1
  let all := Nat.toDigits 10 d
  ((all.reverse.dropWhile (· == '0')).reverse, k + all.length - 1)

end Binary64
end ReverseDns
