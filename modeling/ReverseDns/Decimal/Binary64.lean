/-
# Double-precision numbers, exactly

A double is a sign, a whole mantissa and a power of two, or an infinity, or
not a number. `truncate?` drops the fraction.

Key definitions: `Binary64`, `Binary64.ofFloat`, `Binary64.toFloat`,
`Binary64.truncate?`.
-/

namespace ReverseDns

/-- A double: `± mantissa · 2 ^ exponent`, infinite, or not a number. -/
inductive Binary64
  | finite (negative : Bool) (mantissa : Nat) (exponent : Int)
  | infinite (negative : Bool)
  | nan
deriving DecidableEq, Repr

namespace Binary64

/-- The widths of the two fields of a bit pattern after the sign: 2048 biased
exponents, and the fractions below `2 ^ 52`. -/
def exponents : Nat := 0x800
def fractions : Nat := 0x10000000000000

/-- The double with the given bit pattern. -/
def ofBits (b : UInt64) : Binary64 :=
  let negative := b.toNat / fractions / exponents == 1
  let biased : Nat := b.toNat / fractions % exponents
  let fraction : Nat := b.toNat % fractions
  if biased = exponents - 1 then
    if fraction = 0 then .infinite negative else .nan
  else if biased = 0 then .finite negative fraction (-1074)
  else .finite negative (fractions + fraction) ((biased : Int) - 1075)

def ofFloat (x : Float) : Binary64 := ofBits x.toBits

/-- The double as the machine computes with it. -/
def toFloat : Binary64 → Float
  | .finite negative m e =>
    let size := (Float.ofNat m).scaleB e
    if negative then -size else size
  | .infinite negative => if negative then -(1 / 0) else 1 / 0
  | .nan => 0 / 0

/-- The number without its fraction; `none` where it has no value. -/
def truncate? : Binary64 → Option Int
  | .finite negative m e =>
    let size := m * Nat.pow 2 e.toNat / Nat.pow 2 (-e).toNat
    some (if negative then -(size : Int) else size)
  | _ => none

end Binary64
end ReverseDns
