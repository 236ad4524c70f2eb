/-
# Reverse names

The reverse name of an address puts the address in front of the zone of its
family, the least significant part first: four decimal octets before
`in-addr.arpa`, 32 hexadecimal nibbles before `ip6.arpa`.

Key definitions: `Family.suffix`, `Family.labelCount`, `ReverseName.wideLength`,
`ReverseName.dropDot`, `ReverseName.beforeSuffix?`.
-/
import ReverseDns.Address
import ReverseDns.Text.Letter

namespace ReverseDns

/-- The zone of the family's reverse names, with the dot before it. -/
def Family.suffix : Family → Text
  | .v4 => ".in-addr.arpa".toList
  | .v6 => ".ip6.arpa".toList

/-- How many labels stand before the zone: one an octet, or one a nibble. -/
def Family.labelCount : Family → Nat
  | .v4 => 4
  | .v6 => 32

namespace ReverseName

/-- The length of every reverse name of a sixteen-byte address: each of its 32
labels is one digit and a dot, the last dot being that of the zone. -/
def wideLength : Nat := 2 * Family.labelCount .v6 + (Family.suffix .v6).length - 1

/-- A name without its final dot. -/
def dropDot (name : Text) : Text :=
  if name.getLast? = some '.' then name.dropLast else name

/-- What stands before the family's zone, which is matched without regard to
case; `none` if the name does not end in it. -/
def beforeSuffix? (family : Family) (name : Text) : Option Text :=
  let start := name.length - family.suffix.length
  if family.suffix.length ≤ name.length ∧ Text.lower (name.drop start) = family.suffix then
    some (name.take start)
  else none

end ReverseName
end ReverseDns
