/-
# From address to reverse name

`labels` lists the labels of the address, least significant first, and `ofBytes`
puts them in front of the zone. Anything but four or sixteen bytes is refused
with an error that shows the bytes: as an address where they are one, in
hexadecimal after a question mark otherwise.

Key definitions: `ReverseName.labels`, `ReverseName.ofAddress`,
`ReverseName.encode`, `Bytes.shown`.
-/
import ReverseDns.Address.Text
import ReverseDns.Error
import ReverseDns.ReverseName.Basic

namespace ReverseDns

/-- Bytes as messages show them; absent and empty ones alike. -/
def Bytes.shown : Option (List UInt8) → Text
  | none | some [] => "<nil>".toList
  | some bs =>
    match Address.ofBytes? bs with
    | some a => a.text
    | none => '?' :: Bytes.hex bs

namespace ReverseName

/-- The labels before the zone, least significant first. -/
def labels (family : Family) (bs : List UInt8) : List Text :=
  match family with
  | .v4 => bs.reverse.map Octet.text
  | .v6 => (Bytes.nibbles bs).reverse.map fun n => [Nat.digitChar n]

/-- The reverse name of an address, in lower case and without a final dot. The
scope is no part of it. -/
def ofAddress (a : Address) : Text :=
  Text.join ['.'] (labels a.family a.bytes) ++ a.family.suffix

/-- The reverse name of an address given by its bytes. -/
def encode (bs : Option (List UInt8)) : Except Error Text :=
  match bs.bind Address.ofBytes? with
  | some a => .ok (ofAddress a)
  | none => .error (.malformed Subject.address (Bytes.shown bs))

end ReverseName
end ReverseDns
