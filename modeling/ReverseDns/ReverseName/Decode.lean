/-
# From reverse name to address

A reverse name is read without regard to case and with or without one final
dot. The first thing wrong with it is its error: first the zone, then the labels
from the left, then for sixteen-byte addresses the length of the name, the
number of labels and the digits, for four-byte ones the octets. The error of the
whole name carries that one as its cause.

Key definitions: `ReverseName.decode`, `ReverseName.isReverseName`,
`ReverseName.toAddress`.
-/
import ReverseDns.Label
import ReverseDns.ReverseName.Encode

namespace ReverseDns
namespace ReverseName

/-- The value of a label that is one hexadecimal digit. -/
def nibble? : Text → Option Nat
  | [c] => Text.hexDigit? c
  | _ => none

/-- Reads what stands before `in-addr.arpa`: four octets, last one first. -/
def decodeOctets (value : Text) : Except Error (List UInt8) :=
  match (value.splitOn '.').findSome? Label.fault? with
  | some e => .error e
  | none =>
    match (value.splitOn '.').map Octet.read? with
    | [some a, some b, some c, some d] => .ok [d, c, b, a]
    | _ => .error (.malformed Subject.dottedAddress value)

/-- Reads what stands before `ip6.arpa`: 32 nibbles, last one first. `length` is
the length of the whole name, which must be exact. -/
def decodeNibbles (length : Nat) (value : Text) : Except Error (List UInt8) :=
  let labels := value.splitOn '.'
  match labels.findSome? Label.fault? with
  | some e => .error e
  | none =>
    if length ≠ wideLength then
      .error (.length Subject.reverseName length (some wideLength) none)
    else if labels.length ≠ Family.labelCount .v6 then
      .error (.notReversed Error.notReversedText)
    else
      match labels.find? fun l => (nibble? l).isNone with
      | some l => .error (.rune Subject.reverseName l)
      | none => .ok (Bytes.ofNibbles (labels.filterMap nibble?).reverse)

/-- Reads a name without its final dot. -/
def decodeName (name : Text) : Except Error (List UInt8) :=
  match beforeSuffix? .v6 name with
  | some value => decodeNibbles name.length value
  | none =>
    match beforeSuffix? .v4 name with
    | some value => decodeOctets value
    | none => .error (.notReversed Error.notReversedText)

/-- The bytes of the address whose reverse name is given. -/
def decode (name : Text) : Except Error (List UInt8) :=
  match decodeName (dropDot name) with
  | .ok bs => .ok bs
  | .error e => .error (.malformedBy Subject.reverseName name e)

/-- Whether a text is a full reverse name. -/
def isReverseName (name : Text) : Bool :=
  match decode name with
  | .ok _ => true
  | .error _ => false

/-- The address whose reverse name is given. -/
def toAddress (name : Text) : Except Error Address :=
  match decode name with
  | .error e => .error e
  | .ok bs =>
    match Address.ofBytes? bs with
    | some a => .ok a
    | none => .error (.malformed Subject.address (Bytes.shown (some bs)))

end ReverseName
end ReverseDns
