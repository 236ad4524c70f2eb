/-
# Octets and bytes

One octet in decimal, without leading zeros, as it stands between the dots of
an IPv4 address or of its reverse name; and lists of bytes as hexadecimal text
and as lists of nibbles, the high nibble of each byte first.

Key definitions: `Octet.text`, `Octet.read?`, `Bytes.hex`, `Bytes.nibbles`,
`Bytes.ofNibbles`.
-/
import ReverseDns.Text

namespace ReverseDns
namespace Octet

/-- An octet in decimal. -/
def text (b : UInt8) : Text := Nat.toDigits 10 b.toNat

/-- Reads one to three decimal digits without a leading zero, at most 255. -/
def read? (t : Text) : Option UInt8 :=
  if t = [] ∨ !t.all Char.isDigit ∨ 3 < t.length ∨ (1 < t.length ∧ t.head? = some '0') then none
  else if Nat.ofDigitChars 10 t 0 ≤ 255 then some (UInt8.ofNat (Nat.ofDigitChars 10 t 0))
  else none

end Octet

namespace Bytes

/-- Two lower-case hexadecimal digits a byte. -/
def hex (bs : List UInt8) : Text := bs.flatMap fun b => Text.padded 16 2 b.toNat

/-- The nibbles of the bytes in order, high nibble first. -/
def nibbles (bs : List UInt8) : List Nat := bs.flatMap fun b => [b.toNat / 16, b.toNat % 16]

/-- The bytes whose nibbles are given, two at a time; an odd last one is left out. -/
def ofNibbles : List Nat → List UInt8
  | high :: low :: rest => UInt8.ofNat (high * 16 + low) :: ofNibbles rest
  | _ => []

/-- Reads an even number of hexadecimal digits of either case. -/
def ofHex? : Text → Option (List UInt8)
  | [] => some []
  | [_] => none
  | h :: l :: rest => do
    let high ← Text.hexDigit? h
    let low ← Text.hexDigit? l
    return UInt8.ofNat (high * 16 + low) :: (← ofHex? rest)

end Bytes
end ReverseDns
