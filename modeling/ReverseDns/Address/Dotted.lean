/-
# Dotted-decimal addresses

Four octets in decimal with dots between them. Reading refuses leading zeros
and every other spelling, so each address has one dotted text.

Key definitions: `Dotted.text`, `Dotted.read?`.
-/
import ReverseDns.Octet

namespace ReverseDns
namespace Dotted

/-- The bytes in decimal with dots between them. -/
def text (bs : List UInt8) : Text := Text.join ['.'] (bs.map Octet.text)

/-- Reads exactly four octets. -/
def read? (t : Text) : Option (List UInt8) :=
  match (t.splitOn '.').map Octet.read? with
  | [some a, some b, some c, some d] => some [a, b, c, d]
  | _ => none

end Dotted
end ReverseDns
