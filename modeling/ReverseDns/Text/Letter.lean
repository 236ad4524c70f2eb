/-
# Lower case

Names and settings are compared with fixed ASCII words without regard to case.
Besides the ASCII capitals only two characters have an ASCII letter in their
lower case: the Kelvin sign (`k`) and the capital I with a dot above (`i`
followed by a combining dot). All other characters stay as they are, which
leaves every comparison with an ASCII word as it is under the full case map.

Key definitions: `Text.lower`.
-/
import ReverseDns.Text

namespace ReverseDns
namespace Text

/-- The lower case of one character, as far as it has ASCII letters in it. -/
def lowerChar (c : Char) : Text :=
  if c = '\u212a' then ['k']
  else if c = '\u0130' then ['i', '\u0307']
  else [c.toLower]

/-- Lower case, character by character. -/
def lower (t : Text) : Text := t.flatMap lowerChar

end Text
end ReverseDns
