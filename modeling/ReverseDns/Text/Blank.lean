/-
# Blank characters

Two sets of white space. `isBlank` holds the characters that surround an input
without being part of it: the Unicode white space with the four ASCII
separators U+001C to U+001F. `isNumeralBlank` holds those that may surround a
numeral: the same set without the four separators.

Key definitions: `Text.isBlank`, `Text.trim`, `Text.isNumeralBlank`.
-/
import ReverseDns.Text

namespace ReverseDns
namespace Text

/-- The blank characters outside ASCII: next line, no-break space, and the
spaces and separators of the general punctuation and ideographic blocks. -/
def isWideBlank (c : Char) : Bool :=
  c == '\u0085' || c == '\u00a0' || c == '\u1680' || ('\u2000' ≤ c && c ≤ '\u200a')
    || c == '\u2028' || c == '\u2029' || c == '\u202f' || c == '\u205f' || c == '\u3000'

/-- White space around an input. -/
def isBlank (c : Char) : Bool :=
  ('\t' ≤ c && c ≤ '\r') || ('\u001c' ≤ c && c ≤ ' ') || isWideBlank c

/-- White space around a numeral. -/
def isNumeralBlank (c : Char) : Bool :=
  ('\t' ≤ c && c ≤ '\r') || c == ' ' || isWideBlank c

/-- `t` without the characters of `blank` at either end. -/
def trimOf (blank : Char → Bool) (t : Text) : Text :=
  ((t.dropWhile blank).reverse.dropWhile blank).reverse

/-- `t` without surrounding white space. -/
def trim (t : Text) : Text := trimOf isBlank t

end Text
end ReverseDns
