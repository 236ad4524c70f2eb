/-
# Literals

A literal shows a text unambiguously on one line. It stands between single
quotes, or between double quotes if the text has single quotes and no double
ones. The quote in use, the backslash and every character that is not printable
are escaped.

Key definitions: `Text.literal`.
-/
import ReverseDns.Text.Printable

namespace ReverseDns
namespace Text

/-- How one character is written between the given quotes. -/
def literalChar (quote c : Char) : Text :=
  if c = quote ∨ c = '\\' then ['\\', c]
  else if c = '\n' then ['\\', 'n']
  else if c = '\r' then ['\\', 'r']
  else if c = '\t' then ['\\', 't']
  else if isPrintable c then [c]
  else if c.toNat ≤ 0xff then '\\' :: 'x' :: padded 16 2 c.toNat
  else if c.toNat ≤ 0xffff then '\\' :: 'u' :: padded 16 4 c.toNat
  else '\\' :: 'U' :: padded 16 8 c.toNat

/-- The quote that a text is shown in. -/
def literalQuote (t : Text) : Char :=
  if t.contains '\'' && !t.contains '"' then '"' else '\''

/-- The text as a literal. -/
def literal (t : Text) : Text :=
  let quote := literalQuote t
  quote :: (t.flatMap (literalChar quote) ++ [quote])

end Text
end ReverseDns
