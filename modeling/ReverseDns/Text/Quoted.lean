/-
# Quoted text in messages

`quote` puts a text between double quotes. The quote, the backslash and the 32
control characters of ASCII are escaped; every other character stands for
itself. `quoteRune` puts a character, or any text, between single quotes: the
double quote loses its backslash there, and a lone apostrophe gets one.

Key definitions: `Text.escape`, `Text.quote`, `Text.quoteRune`.
-/
import ReverseDns.Text

namespace ReverseDns
namespace Text

/-- How one character is written between double quotes. -/
def escape (c : Char) : Text :=
  if c = '"' then ['\\', '"']
  else if c = '\\' then ['\\', '\\']
  else if c = '\n' then ['\\', 'n']
  else if c = '\r' then ['\\', 'r']
  else if c = '\t' then ['\\', 't']
  else if c = '\u0008' then ['\\', 'b']
  else if c = '\u000c' then ['\\', 'f']
  else if c < ' ' then '\\' :: 'u' :: padded 16 4 c.toNat
  else [c]

/-- The text between double quotes. -/
def quote (t : Text) : Text := '"' :: (t.flatMap escape ++ ['"'])

/-- Takes the backslash off every `\"`, reading from the left. -/
def bareQuotes : Text → Text
  | '\\' :: '"' :: cs => '"' :: bareQuotes cs
  | c :: cs => c :: bareQuotes cs
  | [] => []

/-- The text between single quotes. -/
def quoteRune (t : Text) : Text :=
  if t = ['\''] then ['\'', '\\', '\'', '\'']
  else '\'' :: (bareQuotes (t.flatMap escape) ++ ['\''])

end Text
end ReverseDns
