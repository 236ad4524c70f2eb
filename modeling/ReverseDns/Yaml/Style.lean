/-
# How a string is quoted

A string is written plain if a reader gives it back as that string, else
between single quotes if it has only printable ASCII characters and line ends
that no space touches, and otherwise between double quotes with escapes.

Key definitions: `Yaml.Style`, `Yaml.isPlain`, `Yaml.isSingleQuotable`,
`Yaml.style`.
-/
import ReverseDns.Yaml.Typed

namespace ReverseDns
namespace Yaml

/-- The three ways to write a string. -/
inductive Style
  | plain
  | singleQuoted
  | doubleQuoted
deriving DecidableEq, Repr

/-- A character that needs no escape: printable ASCII. -/
def isAsciiPrintable (c : Char) : Bool := ' ' ≤ c && c ≤ '~'

/-- Whether a rest of a text is at its end or goes on with a space. -/
def endsWord : Text → Bool
  | [] => true
  | c :: _ => c == ' '

/-- A colon at the end of a word, or a number sign at the beginning of one. -/
def hasIndicator (previous : Char) : Text → Bool
  | [] => false
  | c :: rest =>
    (c == ':' && endsWord rest) || (c == '#' && previous == ' ') || hasIndicator c rest

/-- The characters that open something when they come first. -/
def openers : Text := "#,[]\x7b\x7d&*!|>'\"%@\x60".toList

/-- Whether a text begins like markup: a document mark, a character that opens
something, or a dash or question mark that is a word of its own. -/
def beginsMarkup (t : Text) : Bool :=
  ("---".toList).isPrefixOf t || ("...".toList).isPrefixOf t ||
  match t with
  | [] => false
  | c :: rest =>
    openers.contains c || ((c == '-' || c == '?') && endsWord rest)

/-- Whether a string can stand without quotes. -/
def isPlain (t : Text) : Bool :=
  !isTyped t && t.all isAsciiPrintable && t.head? != some ' ' && t.getLast? != some ' '
    && !beginsMarkup t && !hasIndicator 'x' t

/-- Whether a space and a line end stand next to each other. -/
def spaceTouchesBreak : Text → Bool
  | ' ' :: '\n' :: _ => true
  | '\n' :: ' ' :: _ => true
  | _ :: rest => spaceTouchesBreak rest
  | [] => false

/-- Whether a string can stand between single quotes. -/
def isSingleQuotable (t : Text) : Bool :=
  t.all (fun c => isAsciiPrintable c || c == '\n') && !spaceTouchesBreak t

/-- The simplest way to write a string. -/
def style (t : Text) : Style :=
  if isPlain t then .plain
  else if isSingleQuotable t then .singleQuoted
  else .doubleQuoted

end Yaml
end ReverseDns
