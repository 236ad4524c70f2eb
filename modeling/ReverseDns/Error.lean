/-
# Errors of addresses and reverse names

An error says what was wrong with which part of an input. Only an address error
has a cause below it: the error of a whole name holds the error of a label,
which holds the error of a character. `chain` lists an error and its causes,
outermost first; `message` prints the whole chain on the way down; `kind` and
`find?` are how a caller tells errors apart.

Key definitions: `Error`, `Error.message`, `Error.chain`, `Error.root`,
`Error.find?`.
-/
import ReverseDns.Text.Quoted

namespace ReverseDns

/-! ### What an error is about, as messages name it -/

namespace Subject

def reverseName : Text := "arpa domain name".toList
def address : Text := "ip address".toList
def dottedAddress : Text := "ipv4 address".toList
def label : Text := "domain name label".toList

end Subject

/-- An error, with the error that caused it inside. -/
inductive Error
  /-- A malformed value, nothing more specific known. -/
  | malformed (subject value : Text)
  /-- A malformed value and the reason. -/
  | malformedBy (subject value : Text) (cause : Error)
  /-- A character that is not allowed where it stands. -/
  | rune (subject rune : Text)
  /-- A length other than the allowed one, or above the limit. -/
  | length (subject : Text) (length : Int) (allowed limit : Option Int)
  /-- A failed check with a message of its own. -/
  | invalid (message : Text)
  /-- A label without characters. -/
  | emptyLabel (message : Text)
  /-- A name that is not a full reverse name. -/
  | notReversed (message : Text)
  /-- Any other failure of this library. -/
  | general (message : Text)
deriving DecidableEq, Repr

namespace Error

/-- The messages of the checks that have a fixed one. -/
def invalidText : Text := "validation failed".toList
def emptyLabelText : Text := "label is empty".toList
def notReversedText : Text := "not a full reversed ip address".toList

/-- The classification that a caller branches on. -/
inductive Kind
  | address
  | rune
  | length
  | validation
deriving DecidableEq, Repr

def Kind.text : Kind → Text
  | .address => "address".toList
  | .rune => "rune".toList
  | .length => "length".toList
  | .validation => "validation".toList

/-- A limit in a message; the word `None` where there is none. -/
def limitText : Option Int → Text
  | some n => Text.decimal n
  | none => "None".toList

/-- An error's own part of the message, without its cause. -/
def headline : Error → Text
  | malformed subject value | malformedBy subject value _ =>
    "bad ".toList ++ subject ++ ' ' :: Text.quote value
  | rune subject r => "bad ".toList ++ subject ++ " rune ".toList ++ Text.quoteRune r
  | length subject n (some allowed) _ =>
    "bad ".toList ++ subject ++ " length ".toList ++ Text.decimal n ++ ", allowed: ".toList
      ++ Text.decimal allowed
  | length subject n none limit =>
    "bad ".toList ++ subject ++ " length ".toList ++ Text.decimal n ++ ", max: ".toList
      ++ limitText limit
  | invalid m | emptyLabel m | notReversed m | general m => m

/-- The cause directly below an error. -/
def cause? : Error → Option Error
  | malformedBy _ _ cause => some cause
  | _ => none

/-- The full message: the headline, and after a colon the message of the cause. -/
def message : Error → Text
  | malformedBy subject value cause =>
    headline (malformedBy subject value cause) ++ ": ".toList ++ message cause
  | e => headline e

def kind : Error → Kind
  | malformed .. | malformedBy .. => .address
  | rune .. => .rune
  | length .. => .length
  | _ => .validation

/-- The error and every cause below it, outermost first. -/
def chain : Error → List Error
  | malformedBy subject value cause => malformedBy subject value cause :: chain cause
  | e => [e]

/-- The innermost error. -/
def root : Error → Error
  | malformedBy _ _ cause => root cause
  | e => e

end Error
end ReverseDns
