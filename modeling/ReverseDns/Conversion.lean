/-
# Converting one input

An input is an address or a reverse name, with white space around it ignored.
Addresses go to their reverse names and everything else is read as a reverse
name. The entry of an input keeps it as received and holds either the converted
text and the reverse name or the kind and message of the error.

Key definitions: `Direction`, `Entry`, `Direction.detect`, `Entry.ofInput`.
-/
import ReverseDns.Log.Record
import ReverseDns.Ptr.Result
import ReverseDns.ReverseName.Decode
import ReverseDns.Text.Blank

namespace ReverseDns

/-- Which way an input is converted. -/
inductive Direction
  | toReverseName
  | fromReverseName
deriving DecidableEq, Repr

def Direction.text : Direction → Text
  | .toReverseName => "TO_ARPA".toList
  | .fromReverseName => "FROM_ARPA".toList

/-- Addresses go to reverse names, anything else comes from one. -/
def Direction.detect (t : Text) : Direction :=
  if Address.isText t then .toReverseName else .fromReverseName

namespace Entry

/-- Whether the conversion succeeded. -/
inductive Status
  | ok
  | error
deriving DecidableEq, Repr

def Status.text : Status → Text
  | .ok => "OK".toList
  | .error => "ERROR".toList

end Entry

/-- One row of a report. -/
structure Entry where
  input : Text
  direction : Direction
  status : Entry.Status
  output : Option Text := none
  reverseName : Option Text := none
  errorKind : Option Text := none
  errorMessage : Option Text := none
  ptr : Option Ptr.Result := none
deriving DecidableEq, Repr

namespace Entry

def isOk (e : Entry) : Bool := e.status == .ok

/-- Whether the entry has a pointer result with host names. -/
def isResolved (e : Entry) : Bool := e.ptr.any Ptr.Result.isResolved

/-- The entry as an object. -/
def value (e : Entry) : Json.Value :=
  .obj
    [("input".toList, .str e.input), ("direction".toList, .str e.direction.text),
      ("status".toList, .str e.status.text), ("output".toList, .text? e.output),
      ("arpa_name".toList, .text? e.reverseName), ("error_kind".toList, .text? e.errorKind),
      ("error_message".toList, .text? e.errorMessage), ("ptr".toList, .ofOption Ptr.Result.value e.ptr)]

/-- What is logged of a conversion that took so many milliseconds. -/
def record (e : Entry) (durationMs : Int) : Log.Record :=
  .conversion e.input e.direction.text e.status.text e.errorKind durationMs

/-- Converts one input; a malformed one gives an entry with its error. -/
def ofInput (input : Text) : Entry :=
  let t := Text.trim input
  match Address.read? t with
  | some a =>
    { input, direction := .toReverseName, status := .ok
      output := some (ReverseName.ofAddress a)
      reverseName := some (ReverseName.ofAddress a) }
  | none =>
    match ReverseName.toAddress t with
    | .ok a =>
      { input, direction := .fromReverseName, status := .ok
        output := some a.text
        reverseName := some (ReverseName.ofAddress a) }
    | .error e =>
      { input, direction := .fromReverseName, status := .error
        errorKind := some e.root.kind.text
        errorMessage := some e.message }

end Entry
end ReverseDns
