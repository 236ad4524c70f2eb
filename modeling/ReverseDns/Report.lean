/-
# Reports

A report has the entries of one run in input order, with the time it was made
and the milliseconds the run took. Its totals are counted from the entries. It
is laid out as JSON with sorted names or as YAML in the order of the members,
with three comment lines in front. A report whose duration has too many digits
cannot be written in either form.

Key definitions: `Report`, `Report.value`, `Report.json`, `Report.yaml`,
`Report.Format`, `Report.render`.
-/
import ReverseDns.Config.Integer
import ReverseDns.Conversion
import ReverseDns.Timestamp
import ReverseDns.Yaml.Block

namespace ReverseDns

/-- The report of one run. -/
structure Report where
  timestamp : Timestamp
  durationMs : Int
  entries : List Entry
  ptrEnabled : Bool := false
deriving DecidableEq

namespace Report

def total (r : Report) : Nat := r.entries.length

/-- How many entries succeeded. -/
def converted (r : Report) : Nat := r.entries.countP Entry.isOk

def failed (r : Report) : Nat := r.total - r.converted

/-- How many entries have host names. -/
def resolved (r : Report) : Nat := r.entries.countP Entry.isResolved

/-- The totals as an object. -/
def summary (r : Report) : Json.Value :=
  .obj
    [("timestamp".toList, .str r.timestamp.iso), ("total_inputs".toList, .int r.total),
      ("converted".toList, .int r.converted), ("failed".toList, .int r.failed),
      ("ptr_enabled".toList, .bool r.ptrEnabled), ("ptr_resolved".toList, .int r.resolved),
      ("execution_duration_ms".toList, .int r.durationMs)]

/-- The members of the report: the totals, then the entries. -/
def members (r : Report) : Json.Members :=
  [("summary".toList, r.summary), ("results".toList, .arr (r.entries.map Entry.value))]

def value (r : Report) : Json.Value := .obj r.members

/-- The report laid out as JSON, indented, with sorted names; `render` says when it is
written. -/
def json (r : Report) : Text := r.value.sortKeys.pretty 0

/-- The comment lines of a YAML report. -/
def header (r : Report) : Text :=
  "# Reverse address conversion report\n# Generated: ".toList ++ r.timestamp.iso
    ++ "\n# Converted: ".toList ++ Text.decimal r.converted ++ '/' :: Text.decimal r.total ++ ['\n']

/-- The report laid out as YAML. -/
def yaml (r : Report) : Text := r.header ++ Yaml.document r.members

/-- The forms of a report. -/
inductive Format
  | json
  | yaml
deriving DecidableEq, Repr

def Format.name : Format → Text
  | .json => "json".toList
  | .yaml => "yaml".toList

/-- All forms, in the order messages list them. -/
def Format.all : List Format := [.json, .yaml]

/-- The form with the given name. -/
def Format.ofName? (t : Text) : Option Format := Format.all.find? fun f => f.name == t

/-- The report laid out in the given form. -/
def layout (r : Report) : Format → Text
  | .json => r.json
  | .yaml => r.yaml

/-- The text of a report in the given form. A duration can be too long to be written; a
total cannot, for it counts the entries that there are. -/
def render (r : Report) (f : Format) : Except Fault Text := do
  Integer.check r.durationMs
  return r.layout f

/-- The refusal of a form that there is not. -/
def unsupported (name : Text) : Fault := ⟨.value, "Unsupported output format: ".toList ++ name⟩

/-- The text of a report in the form of the given name. -/
def renderAs (r : Report) (name : Text) : Except Fault Text :=
  match Format.ofName? name with
  | some f => r.render f
  | none => .error (unsupported name)

end Report
end ReverseDns
