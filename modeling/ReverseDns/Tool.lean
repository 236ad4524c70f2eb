/-
# One run of the tool

A run takes its inputs from its arguments or, without arguments, from the lines
of its standard input that are not blank. It converts them under the settings of
its environment, writes the report and logs what it did. The exit code is zero
if every input was converted and the report was written, and one otherwise. A
bad environment ends the run before anything is read; a fault after that is
logged and ends it without a summary.

Key definitions: `Tool.Setting`, `Tool.Outcome`, `Tool.inputs`, `Tool.run`.
-/
import ReverseDns.Batch
import ReverseDns.Clock
import ReverseDns.Config
import ReverseDns.Log.Session

namespace ReverseDns
namespace Tool

/-- Everything a run depends on. The resolver may differ from lookup to lookup,
`choices` decides the order in which concurrent lookups finish, and `elapsed` says how
many whole milliseconds each conversion takes by the clock; they are never too many to be
written. -/
structure Setting where
  arguments : List Text
  input : Text := []
  environment : Environment := []
  resolver : Nat → Ptr.Resolver
  choices : List Nat := []
  clock : Clock := {}
  elapsed : Nat → Int := fun _ => 0
  isShort_elapsed : ∀ i, Integer.isShort (elapsed i) = true := by exact fun _ => rfl
  now : Timestamp
  outputFault : Option Fault := none

/-- What a run leaves behind. -/
structure Outcome where
  exitCode : Nat
  output : Text := []
  queries : List Ptr.Query := []
  session : Log.Session
  records : List Log.Record

/-- The arguments if there are any, else the lines that are not blank. -/
def inputs (arguments : List Text) (input : Text) : List Text :=
  if arguments ≠ [] then arguments
  else ((input.splitOn '\n').map Text.trim).filter (· ≠ [])

/-! ### The records of the tool itself -/

def configRecord (e : Config.Error) : Log.Record where
  logger := Log.Record.mainLogger
  level := .error
  message := "Invalid configuration: ".toList ++ e.message

def startRecord (count : Nat) : Log.Record where
  logger := Log.Record.mainLogger
  level := .info
  message := "Converting ".toList ++ Text.decimal count ++ " input(s)".toList

def fatalRecord (f : Fault) : Log.Record where
  logger := Log.Record.mainLogger
  level := .error
  message := "Fatal error: ".toList ++ f.text
  fault := some f

/-- The totals of a report and the time the run took. -/
def summaryRecord (r : Report) (seconds : Binary64) : Log.Record :=
  .summary r.total r.converted r.failed r.resolved (.float seconds)

/-- The options of the batch under a configuration. -/
def options (c : Config) : Batch.Options where
  resolvePtr := c.resolvePtr
  concurrency := c.concurrency
  timeout := c.timeout

/-- The batch of a run, a refusal being a fault. -/
def batch (s : Setting) (c : Config) : Except Fault Batch.Outcome :=
  match Batch.run (options c) (Batch.Task.lookup s.resolver) s.choices
      (inputs s.arguments s.input) s.elapsed with
  | .ok o => .ok o
  | .error refusal => .error ⟨.value, refusal.message⟩

/-- The report of a run on the entries of its batch. -/
def report (s : Setting) (c : Config) (entries : List Entry) : Except Fault Report :=
  s.clock.milliseconds.map fun durationMs =>
    { timestamp := s.now, durationMs, entries, ptrEnabled := c.resolvePtr }

/-- Writes a text to the output. -/
def write (s : Setting) (t : Text) : Except Fault Text :=
  match s.outputFault with
  | none => .ok t
  | some f => .error f

/-- The report of a run and its text as written. -/
def publish (s : Setting) (c : Config) (entries : List Entry) : Except Fault (Report × Text) := do
  let r ← report s c entries
  let text ← r.render c.format
  let t ← write s (text ++ ['\n'])
  return (r, t)

/-- A run under an accepted configuration. -/
def runConfigured (s : Setting) (c : Config) : Outcome :=
  let session := Log.Session.setup c.verbose
  let start := startRecord (inputs s.arguments s.input).length
  match batch s c with
  | .error f =>
    { exitCode := 1, session
      records := start ::
        (Batch.conversions s.elapsed ((inputs s.arguments s.input).map Entry.ofInput)
          ++ [fatalRecord f]) }
  | .ok b =>
    match publish s c b.entries with
    | .error f =>
      { exitCode := 1, queries := b.queries, session
        records := start :: (b.records ++ [fatalRecord f]) }
    | .ok (r, output) =>
      { exitCode := if r.failed = 0 then 0 else 1, output, queries := b.queries, session
        records := start :: (b.records ++ [summaryRecord r s.clock.seconds]) }

/-- One run of the tool. -/
def run (s : Setting) : Outcome :=
  match Config.ofEnvironment s.environment with
  | .error e =>
    { exitCode := 1, session := .setup false, records := [configRecord e] }
  | .ok c => runConfigured s c

end Tool
end ReverseDns
