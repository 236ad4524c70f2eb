/-
# Log records

A record has a logger, a level, a message and extra fields. The names that a
record has for its own attributes cannot be used for extra fields. The three
kinds of record that the library writes are one per conversion, one per run and
one per lookup that had no definite answer.

Key definitions: `Log.Level`, `Log.Record`, `Log.Record.clash?`,
`Log.Record.conversion`, `Log.Record.summary`, `Log.Record.lookupFailed`.
-/
import ReverseDns.Fault
import ReverseDns.Json.Value

namespace ReverseDns
namespace Log

/-- How serious a record is. -/
inductive Level
  | debug
  | info
  | warning
  | error
  | critical
deriving DecidableEq, Repr

namespace Level

/-- The order of the levels. -/
def rank : Level → Nat
  | .debug => 10
  | .info => 20
  | .warning => 30
  | .error => 40
  | .critical => 50

def text : Level → Text
  | .debug => "DEBUG".toList
  | .info => "INFO".toList
  | .warning => "WARNING".toList
  | .error => "ERROR".toList
  | .critical => "CRITICAL".toList

end Level

/-- One record; `fault` is the fault it reports on, if any. -/
structure Record where
  logger : Text
  level : Level
  message : Text
  fault : Option Fault := none
  extra : Json.Members := []

/-- The attributes that every record has. -/
def attributes : List Text :=
  ["name", "msg", "args", "levelname", "levelno", "pathname", "filename", "module", "exc_info",
    "exc_text", "stack_info", "lineno", "funcName", "created", "msecs", "relativeCreated",
    "thread", "threadName", "processName", "process", "message", "asctime"].map String.toList

namespace Record

/-- The first extra field whose name is that of an attribute. -/
def clash? (r : Record) : Option Text :=
  (r.extra.map Prod.fst).find? fun n => attributes.contains n

/-- The fault of a record with such a field. -/
def clashFault (name : Text) : Fault :=
  ⟨.key, "\"Attempt to overwrite '".toList ++ name ++ "' in LogRecord\"".toList⟩

/-- The loggers of the library. -/
def serviceLogger : Text := "revaddr.services.logger".toList
def batchLogger : Text := "revaddr.services.converter".toList
def mainLogger : Text := "revaddr.main".toList

/-- One conversion, by the texts of its direction, status and kind of error. -/
def conversion (input direction status : Text) (errorKind : Option Text) (durationMs : Int) :
    Record where
  logger := serviceLogger
  level := .debug
  message := "Conversion completed".toList
  extra :=
    [("input".toList, .str input), ("direction".toList, .str direction),
      ("status".toList, .str status), ("error_kind".toList, .text? errorKind),
      ("duration_ms".toList, .int durationMs)]

/-- The totals of a run and the seconds it took, a whole number or a double. -/
def summary (total converted failed resolved : Int) (seconds : Json.Value) : Record where
  logger := serviceLogger
  level := .info
  message := "Batch completed".toList
  extra :=
    [("total_inputs".toList, .int total), ("converted".toList, .int converted),
      ("failed".toList, .int failed), ("ptr_resolved".toList, .int resolved),
      ("duration_sec".toList, seconds)]

/-- A lookup without a definite answer. -/
def lookupFailed (name responseData : Text) : Record where
  logger := serviceLogger
  level := .warning
  message := "PTR lookup failed".toList
  extra := [("arpa_name".toList, .str name), ("response_data".toList, .str responseData)]

/-- A lookup that ended in a fault. -/
def lookupFault (name : Text) (f : Fault) : Record where
  logger := batchLogger
  level := .error
  message := "Unexpected error resolving ".toList ++ name ++ ": ".toList ++ f.text

end Record
end Log
end ReverseDns
