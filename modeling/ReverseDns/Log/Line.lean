/-
# Log lines

A record is written as one line of JSON: the message, the fault if there is
one, the extra fields in their order except those whose name begins with an
underscore, and then the four fields that the writer sets itself. An extra field
of one of those four names keeps its place and gets the writer's value.

Key definitions: `Log.Stamp`, `Log.Record.fields`, `Log.Record.line`.
-/
import ReverseDns.Json.Write
import ReverseDns.Log.Record
import ReverseDns.Timestamp

namespace ReverseDns
namespace Log

/-- What the writer knows besides the record: the time and the run. The clock is held
still: every line of a session has the time of one stamp, although the writer reads the
clock for each of them. -/
structure Stamp where
  time : Timestamp
  run : Text

namespace Record

/-- The extra fields that are written. -/
def kept (r : Record) : Json.Members :=
  r.extra.filter fun m => m.1.head? != some '_'

/-- The members of the line in order. The fault is given by its kind and text, which the
last line of a traceback has, and not by the traceback. -/
def fields (stamp : Stamp) (r : Record) : Json.Members :=
  let fault : Json.Members := match r.fault with
    | none => []
    | some f => [("exc_info".toList, .str f.describe)]
  let own : Json.Members := ("message".toList, .str r.message) :: (fault ++ r.kept)
  Json.put "logger".toList (.str r.logger) <|
    Json.put "level".toList (.str r.level.text) <|
      Json.put "run_id".toList (.str stamp.run) <|
        Json.put "timestamp".toList (.str stamp.time.logText) own

/-- The line of a record, without a line end. The integers among the extra fields are
taken to be short (`Integer.isShort`), as those of a run are: with a longer one the
writer has no line but an error of its own. -/
def line (stamp : Stamp) (r : Record) : Text := (Json.Value.obj (r.fields stamp)).compact

end Record
end Log
end ReverseDns
