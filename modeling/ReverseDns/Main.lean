/-
# The command line

Gathers what a run depends on, runs it, and writes its report to standard output
and its log to standard error. No name servers are configured here, so every
lookup ends in that failure.
-/
import ReverseDns.Tool
import Std.Time.DateTime

open ReverseDns

/-- The variables of the environment that a run reads. -/
def readEnvironment : IO Environment := do
  let names := [Config.formatName, Config.resolveName, Config.timeoutName, Config.concurrencyName,
    Config.verboseName]
  let found ← names.filterMapM fun name => do
    return (← IO.getEnv (String.ofList name)).map fun value => (name, value.toList)
  return found

/-- The time by the system clock, as universal time. -/
def readTime : IO Timestamp := do
  let zero := Std.Time.TimeZone.Offset.zero
  let t := Std.Time.PlainDateTime.ofWallTime ((← Std.Time.Timestamp.now).toWallTime zero)
  return {
    year := t.date.year.toInt.toNat
    month := t.date.month.val.toNat
    day := t.date.day.val.toNat
    hour := t.time.hour.val.toNat
    minute := t.time.minute.val.toNat
    second := t.time.second.val.toNat
    microsecond := t.time.nanosecond.val.toNat / 1000 }

/-- A random name for the run. -/
def newRun : IO Text := return Bytes.hex (← IO.getRandomBytes 16).toList

/-- All of standard input. -/
partial def readInput (stream : IO.FS.Stream) (before : String) : IO Text := do
  let line ← stream.getLine
  if line.isEmpty then return before.toList else readInput stream (before ++ line)

def seconds (nanoseconds : Nat) : Float := nanoseconds.toFloat / 1000000000

/-- The time that a run takes is known only after it, so a run is made once for
its time and once more to report it. -/
def main (args : List String) : IO UInt32 := do
  let start := seconds (← IO.monoNanosNow)
  let input ← if args.isEmpty then readInput (← IO.getStdin) "" else pure []
  let setting : Tool.Setting := {
    arguments := args.map String.toList
    input
    environment := ← readEnvironment
    resolver := fun _ => { start := some (.failure .noConfiguration), answer := fun _ => .ok [] }
    clock := { start, finish := start }
    now := ← readTime }
  let timed ← IO.lazyPure fun _ => Tool.run setting
  let clock : Clock := { start, finish := seconds (← IO.monoNanosNow) }
  let outcome := Tool.run { setting with clock }
  let stamp : Log.Stamp := { time := ← readTime, run := ← newRun }
  let stdout ← IO.getStdout
  stdout.putStr (String.ofList outcome.output)
  stdout.flush
  match outcome.session.writeAll stamp outcome.records with
  | .ok lines => for line in lines do IO.eprintln (String.ofList line)
  | .error f => IO.eprintln (String.ofList f.describe)
  return timed.exitCode.toUInt32
