/-
# Configuration

Five variables of the environment configure a run: the form of the report,
whether pointer records are looked up, how long a lookup may take and how many
run at a time, and whether every conversion is logged. A variable that is not
set has its default. Variables are checked in a fixed order and the first bad
one is reported; a switch is on for three words and off for all others.

Key definitions: `Environment`, `Config`, `Config.Error`, `Config.ofEnvironment`.
-/
import ReverseDns.Config.Integer
import ReverseDns.Report
import ReverseDns.Text.Literal

namespace ReverseDns

/-- The variables that are set, each with its value. -/
abbrev Environment := List (Text × Text)

/-- The value of a variable; the last setting counts. -/
def Environment.get? (env : Environment) (name : Text) : Option Text :=
  (env.reverse.find? fun p => p.1 == name).map Prod.snd

/-- The settings of a run. -/
structure Config where
  format : Report.Format
  resolvePtr : Bool
  timeout : Int
  concurrency : Int
  verbose : Bool
deriving DecidableEq, Repr

namespace Config

/-! ### The variables -/

def formatName : Text := "OUTPUT_FORMAT".toList
def resolveName : Text := "RESOLVE_PTR".toList
def timeoutName : Text := "DNS_TIMEOUT".toList
def concurrencyName : Text := "DNS_CONCURRENCY".toList
def verboseName : Text := "VERBOSE".toList

/-- The first bad variable. -/
inductive Error
  | format
  | notInteger (name value : Text)
  | timeoutRange
  | concurrencyRange
deriving DecidableEq, Repr

/-- The longest time for a lookup in seconds, and the most lookups at a time. -/
def maxTimeout : Int := 60
def maxConcurrency : Int := 100

namespace Error

def message : Error → Text
  | format =>
    formatName ++ " must be one of ".toList
      ++ Text.join ", ".toList (Report.Format.all.map Report.Format.name)
  | notInteger name value =>
    name ++ " must be an integer, got ".toList ++ Text.literal value
  | timeoutRange =>
    timeoutName ++ " must be between 1 and ".toList ++ Text.decimal maxTimeout ++ " seconds".toList
  | concurrencyRange =>
    concurrencyName ++ " must be between 1 and ".toList ++ Text.decimal maxConcurrency

end Error

/-- The words that turn a switch on. -/
def onWords : List Text := ["true", "1", "yes"].map String.toList

/-- Whether a switch is on; it is off unless it is set to one of the words. -/
def switch (env : Environment) (name : Text) : Bool :=
  match env.get? name with
  | some t => onWords.contains (Text.lower t)
  | none => false

/-- The value of an integer variable. -/
def integer (env : Environment) (name : Text) (default : Int) : Except Error Int :=
  match env.get? name with
  | none => .ok default
  | some t =>
    match Integer.read? t with
    | some n => .ok n
    | none => .error (.notInteger name t)

/-- The value of an integer variable that lies between one and `most`. -/
def bounded (env : Environment) (name : Text) (default most : Int) (outside : Error) :
    Except Error Int :=
  match integer env name default with
  | .error e => .error e
  | .ok n => if 1 ≤ n ∧ n ≤ most then .ok n else .error outside

/-- The form of the report, white space and case disregarded. -/
def formatOf (env : Environment) : Except Error Report.Format :=
  match env.get? formatName with
  | none => .ok .json
  | some t =>
    match Report.Format.ofName? (Text.lower (Text.trim t)) with
    | some f => .ok f
    | none => .error .format

/-- Reads the settings from the environment. -/
def ofEnvironment (env : Environment) : Except Error Config := do
  let format ← formatOf env
  let timeout ← bounded env timeoutName 5 maxTimeout .timeoutRange
  let concurrency ← bounded env concurrencyName 10 maxConcurrency .concurrencyRange
  return {
    format, timeout, concurrency
    resolvePtr := switch env resolveName
    verbose := switch env verboseName }

end Config
end ReverseDns
