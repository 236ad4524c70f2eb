/-
# Converting many inputs

A batch converts its inputs in order and, if asked to, looks up the pointer
records of those that succeeded with a bounded number of lookups at a time. Each
lookup belongs to one entry by its position, so the order in which lookups
finish decides nothing but the order of log records. A fault in a lookup is
logged and leaves the entry's pointer result unknown.

Key definitions: `Batch.Options`, `Batch.Task`, `Batch.tasks`, `Batch.Outcome`,
`Batch.conversions`, `Batch.run`.
-/
import ReverseDns.Batch.Pool
import ReverseDns.Conversion
import ReverseDns.Ptr.Lookup

namespace ReverseDns
namespace Batch

/-- Whether to look up pointer records, how many at a time, and how many
seconds each may take. -/
structure Options where
  resolvePtr : Bool := false
  concurrency : Int := 10
  timeout : Int := 5
deriving DecidableEq, Repr

/-- A batch cannot run lookups without workers. -/
inductive Refusal
  | noWorkers
deriving DecidableEq, Repr

def Refusal.message : Refusal → Text
  | .noWorkers => "max_workers must be greater than 0".toList

/-- A lookup to be made: the position of its entry, the name to look up, and
the seconds it may take. -/
structure Task where
  index : Nat
  name : Text
  timeout : Int
deriving DecidableEq, Repr

/-- The entries in input order, the lookups made in the order they started, the
queries of those lookups, and the records logged. -/
structure Outcome where
  entries : List Entry
  tasks : List Task := []
  queries : List Ptr.Query := []
  records : List Log.Record := []

/-- What is logged of the conversions, in input order; `elapsed` says how many whole
milliseconds each of them took by the clock. -/
def conversions (elapsed : Nat → Int) (entries : List Entry) : List Log.Record :=
  entries.mapIdx fun i e => e.record (elapsed i)

/-- The task of an entry; only an entry that succeeded has one. -/
def task? (timeout : Int) (index : Nat) (e : Entry) : Option Task :=
  if e.isOk then e.reverseName.map fun name => ⟨index, name, timeout⟩ else none

/-- The tasks of entries in order, the first entry being at position `index`. -/
def tasks (timeout : Int) : (index : Nat) → List Entry → List Task
  | _, [] => []
  | index, e :: es => (task? timeout index e).toList ++ tasks timeout (index + 1) es

/-- The lookup of a task at its resolver; each task may have one of its own. -/
def Task.lookup (resolver : Nat → Ptr.Resolver) (t : Task) : Ptr.Lookup :=
  Ptr.lookup (resolver t.index) t.name t.timeout

/-- The pointer result of an entry by the outcome of its lookup. -/
def settle (name : Text) : Except Fault Ptr.Result → Ptr.Result
  | .ok r => r
  | .error f => ⟨name, .unknown, [], "Exception: ".toList ++ f.text⟩

/-- What is logged of a finished task. -/
def finishRecords (t : Task) (l : Ptr.Lookup) : List Log.Record :=
  match l.outcome with
  | .ok _ => l.records
  | .error f => l.records ++ [.lookupFault t.name f]

/-- Attaches the result of a finished task to its entry. -/
def attach (entries : List Entry) (t : Task) (l : Ptr.Lookup) : List Entry :=
  entries.modify t.index fun e => { e with ptr := some (settle t.name l.outcome) }

/-- The lookups of a batch whose entries are given; `lookup` says how each of
them goes, and `choices` picks the order in which they finish. -/
def resolve (width : Nat) (lookup : Task → Ptr.Lookup) (choices : List Nat) (pending : List Task)
    (entries : List Entry) (elapsed : Nat → Int) : Outcome :=
  let finished := Pool.completions width choices pending
  { entries := finished.foldl (fun es t => attach es t (lookup t)) entries
    tasks := pending
    queries := pending.flatMap fun t => (lookup t).queries
    records := conversions elapsed entries ++
      finished.flatMap fun t => finishRecords t (lookup t) }

/-- Converts the inputs and makes the lookups. -/
def run (options : Options) (lookup : Task → Ptr.Lookup) (choices : List Nat)
    (inputs : List Text) (elapsed : Nat → Int := fun _ => 0) : Except Refusal Outcome :=
  let entries := inputs.map Entry.ofInput
  let pending := if options.resolvePtr then tasks options.timeout 0 entries else []
  if pending ≠ [] ∧ options.concurrency < 1 then .error .noWorkers
  else .ok (resolve options.concurrency.toNat lookup choices pending entries elapsed)

end Batch
end ReverseDns
