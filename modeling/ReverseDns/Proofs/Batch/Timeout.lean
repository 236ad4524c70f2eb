/-
# The time for a lookup

Two batches over the same inputs and resolvers may give their lookups different
times. Their tasks then differ in that time alone (`Batch.tasks_within`), and a
task that is given another time ends in the same way, leaves the same records
and asks for the same name; so the entries of both batches are the same
(`Batch.finalEntries_congr`).

Key definitions: `Batch.Task.within`.
Key theorems: `Batch.tasks_within`, `Batch.finalEntries_congr`.
-/
import ReverseDns.Proofs.Batch.Outcome
import ReverseDns.Proofs.Ptr.Lookup

namespace ReverseDns
namespace Batch

/-- A task that may take another time. -/
def Task.within (timeout : Int) (t : Task) : Task := { t with timeout }

section

variable {resolver : Nat → Ptr.Resolver} {timeout timeout' : Int} {index : Nat} {t : Task}

theorem outcome_within : ((t.within timeout).lookup resolver).outcome = (t.lookup resolver).outcome :=
  Ptr.outcome_lookup_congr t.timeout

theorem names_within : ((t.within timeout).lookup resolver).queries.map Ptr.Query.name =
    (t.lookup resolver).queries.map Ptr.Query.name :=
  Ptr.names_lookup_congr t.timeout

theorem finishRecords_within : finishRecords (t.within timeout) ((t.within timeout).lookup resolver) =
    finishRecords t (t.lookup resolver) := by
  have hrecords : ((t.within timeout).lookup resolver).records = (t.lookup resolver).records :=
    Ptr.records_lookup_congr t.timeout
  unfold finishRecords
  rw [hrecords, outcome_within]
  rfl

theorem task?_within (timeout timeout' : Int) (index : Nat) (e : Entry) :
    (task? timeout' index e).map (Task.within timeout) = task? timeout index e := by
  unfold task?
  split
  · rw [Option.map_map]
    rfl
  · rfl

/-- **The tasks of a batch differ from those of another in their time alone.** -/
theorem tasks_within (timeout timeout' : Int) : ∀ (es : List Entry) (index : Nat),
    (tasks timeout' index es).map (Task.within timeout) = tasks timeout index es
  | [], _ => rfl
  | e :: es, index => by
    rw [tasks, tasks, List.map_append, tasks_within, ← task?_within timeout timeout' index e]
    cases task? timeout' index e <;> rfl

theorem resolved_congr (timeout timeout' : Int) (index : Nat) (e : Entry) :
    resolved timeout (Task.lookup resolver) index e =
      resolved timeout' (Task.lookup resolver) index e := by
  unfold resolved
  rw [← task?_within timeout timeout' index e]
  cases task? timeout' index e with
  | none => rfl
  | some t =>
    rw [Option.map_some]
    dsimp only
    rw [outcome_within]
    rfl

/-- A lookup is asked to take the time of its task. -/
theorem lifetime_of_mem_queries {q : Ptr.Query} (h : q ∈ (t.lookup resolver).queries) :
    q.lifetime = t.timeout := by
  unfold Task.lookup at h
  rw [Ptr.queries_lookup] at h
  split at h
  · rw [List.mem_singleton.mp h]
  · simp at h

end

/-! ### Two batches over the same inputs -/

variable {resolver : Nat → Ptr.Resolver} {options options' : Options} {inputs : List Text}

theorem pending_within (h : options.resolvePtr = options'.resolvePtr) :
    (pending options' inputs).map (Task.within options.timeout) = pending options inputs := by
  unfold pending
  rw [h]
  split
  · exact tasks_within _ _ _ _
  · rfl

/-- **The time for lookups does not show in the entries.** -/
theorem finalEntries_congr (h : options.resolvePtr = options'.resolvePtr) :
    finalEntries options (Task.lookup resolver) inputs =
      finalEntries options' (Task.lookup resolver) inputs := by
  unfold finalEntries
  rw [h, show resolved options.timeout (Task.lookup resolver) =
    resolved options'.timeout (Task.lookup resolver) from funext₂ (resolved_congr _ _)]

/-- Nor does it show in the names that are looked up, or in the records. -/
theorem names_congr (h : options.resolvePtr = options'.resolvePtr) :
    ((pending options inputs).flatMap fun t => (t.lookup resolver).queries).map Ptr.Query.name =
      ((pending options' inputs).flatMap fun t => (t.lookup resolver).queries).map
        Ptr.Query.name := by
  rw [← pending_within h, List.flatMap_map, List.map_flatMap, List.map_flatMap]
  simp only [names_within]

theorem finishRecords_congr (h : options.resolvePtr = options'.resolvePtr) :
    ((pending options inputs).flatMap fun t => finishRecords t (t.lookup resolver)) =
      (pending options' inputs).flatMap fun t => finishRecords t (t.lookup resolver) := by
  rw [← pending_within h, List.flatMap_map]
  simp only [finishRecords_within]

theorem lifetime_of_mem_pending {t : Task} (h : t ∈ pending options inputs) :
    t.timeout = options.timeout := by
  unfold pending at h
  split at h
  · obtain ⟨e, -, he⟩ := mem_tasks_iff.mp h
    exact (task?_eq_some_iff.mp he).1.2
  · simp at h

end Batch
end ReverseDns
