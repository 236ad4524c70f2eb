/-
# What a lookup does

A lookup makes one query if its resolver starts and none otherwise, and logs
what its outcome asks for. The time it may take is passed on to the query and
decides neither the outcome nor what is logged.

Key theorems: `Ptr.queries_lookup`, `Ptr.outcome_lookup_congr`, `Ptr.ofLookup_of_mem_records`.
-/
import ReverseDns.Proofs.Log.Written
import ReverseDns.Ptr.Lookup

namespace ReverseDns
namespace Ptr

variable {resolver : Resolver} {name : Text} {timeout : Int}

/-- **A query is made for the name of the lookup**, with all of its time. -/
theorem queries_lookup : (lookup resolver name timeout).queries =
    if resolver.start.isNone then [⟨name, timeout⟩] else [] := by
  unfold lookup
  cases resolver.start <;> rfl

theorem records_lookup :
    (lookup resolver name timeout).records = logged (lookup resolver name timeout).outcome := by
  unfold lookup
  cases resolver.start <;> rfl

/-! ### The time it may take -/

theorem outcome_lookup_congr (timeout' : Int) :
    (lookup resolver name timeout).outcome = (lookup resolver name timeout').outcome := by
  unfold lookup
  cases resolver.start <;> rfl

theorem records_lookup_congr (timeout' : Int) :
    (lookup resolver name timeout).records = (lookup resolver name timeout').records := by
  rw [records_lookup, records_lookup, outcome_lookup_congr timeout']

theorem names_lookup_congr (timeout' : Int) :
    (lookup resolver name timeout).queries.map Query.name =
      (lookup resolver name timeout').queries.map Query.name := by
  rw [queries_lookup, queries_lookup]
  split <;> rfl

/-! ### What it logs -/

theorem ofLookup_of_mem_records {r : Log.Record}
    (h : r ∈ (lookup resolver name timeout).records) : r.OfLookup := by
  rw [records_lookup, logged.eq_def] at h
  split at h
  · split at h
    · rw [List.mem_singleton.mp h]
      exact .failed _ _
    · simp at h
  · simp at h

end Ptr
end ReverseDns
