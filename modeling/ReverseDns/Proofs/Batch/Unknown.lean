/-
# Every result that stays unknown is on record

A pointer result stays unknown for one of two reasons. Either the name system
failed, and the result says how by one of four words; or the lookup ended in a
fault, and the data of the result begin with a mark that none of the words
begins with. The first is logged by the lookup and the second by the batch, each
in one record that can be written from the result alone. So the records of the
lookups of a batch are those of the results in its entries
(`Batch.flatMap_finishRecords`).

Key definitions: `Ptr.Result.isOfFault`, `Ptr.Result.records`.
Key theorems: `Batch.finishRecords_lookup`, `Batch.flatMap_finishRecords`,
`Batch.reply_of_isUnknown`.
-/
import ReverseDns.Proofs.Batch.Timeout
import ReverseDns.Proofs.Ptr.Outcome

namespace ReverseDns

/-! ### The records of a result -/

namespace Ptr

variable {r : Result}

namespace Result

/-- How the data of a result begin that a fault left unknown. -/
def faultMark : Text := "Exception: ".toList

/-- A result that a fault left unknown. -/
def isOfFault (r : Result) : Bool := r.isUnknown && faultMark.isPrefixOf r.responseData

/-- A result that a failure of the name system left unknown. -/
def isOfFailure (r : Result) : Bool := r.isUnknown && !faultMark.isPrefixOf r.responseData

/-- What is logged of a failure of the name system. -/
def failureRecord (r : Result) : Log.Record := warning r.name r.responseData

/-- What is logged of a fault, its text being what follows the mark. -/
def faultRecord (r : Result) : Log.Record where
  logger := "revaddr.services.converter".toList
  level := .error
  message := "Unexpected error resolving ".toList ++ r.name ++ ": ".toList
    ++ r.responseData.drop faultMark.length
  fault := none
  extra := []

/-- The record of a result that stayed unknown; there is none of any other. -/
def records (r : Result) : List Log.Record :=
  if r.isOfFault then [r.faultRecord] else if r.isOfFailure then [r.failureRecord] else []

/-- No failure of the name system is named like a fault. -/
theorem faultMark_not_isPrefix (t : Trouble) : faultMark.isPrefixOf t.category = false := by
  unfold Trouble.category
  repeat' split
  all_goals decide +kernel

theorem isOfFailure_of_failure (name : Text) (t : Trouble) :
    isOfFailure ⟨name, .unknown, [], t.category⟩ = true := by
  unfold isOfFailure
  rw [faultMark_not_isPrefix]
  rfl

theorem isOfFault_of_fault (name text : Text) :
    isOfFault ⟨name, .unknown, [], faultMark ++ text⟩ = true := by
  have hmark : faultMark.isPrefixOf (faultMark ++ text) = true :=
    List.isPrefixOf_iff_prefix.mpr (List.prefix_append _ _)
  unfold isOfFault
  rw [hmark]
  rfl

theorem isOfFault_eq_false (h : r.isOfFailure = true) : r.isOfFault = false := by
  unfold isOfFailure at h
  unfold isOfFault
  cases hmark : faultMark.isPrefixOf r.responseData <;> simp [hmark] at h ⊢

theorem records_of_isOfFailure (h : r.isOfFailure = true) : r.records = [r.failureRecord] := by
  unfold records
  rw [isOfFault_eq_false h, if_neg Bool.false_ne_true, if_pos h]

theorem records_of_isUnknown_eq_false (h : r.isUnknown = false) : r.records = [] := by
  unfold records isOfFault isOfFailure
  rw [h]
  rfl

end Result
end Ptr

/-! ### The records of a batch -/

namespace Batch

variable {resolver : Nat → Ptr.Resolver} {lookup : Task → Ptr.Lookup}

/-- **What is logged of a task can be told from its result.** -/
theorem finishRecords_lookup (t : Task) : finishRecords t (t.lookup resolver) =
    (settle t.name (t.lookup resolver).outcome).records := by
  have hrecords : (t.lookup resolver).records = Ptr.logged (t.lookup resolver).outcome :=
    Ptr.records_lookup
  rw [finishRecords_eq, hrecords]
  unfold faultRecords
  cases h : (t.lookup resolver).outcome with
  | ok r =>
    simp only [settle, Ptr.logged, List.append_nil]
    cases hr : r.isUnknown with
    | false => rw [Ptr.Result.records_of_isUnknown_eq_false hr, if_neg Bool.false_ne_true]
    | true =>
      obtain ⟨failure, -, rfl⟩ := Ptr.exists_failure_of_lookup h hr
      rw [Ptr.Result.records_of_isOfFailure (Ptr.Result.isOfFailure_of_failure _ _), if_pos rfl]
      rfl
  | error f =>
    have hfault := Ptr.Result.isOfFault_of_fault t.name f.text
    have hsettle : settle t.name (.error f) =
        ⟨t.name, .unknown, [], Ptr.Result.faultMark ++ f.text⟩ := rfl
    have hrecord : Log.Record.lookupFault t.name f = (settle t.name (.error f)).faultRecord := by
      rw [hsettle]
      unfold Log.Record.lookupFault Ptr.Result.faultRecord
      simp only [List.drop_left]
      rfl
    show [Log.Record.lookupFault t.name f] = (settle t.name (.error f)).records
    rw [hrecord, hsettle, Ptr.Result.records, if_pos hfault]

/-- The results in entries are those of the tasks of the entries. -/
theorem filterMap_ptr_mapIdx (lookup : Task → Ptr.Lookup) (timeout : Int) :
    ∀ (es : List Entry) (index : Nat), (∀ e ∈ es, e.ptr = none) →
    (es.mapIdx fun i e => resolved timeout lookup (index + i) e).filterMap Entry.ptr =
      (tasks timeout index es).map fun t => settle t.name (lookup t).outcome
  | [], _, _ => rfl
  | e :: es, index, h => by
    obtain ⟨he, hes⟩ := List.forall_mem_cons.mp h
    have ih := filterMap_ptr_mapIdx lookup timeout es (index + 1) hes
    have hshift : (fun i e => resolved timeout lookup (index + (i + 1)) e) =
        fun i e => resolved timeout lookup (index + 1 + i) e := by
      funext i e
      rw [show index + (i + 1) = index + 1 + i by omega]
    rw [List.mapIdx_cons, tasks, List.map_append, hshift, List.filterMap_cons, ih]
    unfold resolved
    rw [Nat.add_zero]
    cases task? timeout index e with
    | none => simp [he]
    | some t => rfl

variable {options : Options} {inputs : List Text}

theorem filterMap_ptr_finalEntries :
    (finalEntries options lookup inputs).filterMap Entry.ptr =
      (pending options inputs).map fun t => settle t.name (lookup t).outcome := by
  have hnone : ∀ e ∈ inputs.map Entry.ofInput, e.ptr = none := by
    intro e he
    obtain ⟨v, -, rfl⟩ := List.mem_map.mp he
    exact Entry.ptr_ofInput v
  unfold finalEntries pending
  split
  · have h := filterMap_ptr_mapIdx lookup options.timeout _ 0 hnone
    simp only [Nat.zero_add] at h
    exact h
  · exact List.filterMap_eq_nil_iff.mpr hnone

/-- **The records of lookups are those of the results in the entries.** -/
theorem flatMap_finishRecords :
    ((pending options inputs).flatMap fun t => finishRecords t (t.lookup resolver)) =
      ((finalEntries options (Task.lookup resolver) inputs).filterMap Entry.ptr).flatMap
        Ptr.Result.records := by
  rw [filterMap_ptr_finalEntries, List.flatMap_map]
  simp only [finishRecords_lookup]

/-- An entry has the result of the lookup of its own name. -/
theorem exists_settle_of_ptr {i : Nat} {e : Entry} {r : Ptr.Result}
    (he : (finalEntries options (Task.lookup resolver) inputs)[i]? = some e)
    (hr : e.ptr = some r) : ∃ name,
      r = settle name (Ptr.lookup (resolver i) name options.timeout).outcome := by
  cases hresolve : options.resolvePtr with
  | false =>
    unfold finalEntries at he
    rw [hresolve, if_neg Bool.false_ne_true, List.getElem?_map, Option.map_eq_some_iff] at he
    obtain ⟨v, -, rfl⟩ := he
    rw [Entry.ptr_ofInput] at hr
    simp at hr
  | true =>
    rw [getElem?_finalEntries hresolve, Option.map_eq_some_iff] at he
    obtain ⟨v, -, rfl⟩ := he
    unfold resolved at hr
    split at hr
    · rename_i t ht
      obtain ⟨⟨rfl, htime⟩, -⟩ := task?_eq_some_iff.mp ht
      refine ⟨t.name, ?_⟩
      rw [← htime]
      exact (Option.some.inj hr).symm
    · rw [Entry.ptr_ofInput] at hr
      simp at hr

/-- **An unknown result has its reason in the reply of the resolver**, and the reason
can be told from its data. -/
theorem reply_of_isUnknown {i : Nat} {e : Entry} {r : Ptr.Result}
    (he : (finalEntries options (Task.lookup resolver) inputs)[i]? = some e)
    (hr : e.ptr = some r) (hu : r.isUnknown = true) :
    (r.isOfFailure = true ∧ ∃ f, (resolver i).reply r.name = .error (.failure f) ∧
        r.responseData = (Ptr.Trouble.failure f).category) ∨
      (r.isOfFault = true ∧ ∃ f, (resolver i).reply r.name = .error (.fault f) ∧
        r.responseData = Ptr.Result.faultMark ++ f.text) := by
  obtain ⟨name, rfl⟩ := exists_settle_of_ptr he hr
  cases hl : (Ptr.lookup (resolver i) name options.timeout).outcome with
  | ok r =>
    rw [hl] at hu
    obtain ⟨f, hreply, rfl⟩ := Ptr.exists_failure_of_lookup hl hu
    exact .inl ⟨Ptr.Result.isOfFailure_of_failure _ _, f, hreply, rfl⟩
  | error f =>
    exact .inr ⟨Ptr.Result.isOfFault_of_fault _ _, f, Ptr.reply_eq_of_lookup_eq_error hl, rfl⟩

end Batch
end ReverseDns
