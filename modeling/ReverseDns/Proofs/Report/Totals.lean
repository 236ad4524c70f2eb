/-
# Totals and fields of a report agree

The fields of an entry say one thing: an entry is good exactly if it has an output
and a reverse name, and exactly if it has no error; a pointer result belongs to a
good entry of a batch with lookups, carries the name of the entry, and has host
names or a reason as its status says (`Entry.Coherent`). Converting an input gives
such an entry (`Entry.coherent_ofInput`) and so does attaching the result of its
lookup, however that ended (`Batch.coherent_resolved`). A report on such entries
has totals that add up (`Report.consistent_of_coherent`).

Key definitions: `Entry.Coherent`, `Report.Consistent`.
Key theorems: `Entry.coherent_ofInput`, `Batch.coherent_resolved`,
`Report.consistent_of_coherent`, `Batch.report_consistent`.
-/
import ReverseDns.Proofs.Batch.Unknown
import ReverseDns.Report

namespace ReverseDns

/-- What a task leaves with its entry is a result for its name, also when the lookup
ended in a fault. -/
theorem Batch.answers_settle (resolver : Nat → Ptr.Resolver) (t : Task) :
    (settle t.name (t.lookup resolver).outcome).Answers t.name := by
  cases h : (t.lookup resolver).outcome with
  | ok r => exact Ptr.answers_of_lookup h
  | error f => exact ⟨rfl, by simp [settle], by simp [settle]⟩

/-! ### Entries -/

namespace Entry

/-- The fields of an entry of a batch, with or without lookups, agree with its
status. -/
structure Coherent (resolvePtr : Bool) (e : Entry) : Prop where
  output : e.status = .ok ↔ e.output.isSome = true
  reverseName : e.status = .ok ↔ e.reverseName.isSome = true
  errorKind : e.status = .ok ↔ e.errorKind = none
  errorMessage : e.status = .ok ↔ e.errorMessage = none
  kind_mem : ∀ k ∈ e.errorKind,
    k ∈ ["address", "rune", "length", "validation"].map String.toList
  ptr : e.ptr.isSome = true ↔ e.status = .ok ∧ resolvePtr = true
  answers : ∀ r ∈ e.ptr, ∃ name, e.reverseName = some name ∧ r.Answers name

variable {e : Entry}

theorem isOk_iff : e.isOk = true ↔ e.status = .ok := beq_iff_eq

theorem isSome_ptr (h : e.isResolved = true) : e.ptr.isSome = true := by
  unfold isResolved at h
  cases hp : e.ptr with
  | none => simp [hp] at h
  | some r => rfl

theorem kind_text_mem (k : Error.Kind) :
    k.text ∈ ["address", "rune", "length", "validation"].map String.toList := by
  cases k <;> decide

/-- **The fields of a new entry agree**, and it has no pointer result. -/
theorem coherent_ofInput (v : Text) : (ofInput v).Coherent false := by
  rw [ofInput_eq_ofAttempt]
  cases Direction.attempt (Text.trim v) (Direction.detect (Text.trim v)) with
  | ok texts => constructor <;> simp [ofAttempt]
  | error err =>
    have hkind := kind_text_mem err.root.kind
    constructor <;> simp [ofAttempt]
    simpa using hkind

end Entry

namespace Batch

/-- **They agree also when the lookups are made.** -/
theorem coherent_resolved {e : Entry} (h : e.Coherent false) (timeout : Int)
    (resolver : Nat → Ptr.Resolver) (index : Nat) :
    (resolved timeout (Task.lookup resolver) index e).Coherent true := by
  have hbefore : e.ptr = none := by simpa using h.ptr
  unfold resolved
  split
  · rename_i t ht
    obtain ⟨-, hok, hname⟩ := task?_eq_some_iff.mp ht
    refine { h with ptr := by simpa using Entry.isOk_iff.mp hok, answers := fun r hr => ?_ }
    obtain rfl : settle t.name (t.lookup resolver).outcome = r := by simpa using hr
    exact ⟨t.name, hname, answers_settle resolver t⟩
  · rename_i hnone
    -- Without a task the entry is bad, for a good one has a name to look up.
    have hbad : e.status ≠ .ok := fun hok => by
      obtain ⟨name, hname⟩ := Option.isSome_iff_exists.mp (h.reverseName.mp hok)
      have ht : task? timeout index e = some ⟨index, name, timeout⟩ :=
        task?_eq_some_iff.mpr ⟨⟨rfl, rfl⟩, Entry.isOk_iff.mpr hok, hname⟩
      rw [hnone] at ht
      simp at ht
    exact { h with ptr := by simp [hbefore, hbad] }

variable {options : Options} {resolver : Nat → Ptr.Resolver} {inputs : List Text}

theorem coherent_finalEntries :
    ∀ e ∈ finalEntries options (Task.lookup resolver) inputs, e.Coherent options.resolvePtr := by
  intro e he
  cases hr : options.resolvePtr with
  | true =>
    obtain ⟨i, hi⟩ := List.mem_iff_getElem?.mp he
    rw [getElem?_finalEntries hr, Option.map_eq_some_iff] at hi
    obtain ⟨v, -, rfl⟩ := hi
    exact coherent_resolved (Entry.coherent_ofInput v) options.timeout resolver i
  | false =>
    rw [finalEntries, hr, if_neg Bool.false_ne_true, List.mem_map] at he
    obtain ⟨v, -, rfl⟩ := he
    exact Entry.coherent_ofInput v

theorem map_input_finalEntries (lookup : Task → Ptr.Lookup) :
    (finalEntries options lookup inputs).map Entry.input = inputs := by
  have h := congrArg (List.map Entry.input) (bare_finalEntries options lookup inputs)
  rw [List.map_map, List.map_map] at h
  have hinputs : Entry.input ∘ Entry.ofInput = id := funext Entry.input_ofInput
  rw [hinputs, List.map_id] at h
  exact h

end Batch

/-! ### Reports -/

namespace Report

/-- A report on a batch has an entry for each input, in input order, totals that add
up, and entries whose fields agree. -/
structure Consistent (inputs : List Text) (resolvePtr : Bool) (r : Report) : Prop where
  input : r.entries.map Entry.input = inputs
  total : r.total = inputs.length
  sum : r.total = r.converted + r.failed
  failed : r.failed = r.entries.countP fun e => e.status == .error
  resolved_le : r.resolved ≤ r.converted
  resolved_eq_zero : resolvePtr = false → r.resolved = 0
  entries : ∀ e ∈ r.entries, e.Coherent resolvePtr

variable {r : Report} {inputs : List Text} {resolvePtr : Bool}

/-- What was not converted has failed. -/
theorem total_eq_add (r : Report) :
    r.total = r.converted + r.entries.countP fun e => e.status == .error := by
  have hstatus : (fun e : Entry => decide ¬ e.isOk = true) = fun e => e.status == .error := by
    funext e
    unfold Entry.isOk
    cases e.status <;> rfl
  rw [total, converted, List.length_eq_countP_add_countP Entry.isOk, hstatus]

/-- **Totals add up if the fields of the entries agree.** -/
theorem consistent_of_coherent (hinputs : r.entries.map Entry.input = inputs)
    (h : ∀ e ∈ r.entries, e.Coherent resolvePtr) : r.Consistent inputs resolvePtr where
  input := hinputs
  total := by rw [total, ← hinputs, List.length_map]
  sum := by
    have htotal := r.total_eq_add
    unfold failed
    omega
  failed := by
    have htotal := r.total_eq_add
    unfold failed
    omega
  resolved_le := List.countP_mono_left fun e he hresolved =>
    Entry.isOk_iff.mpr ((h e he).ptr.mp (Entry.isSome_ptr hresolved)).1
  resolved_eq_zero hoff := List.countP_eq_zero.mpr fun e he hresolved => by
    have hon := ((h e he).ptr.mp (Entry.isSome_ptr hresolved)).2
    rw [hoff] at hon
    exact Bool.false_ne_true hon
  entries := h

end Report

namespace Batch

theorem consistent_of_entries {options : Options} {resolver : Nat → Ptr.Resolver}
    {inputs : List Text} {r : Report}
    (h : r.entries = finalEntries options (Task.lookup resolver) inputs) :
    r.Consistent inputs options.resolvePtr :=
  Report.consistent_of_coherent (by rw [h, map_input_finalEntries])
    (by rw [h]; exact coherent_finalEntries)

/-- **A report on a batch is consistent**, whatever the inputs are and however the
lookups end. A batch without lookups and a batch with a worker are not refused; a
report on the entries of a batch that is not refused is consistent; and so is a report
on the entries that any schedule of the lookups leaves when it is complete. -/
theorem report_consistent (options : Options) (resolver : Nat → Ptr.Resolver)
    (choices : List Nat) (inputs : List Text) (elapsed : Nat → Int) :
    (options.resolvePtr = false ∨ 1 ≤ options.concurrency →
      ∃ o, run options (Task.lookup resolver) choices inputs elapsed = .ok o) ∧
    (∀ o, run options (Task.lookup resolver) choices inputs elapsed = .ok o →
      ∀ r : Report, r.entries = o.entries → r.Consistent inputs options.resolvePtr) ∧
    ∀ width p, Progress.Run width (Task.lookup resolver)
        (Progress.initial options.timeout elapsed (inputs.map Entry.ofInput)) p → p.Done →
      ∀ r : Report, r.entries = p.entries → r.Consistent inputs true := by
  refine ⟨fun h => ?_, fun o ho r hr => ?_, fun width p hrun hdone r hr => ?_⟩
  · rcases h with hoff | hworker
    · refine ⟨_, run_eq.trans (if_neg fun hlt => hlt.1 ?_)⟩
      rw [pending, hoff, if_neg Bool.false_ne_true]
    · obtain ⟨o, ho, -⟩ := exists_run options (Task.lookup resolver) choices inputs elapsed hworker
      exact ⟨o, ho⟩
  · exact consistent_of_entries (hr.trans (leaves_of_run ho).entries)
  · have hsound := (Progress.sound_initial options.timeout (Task.lookup resolver) elapsed
      (inputs.map Entry.ofInput)).of_run hrun
    have hentries : r.entries =
        finalEntries { options with resolvePtr := true } (Task.lookup resolver) inputs :=
      hr.trans (hsound.of_done hdone).1
    exact consistent_of_entries hentries

/-- One lookup finds host names, one ends in a fault and one finds nothing, and one
input is bad. -/
theorem report_consistent_mixed :
    let options : Options := { resolvePtr := true, concurrency := 2 }
    let inputs := ["10.0.0.1", "x", " 1.0.0.10.in-addr.arpa. ", "::1"].map String.toList
    let reply (i : Nat) : Except Ptr.Trouble (List Text) :=
      if i = 0 then .ok (["b.", "a."].map String.toList)
      else if i = 2 then .error (.fault ⟨.runtime, "boom".toList⟩)
      else .error (.failure .nonexistentName)
    let resolver (i : Nat) : Ptr.Resolver := { answer := fun _ => reply i }
    let elapsed (i : Nat) : Int := 2 * i
    let report (entries : List Entry) : Report :=
      { timestamp := { year := 2025, month := 12, day := 19 }, durationMs := 0, entries }
    (options.resolvePtr = false ∨ 1 ≤ options.concurrency) ∧
      (∃ o, run options (Task.lookup resolver) [1] inputs elapsed = .ok o ∧
        (report o.entries).Consistent inputs true ∧ (report o.entries).total = 4 ∧
        (report o.entries).converted = 3 ∧ (report o.entries).failed = 1 ∧
        (report o.entries).resolved = 1) ∧
      ∃ p, Progress.Run 2 (Task.lookup resolver)
        (Progress.initial options.timeout elapsed (inputs.map Entry.ofInput)) p ∧ p.Done ∧
        (report p.entries).Consistent inputs true := by
  intro options inputs reply resolver elapsed report
  have hworker : options.resolvePtr = false ∨ 1 ≤ options.concurrency := .inr (by decide)
  obtain ⟨hrun, hbatch, hschedule⟩ := report_consistent options resolver [1] inputs elapsed
  obtain ⟨o, ho⟩ := hrun hworker
  obtain ⟨p, hp, hdone⟩ : ∃ p, Progress.Run 2 (Task.lookup resolver)
      (Progress.initial options.timeout elapsed (inputs.map Entry.ofInput)) p ∧ p.Done :=
    Progress.exists_done (by decide) _
  have htotals : (match run options (Task.lookup resolver) [1] inputs elapsed with
      | .ok o => [(report o.entries).total, (report o.entries).converted,
          (report o.entries).failed, (report o.entries).resolved]
      | .error _ => []) = [4, 3, 1, 1] := by decide +kernel
  rw [ho] at htotals
  simp only [List.cons.injEq, and_true] at htotals
  exact ⟨hworker, ⟨o, ho, hbatch o ho _ rfl, htotals⟩, p, hp, hdone, hschedule 2 p hp hdone _ rfl⟩

end Batch
end ReverseDns
