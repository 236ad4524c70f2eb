/-
# What a batch leaves behind

The order in which a pool finishes its tasks is a permutation of its queue
(`Pool.completions_perm`), so a batch with at least one worker leaves the entries
of its inputs, each with the result of its own lookup, and records that differ in
their order at most (`Batch.exists_run`). That is also what every schedule of the
lookups leaves (`Batch.run_resolves`).

Key definitions: `Entry.bare`, `Batch.pending`, `Batch.Resolves`.
Key theorems: `Pool.completions_perm`, `Batch.exists_run`, `Batch.run_resolves`.
-/
import ReverseDns.Proofs.Batch.Schedule
import ReverseDns.Proofs.Conversion.Detection

namespace ReverseDns

/-- **A pool finishes each task of its queue once**, in whatever order. -/
theorem Pool.completions_perm {α : Type} (width : Nat) : ∀ (choices : List Nat) (queue : List α),
    (completions width choices queue).Perm queue
  | [], _ => .refl _
  | choice :: choices, queue => by
    rw [completions]
    split
    · exact .refl _
    · rename_i task h
      obtain ⟨hk, rfl⟩ := List.getElem?_eq_some_iff.mp h
      exact ((completions_perm width choices _).cons _).trans (List.getElem_cons_eraseIdx_perm hk)

/-! ### Entries without their pointer results -/

namespace Entry

/-- An entry without its pointer result. -/
def bare (e : Entry) : Entry := { e with ptr := none }

@[simp] theorem isOk_bare (e : Entry) : e.bare.isOk = e.isOk := rfl

@[simp] theorem reverseName_bare (e : Entry) : e.bare.reverseName = e.reverseName := rfl

theorem bare_eq_self {e : Entry} (h : e.ptr = none) : e.bare = e := by
  obtain ⟨input, direction, status, output, name, kind, message, ptr⟩ := e
  simp only at h
  subst h
  rfl

theorem bare_ofInput (v : Text) : (ofInput v).bare = ofInput v := bare_eq_self (ptr_ofInput v)

end Entry

namespace Batch

section

variable {timeout : Int} {lookup : Task → Ptr.Lookup} {index : Nat} {e : Entry} {es : List Entry}

theorem bare_resolved : (resolved timeout lookup index e).bare = e.bare := by
  unfold resolved
  split <;> rfl

@[simp] theorem isOk_resolved : (resolved timeout lookup index e).isOk = e.isOk := by
  rw [← Entry.isOk_bare, bare_resolved, Entry.isOk_bare]

@[simp] theorem reverseName_resolved :
    (resolved timeout lookup index e).reverseName = e.reverseName := by
  rw [← Entry.reverseName_bare, bare_resolved, Entry.reverseName_bare]

theorem resolved_of_isOk_eq_false (h : e.isOk = false) : resolved timeout lookup index e = e := by
  unfold resolved task?
  simp [h]

theorem ptr_resolved {name : Text} (hok : e.isOk = true) (hn : e.reverseName = some name) :
    (resolved timeout lookup index e).ptr =
      some (settle name (lookup ⟨index, name, timeout⟩).outcome) := by
  have ht : task? timeout index e = some ⟨index, name, timeout⟩ :=
    task?_eq_some_iff.mpr ⟨⟨rfl, rfl⟩, hok, hn⟩
  unfold resolved
  rw [ht]

end

/-! ### The records of conversions -/

section

variable {elapsed : Nat → Int} {es : List Entry}

theorem exists_of_mem_conversions {r : Log.Record} (h : r ∈ conversions elapsed es) :
    ∃ (e : Entry) (durationMs : Int), r = e.record durationMs := by
  obtain ⟨i, hi, rfl⟩ := List.mem_mapIdx.mp h
  exact ⟨es[i], elapsed i, rfl⟩

/-- What is logged of conversions does not depend on pointer results. -/
theorem conversions_map_bare : conversions elapsed (es.map Entry.bare) = conversions elapsed es := by
  apply List.ext_getElem?
  intro i
  unfold conversions
  rw [List.getElem?_mapIdx, List.getElem?_mapIdx, List.getElem?_map, Option.map_map]
  rfl

end

/-! ### The run of a batch -/

variable {options : Options} {lookup : Task → Ptr.Lookup} {choices : List Nat} {inputs : List Text}
  {elapsed : Nat → Int}

/-- The tasks of a batch: none if it looks nothing up. -/
def pending (options : Options) (inputs : List Text) : List Task :=
  if options.resolvePtr then tasks options.timeout 0 (inputs.map Entry.ofInput) else []

/-- The entries of a batch after its lookups. -/
def finalEntries (options : Options) (lookup : Task → Ptr.Lookup) (inputs : List Text) : List Entry :=
  if options.resolvePtr then (inputs.map Entry.ofInput).mapIdx (resolved options.timeout lookup)
  else inputs.map Entry.ofInput

/-- What a batch leaves behind: entries and queries that depend neither on the
number of workers nor on the order in which lookups finish, and records that
depend on that order alone. -/
structure Leaves (options : Options) (lookup : Task → Ptr.Lookup) (inputs : List Text)
    (elapsed : Nat → Int) (o : Outcome) : Prop where
  entries : o.entries = finalEntries options lookup inputs
  tasks : o.tasks = pending options inputs
  queries : o.queries = (pending options inputs).flatMap fun t => (lookup t).queries
  records : ∃ finished : List Task, finished.Perm (pending options inputs) ∧
    o.records = conversions elapsed (inputs.map Entry.ofInput) ++
      finished.flatMap fun t => finishRecords t (lookup t)

theorem leaves_resolve (options : Options) (lookup : Task → Ptr.Lookup) (choices : List Nat)
    (inputs : List Text) (elapsed : Nat → Int) :
    Leaves options lookup inputs elapsed (resolve options.concurrency.toNat lookup choices
      (pending options inputs) (inputs.map Entry.ofInput) elapsed) := by
  have hperm := Pool.completions_perm options.concurrency.toNat choices (pending options inputs)
  refine ⟨?_, rfl, rfl, _, hperm, rfl⟩
  unfold resolve finalEntries
  unfold pending at hperm ⊢
  split
  · rename_i hr
    rw [if_pos hr] at hperm
    exact foldl_attach_eq_mapIdx hperm
  · rename_i hr
    rw [if_neg hr] at hperm
    rw [hperm.eq_nil]
    rfl

theorem run_eq : run options lookup choices inputs elapsed =
    if pending options inputs ≠ [] ∧ options.concurrency < 1 then .error .noWorkers
    else .ok (resolve options.concurrency.toNat lookup choices (pending options inputs)
      (inputs.map Entry.ofInput) elapsed) := rfl

/-- A batch that is not refused leaves the same whatever its number of workers. -/
theorem leaves_of_run {o : Outcome} (h : run options lookup choices inputs elapsed = .ok o) :
    Leaves options lookup inputs elapsed o := by
  rw [run_eq] at h
  split at h
  · simp at h
  · rw [← Except.ok.inj h]
    exact leaves_resolve options lookup choices inputs elapsed

/-- **A batch with a worker is never refused.** -/
theorem exists_run (options : Options) (lookup : Task → Ptr.Lookup) (choices : List Nat)
    (inputs : List Text) (elapsed : Nat → Int) (h : 1 ≤ options.concurrency) :
    ∃ o, run options lookup choices inputs elapsed = .ok o ∧
      Leaves options lookup inputs elapsed o := by
  refine ⟨_, ?_, leaves_resolve options lookup choices inputs elapsed⟩
  rw [run_eq, if_neg fun hlt => absurd hlt.2 (by omega)]

theorem Leaves.records_perm {o : Outcome} (h : Leaves options lookup inputs elapsed o) :
    o.records.Perm (conversions elapsed (inputs.map Entry.ofInput) ++
      (pending options inputs).flatMap fun t => finishRecords t (lookup t)) := by
  obtain ⟨finished, hperm, hr⟩ := h.records
  rw [hr]
  exact (hperm.flatMap_right _).append_left _

theorem getElem?_finalEntries (hr : options.resolvePtr = true) (i : Nat) :
    (finalEntries options lookup inputs)[i]? = inputs[i]?.map fun v =>
      resolved options.timeout lookup i (Entry.ofInput v) := by
  rw [finalEntries, if_pos hr, List.getElem?_mapIdx, List.getElem?_map, Option.map_map]
  rfl

/-- Nothing but pointer results is added to the entries of the inputs. -/
theorem bare_finalEntries (options : Options) (lookup : Task → Ptr.Lookup) (inputs : List Text) :
    (finalEntries options lookup inputs).map Entry.bare = inputs.map Entry.ofInput := by
  cases hr : options.resolvePtr with
  | true =>
    apply List.ext_getElem?
    intro i
    rw [List.getElem?_map, getElem?_finalEntries hr, List.getElem?_map, Option.map_map]
    congr 1
    funext v
    rw [Function.comp_apply, bare_resolved, Entry.bare_ofInput]
  | false =>
    unfold finalEntries
    rw [hr, if_neg Bool.false_ne_true, List.map_map]
    exact List.map_congr_left fun v _ => Entry.bare_ofInput v

/-! ### The lookups of a batch -/

/-- What a batch with lookups leaves behind, in terms of its own entries. -/
structure Resolves (timeout : Int) (lookup : Task → Ptr.Lookup) (inputs : List Text)
    (elapsed : Nat → Int) (o : Outcome) : Prop where
  /-- There is one entry for each input, in input order, and only pointer results are added. -/
  bare : o.entries.map Entry.bare = inputs.map Entry.ofInput
  bad : ∀ e ∈ o.entries, e.isOk = false → e.ptr = none
  /-- A good entry has the result of its own lookup, or the fault that the lookup ended in. -/
  good : ∀ i e, o.entries[i]? = some e → e.isOk = true → ∃ name, e.reverseName = some name ∧
    (∀ r, (lookup ⟨i, name, timeout⟩).outcome = .ok r → e.ptr = some r) ∧
    ∀ f, (lookup ⟨i, name, timeout⟩).outcome = .error f →
      e.ptr = some ⟨name, .unknown, [], "Exception: ".toList ++ f.text⟩
  /-- One lookup is made for each good entry and none for a bad one. -/
  nodup : (o.tasks.map Task.index).Nodup
  mem_tasks : ∀ t, t ∈ o.tasks ↔ t.timeout = timeout ∧
    ∃ e, o.entries[t.index]? = some e ∧ e.isOk = true ∧ e.reverseName = some t.name
  /-- Every schedule, with any number of workers, can be completed, and leaves the same when it
  is: the same lookups made, the same entries, and the same queries and records in some order. -/
  schedule : ∀ width p, 0 < width →
    Progress.Run width lookup (Progress.initial timeout elapsed (inputs.map Entry.ofInput)) p →
      (∃ q, Progress.Run width lookup p q ∧ q.Done) ∧
        (p.Done → p.attached.Perm o.tasks ∧ p.entries = o.entries ∧ p.queries.Perm o.queries ∧
          p.records.Perm o.records)

variable {timeout : Int}

theorem mem_pending_iff {t : Task} (hr : options.resolvePtr = true) :
    t ∈ pending options inputs ↔ t.timeout = options.timeout ∧
      ∃ e, (finalEntries options lookup inputs)[t.index]? = some e ∧ e.isOk = true ∧
        e.reverseName = some t.name := by
  rw [pending, if_pos hr, mem_tasks_iff, getElem?_finalEntries hr, List.getElem?_map]
  cases inputs[t.index]? with
  | none => simp
  | some v => simp [task?_eq_some_iff]

theorem Leaves.resolves {o : Outcome} (hr : options.resolvePtr = true)
    (h : Leaves options lookup inputs elapsed o) :
    Resolves options.timeout lookup inputs elapsed o where
  bare := by rw [h.entries, bare_finalEntries]
  bad e he hok := by
    obtain ⟨i, hi⟩ := List.mem_iff_getElem?.mp he
    rw [h.entries, getElem?_finalEntries hr, Option.map_eq_some_iff] at hi
    obtain ⟨v, -, rfl⟩ := hi
    rw [isOk_resolved] at hok
    rw [resolved_of_isOk_eq_false hok, Entry.ptr_ofInput]
  good i e hi hok := by
    rw [h.entries, getElem?_finalEntries hr, Option.map_eq_some_iff] at hi
    obtain ⟨v, -, rfl⟩ := hi
    rw [isOk_resolved] at hok
    obtain ⟨output, a, -, hn, -⟩ := Entry.exists_ofAddress_of_isOk hok
    refine ⟨_, reverseName_resolved.trans hn, fun r hl => ?_, fun f hl => ?_⟩
    · rw [ptr_resolved hok hn, hl]
      rfl
    · rw [ptr_resolved hok hn, hl]
      rfl
  nodup := by
    rw [h.tasks, pending, if_pos hr]
    exact nodup_tasks _ 0
  mem_tasks t := by rw [h.tasks, h.entries, mem_pending_iff hr]
  schedule width p hw hrun := by
    have hp := (Progress.sound_initial options.timeout lookup elapsed
      (inputs.map Entry.ofInput)).of_run hrun
    have htasks : Batch.tasks options.timeout 0 (inputs.map Entry.ofInput) = pending options inputs := by
      rw [pending, if_pos hr]
    refine ⟨Progress.exists_done hw p, fun hd => ?_⟩
    obtain ⟨he, hq, hrec⟩ := hp.of_done hd
    rw [htasks] at hq hrec
    refine ⟨?_, ?_, ?_, ?_⟩
    · rw [h.tasks, ← htasks]
      exact hp.attached_perm hd
    · rw [he, h.entries, finalEntries, if_pos hr]
    · rw [h.queries]
      exact hq
    · exact hrec.trans h.records_perm.symm

/-- **Lookups lose, double and mix up nothing.** A batch with lookups and a worker
leaves what `Resolves` says, differs from the batch without lookups in pointer
results alone, and leaves the same entries and the same records with any other
number of workers and in any other order. -/
theorem run_resolves (timeout : Int) (lookup : Task → Ptr.Lookup) (inputs : List Text)
    (elapsed : Nat → Int) {concurrency : Int} (h : 1 ≤ concurrency) (choices : List Nat) :
    ∃ o, run { resolvePtr := true, concurrency, timeout } lookup choices inputs elapsed = .ok o ∧
      Resolves timeout lookup inputs elapsed o ∧
      (∃ plain, run { resolvePtr := false, concurrency, timeout } lookup choices inputs elapsed =
          .ok plain ∧ o.entries.map Entry.bare = plain.entries) ∧
      ∀ concurrency' choices', 1 ≤ concurrency' →
        ∃ o', run { resolvePtr := true, concurrency := concurrency', timeout } lookup choices' inputs
            elapsed = .ok o' ∧ o'.entries = o.entries ∧ o'.records.Perm o.records := by
  obtain ⟨o, ho, hl⟩ :=
    exists_run { resolvePtr := true, concurrency, timeout } lookup choices inputs elapsed h
  obtain ⟨plain, hplain, hpl⟩ :=
    exists_run { resolvePtr := false, concurrency, timeout } lookup choices inputs elapsed h
  refine ⟨o, ho, hl.resolves rfl, ⟨plain, hplain, ?_⟩, fun concurrency' choices' h' => ?_⟩
  · rw [hl.entries, hpl.entries, bare_finalEntries]
    rfl
  · obtain ⟨o', ho', hl'⟩ := exists_run { resolvePtr := true, concurrency := concurrency', timeout }
      lookup choices' inputs elapsed h'
    refine ⟨o', ho', ?_, hl'.records_perm.trans hl.records_perm.symm⟩
    rw [hl'.entries, hl.entries]
    rfl

/-- Two inputs of one name whose lookups end differently, with a bad input between
them. -/
theorem run_resolves_same_name :
    let name := "1.0.0.10.in-addr.arpa".toList
    let inputs := ["10.0.0.1", "x", "10.0.0.1"].map String.toList
    let lookup : Task → Ptr.Lookup := fun t =>
      if t.index = 0 then { outcome := .ok ⟨t.name, .resolved, ["h.".toList], []⟩ }
      else { outcome := .error ⟨.runtime, "boom".toList⟩ }
    let elapsed : Nat → Int := fun i => 3 * i
    (1 : Int) ≤ 2 ∧ ∃ o,
      run { resolvePtr := true, concurrency := 2, timeout := 7 } lookup [1] inputs elapsed = .ok o ∧
        Resolves 7 lookup inputs elapsed o ∧
        o.entries.map Entry.ptr = [some ⟨name, .resolved, ["h.".toList], []⟩, none,
          some ⟨name, .unknown, [], "Exception: boom".toList⟩] := by
  intro name inputs lookup elapsed
  obtain ⟨o, ho, hres, -, -⟩ :=
    run_resolves 7 lookup inputs elapsed (show (1 : Int) ≤ 2 by decide) [1]
  have hptr : (match run { resolvePtr := true, concurrency := 2, timeout := 7 } lookup [1] inputs
        elapsed with
      | .ok o => o.entries.map Entry.ptr
      | .error _ => []) = [some ⟨name, .resolved, ["h.".toList], []⟩, none,
        some ⟨name, .unknown, [], "Exception: boom".toList⟩] := by decide +kernel
  rw [ho] at hptr
  exact ⟨by decide, o, ho, hres, hptr⟩

end Batch
end ReverseDns
