/-
# How a run ends

Under an accepted configuration there is always a worker, so a run makes its
batch, and what it leaves depends on the order of its lookups in the order of
their log records alone (`Tool.exists_batch`). The report can then be made and
only the output can fail. So a run ends with zero or one, never for a lookup,
and its log can always be written (`Tool.run_ends`).

Key definitions: `Tool.Ending`, `Tool.Leaves`, `Tool.Ends`.
Key theorems: `Tool.exists_batch`, `Tool.run_ends`.
-/
import ReverseDns.Proofs.Batch.Timeout
import ReverseDns.Proofs.Config
import ReverseDns.Proofs.Report.Written
import ReverseDns.Tool

namespace ReverseDns

/-! ### Totals of a report -/

namespace Report

/-- No entry failed if all are good. -/
theorem failed_eq_zero_iff {r : Report} : r.failed = 0 ↔ ∀ e ∈ r.entries, e.isOk = true := by
  have hle : r.converted ≤ r.total := List.countP_le_length
  have hall : r.converted = r.total ↔ ∀ e ∈ r.entries, e.isOk = true := List.countP_eq_length
  rw [← hall]
  unfold failed
  omega

end Report

/-- Lookups make no entry good or bad. -/
theorem Batch.forall_isOk_finalEntries {options : Options} {lookup : Task → Ptr.Lookup}
    {inputs : List Text} : (∀ e ∈ finalEntries options lookup inputs, e.isOk = true) ↔
      ∀ v ∈ inputs, (Entry.ofInput v).isOk = true := by
  have hbare := bare_finalEntries options lookup inputs
  calc (∀ e ∈ finalEntries options lookup inputs, e.isOk = true)
      ↔ ∀ e ∈ (finalEntries options lookup inputs).map Entry.bare, e.isOk = true := by
        simp only [List.forall_mem_map, Entry.isOk_bare]
    _ ↔ ∀ v ∈ inputs, (Entry.ofInput v).isOk = true := by
        rw [hbare, List.forall_mem_map]

/-- What a batch logs of a task is of its lookup. -/
theorem Batch.ofLookup_of_mem_finishRecords {resolver : Nat → Ptr.Resolver} {t : Task}
    {r : Log.Record} (h : r ∈ finishRecords t (t.lookup resolver)) : r.OfLookup := by
  rw [finishRecords_eq, List.mem_append] at h
  rcases h with h | h
  · exact Ptr.ofLookup_of_mem_records h
  · unfold faultRecords at h
    split at h
    · simp at h
    · rw [List.mem_singleton.mp h]
      exact .fault _ _

namespace Clock

/-- The milliseconds between the readings are a finite double. -/
def IsFinite (c : Clock) : Prop :=
  ∃ negative mantissa exponent,
    Binary64.ofFloat ((c.finish - c.start) * 1000) = .finite negative mantissa exponent

theorem exists_milliseconds {c : Clock} (h : c.IsFinite) : ∃ ms, c.milliseconds = .ok ms := by
  obtain ⟨negative, mantissa, exponent, hx⟩ := h
  unfold milliseconds
  rw [hx]
  exact ⟨_, rfl⟩

end Clock

namespace Tool

variable {s : Setting} {c : Config} {o : Outcome}

/-! ### What a run leaves behind -/

/-- The entries of a run, each with the result of its own lookup. -/
def entries (s : Setting) (c : Config) : List Entry :=
  Batch.finalEntries (options c) (Batch.Task.lookup s.resolver) (inputs s.arguments s.input)

/-- The lookups that a run makes. -/
def pending (s : Setting) (c : Config) : List Batch.Task :=
  Batch.pending (options c) (inputs s.arguments s.input)

/-- The end of a run after its lookups. -/
structure Ending where
  exitCode : Nat
  output : Text
  last : Log.Record

/-- A run ends with its report written or with the fault that kept it from being
written. -/
def ending (s : Setting) (c : Config) : Ending :=
  match publish s c (entries s c) with
  | .error f => ⟨1, [], fatalRecord f⟩
  | .ok (r, output) =>
    ⟨if r.failed = 0 then 0 else 1, output, summaryRecord r s.clock.seconds⟩

/-- What a run logs of its lookups, in the order of its inputs. -/
def lookupRecords (s : Setting) (c : Config) : List Log.Record :=
  (pending s c).flatMap fun t => Batch.finishRecords t (t.lookup s.resolver)

/-- What a run under an accepted configuration leaves behind. The order in which
the lookups finish shows in the order of their records alone. -/
structure Leaves (s : Setting) (c : Config) (o : Outcome) : Prop where
  exitCode : o.exitCode = (ending s c).exitCode
  output : o.output = (ending s c).output
  queries : o.queries = (pending s c).flatMap fun t => (t.lookup s.resolver).queries
  session : o.session = .setup c.verbose
  records : ∃ lookups : List Log.Record, lookups.Perm (lookupRecords s c) ∧
    o.records = startRecord (inputs s.arguments s.input).length ::
      (Batch.conversions s.elapsed ((inputs s.arguments s.input).map Entry.ofInput) ++
        (lookups ++ [(ending s c).last]))

/-- After its batch a run ends as `ending` says. -/
theorem runConfigured_eq {b : Batch.Outcome} (hb : batch s c = .ok b)
    (he : b.entries = entries s c) :
    runConfigured s c =
      { exitCode := (ending s c).exitCode, output := (ending s c).output, queries := b.queries
        session := .setup c.verbose
        records := startRecord (inputs s.arguments s.input).length ::
          (b.records ++ [(ending s c).last]) } := by
  unfold runConfigured ending
  rw [hb]
  dsimp only
  rw [he]
  cases publish s c (entries s c) <;> rfl

/-- **Under an accepted configuration the batch of a run is made.** -/
theorem exists_batch (h : Config.ofEnvironment s.environment = .ok c) :
    ∃ b, Batch.run (options c) (Batch.Task.lookup s.resolver) s.choices
        (inputs s.arguments s.input) s.elapsed = .ok b ∧
      b.entries = entries s c ∧ Leaves s c (run s) := by
  obtain ⟨b, hb, hl⟩ := Batch.exists_run (options c) (Batch.Task.lookup s.resolver) s.choices
    (inputs s.arguments s.input) s.elapsed (Config.one_le_concurrency h)
  have hbatch : batch s c = .ok b := by
    unfold batch
    rw [hb]
  have hrun : run s = runConfigured s c := by
    unfold run
    rw [h]
  obtain ⟨finished, hperm, hrecords⟩ := hl.records
  refine ⟨b, hb, hl.entries, ?_⟩
  rw [hrun, runConfigured_eq hbatch hl.entries]
  refine ⟨rfl, rfl, hl.queries, rfl, _, hperm.flatMap_right _, ?_⟩
  dsimp only
  rw [hrecords, List.append_assoc]

/-! ### The records of a run -/

/-- The record of a fault that ended a run. -/
def IsFatal (r : Log.Record) : Prop := "Fatal error: ".toList <+: r.message

/-- The record of the totals of a run. -/
def IsSummary (r : Log.Record) : Prop := r.message = "Batch completed".toList

theorem head?_of_isFatal {r : Log.Record} (h : IsFatal r) : r.message.head? = some 'F' := by
  obtain ⟨rest, hrest⟩ := h
  rw [← hrest]
  rfl

theorem head?_of_isSummary {r : Log.Record} (h : IsSummary r) : r.message.head? = some 'B' := by
  rw [h]
  rfl

theorem isFatal_fatalRecord (f : Fault) : IsFatal (fatalRecord f) := List.prefix_append _ _

theorem isSummary_summaryRecord (r : Report) (seconds : Binary64) :
    IsSummary (summaryRecord r seconds) := rfl

/-- The last record is of a fault or of the totals. -/
theorem last_ending (s : Setting) (c : Config) :
    (∃ f, (ending s c).last = fatalRecord f) ∨
      ∃ r seconds, (ending s c).last = summaryRecord r seconds := by
  unfold ending
  split
  · exact .inl ⟨_, rfl⟩
  · exact .inr ⟨_, _, rfl⟩

theorem ofLookup_of_perm {lookups : List Log.Record} (h : lookups.Perm (lookupRecords s c)) :
    ∀ r ∈ lookups, r.OfLookup := by
  intro r hr
  obtain ⟨t, -, ht⟩ := List.mem_flatMap.mp (h.subset hr)
  exact Batch.ofLookup_of_mem_finishRecords ht

namespace Leaves

variable {r : Log.Record}

/-- A record of a run is of its start, of a conversion, of a lookup, or its last. -/
theorem mem_records (h : Leaves s c o) (hr : r ∈ o.records) :
    (∃ n, r = startRecord n) ∨ (∃ (e : Entry) (ms : Int), r = e.record ms) ∨ r.OfLookup ∨
      r = (ending s c).last := by
  obtain ⟨lookups, hperm, hrecords⟩ := h.records
  rw [hrecords, List.mem_cons, List.mem_append, List.mem_append, List.mem_singleton] at hr
  rcases hr with rfl | hconversion | hlookup | hlast
  · exact .inl ⟨_, rfl⟩
  · exact .inr (.inl (Batch.exists_of_mem_conversions hconversion))
  · exact .inr (.inr (.inl (ofLookup_of_perm hperm r hlookup)))
  · exact .inr (.inr (.inr hlast))

theorem last_mem (h : Leaves s c o) : (ending s c).last ∈ o.records := by
  obtain ⟨lookups, -, hrecords⟩ := h.records
  rw [hrecords]
  simp

/-- **No record of a run clashes.** -/
theorem clash?_eq_none (h : Leaves s c o) : ∀ r ∈ o.records, r.clash? = none := by
  intro r hr
  rcases h.mem_records hr with ⟨n, rfl⟩ | ⟨e, ms, rfl⟩ | hlookup | rfl
  · exact Log.Record.clash?_of_extra_nil rfl
  · exact Log.Record.clash?_conversion _ _ _ _ _
  · exact hlookup.clash?_eq_none
  · rcases last_ending s c with ⟨f, hlast⟩ | ⟨r, seconds, hlast⟩
    · rw [hlast]
      exact Log.Record.clash?_of_extra_nil rfl
    · rw [hlast]
      exact Log.Record.clash?_summary _ _ _ _ _

/-- Only the last record begins like a fault or like the totals. -/
theorem eq_last (h : Leaves s c o) (hr : r ∈ o.records)
    (hhead : r.message.head? = some 'F' ∨ r.message.head? = some 'B') : r = (ending s c).last := by
  -- The messages of all other kinds begin with `C`, `P` or `U`.
  rcases h.mem_records hr with ⟨n, rfl⟩ | ⟨e, ms, rfl⟩ | hlookup | hlast
  · have hstart : (startRecord n).message.head? = some 'C' := rfl
    simp [hstart] at hhead
  · have hconversion : (e.record ms).message.head? = some 'C' := rfl
    simp [hconversion] at hhead
  · have hne : r.message.head? = some 'P' ∨ r.message.head? = some 'U' := by
      cases hlookup with
      | failed name responseData => exact .inl rfl
      | fault name f => exact .inr rfl
    rcases hne with hne | hne <;> simp [hne] at hhead
  · exact hlast

/-- A run logs a fault if its last record is of one. -/
theorem fatal_iff (h : Leaves s c o) :
    (∃ r ∈ o.records, IsFatal r) ↔ IsFatal (ending s c).last := by
  constructor
  · rintro ⟨r, hr, hf⟩
    rw [← h.eq_last hr (.inl (head?_of_isFatal hf))]
    exact hf
  · exact fun hf => ⟨_, h.last_mem, hf⟩

/-- A run does not log both a fault and its totals. -/
theorem no_summary (h : Leaves s c o) (hf : ∃ r ∈ o.records, IsFatal r) :
    ∀ r ∈ o.records, ¬ IsSummary r := by
  intro r hr hsummary
  have hlast : r = (ending s c).last := h.eq_last hr (.inr (head?_of_isSummary hsummary))
  have hF := head?_of_isFatal (h.fatal_iff.mp hf)
  rw [← hlast, head?_of_isSummary hsummary] at hF
  simp at hF

end Leaves

/-! ### How a run ends -/

/-- The report of a run that took `ms` milliseconds. -/
def reportOn (s : Setting) (ms : Int) (c : Config) (es : List Entry) : Report where
  timestamp := s.now
  durationMs := ms
  entries := es
  ptrEnabled := c.resolvePtr

/-- How a run ends that takes `ms` milliseconds. -/
structure Ends (s : Setting) (ms : Int) (o : Outcome) : Prop where
  exitCode : o.exitCode = 0 ∨ o.exitCode = 1
  exitCode_eq_zero_iff : o.exitCode = 0 ↔
    (∃ c, Config.ofEnvironment s.environment = .ok c) ∧ s.outputFault = none ∧
      ∀ v ∈ inputs s.arguments s.input, (Entry.ofInput v).isOk = true
  /-- No record of the run keeps its log from being written. -/
  logged : ∀ stamp, ∃ lines, o.session.writeAll stamp o.records = .ok lines
  /-- Nothing is written, looked up or converted under a bad environment. -/
  refused : ∀ e, Config.ofEnvironment s.environment = .error e →
    o.output = [] ∧ o.queries = [] ∧ o.records = [configRecord e]
  /-- Under a good one the report of the batch is written, if the output can be. -/
  reported : ∀ c, Config.ofEnvironment s.environment = .ok c → s.outputFault = none →
    ∃ b text, Batch.run (options c) (Batch.Task.lookup s.resolver) s.choices
        (inputs s.arguments s.input) s.elapsed = .ok b ∧
      (reportOn s ms c b.entries).renderAs c.format.name = .ok text ∧ o.output = text ++ ['\n']
  /-- A run is broken off by a fault of its output and by nothing else. -/
  fatal_iff : (∃ r ∈ o.records, IsFatal r) ↔
    (∃ c, Config.ofEnvironment s.environment = .ok c) ∧ s.outputFault ≠ none
  /-- A run that is broken off does not log its totals. -/
  no_summary : (∃ r ∈ o.records, IsFatal r) → ∀ r ∈ o.records, ¬ IsSummary r

section

variable {ms : Int}

/-- **The report of a run is written** in every form. -/
theorem render_reportOn (hms : s.clock.milliseconds = .ok ms) (es : List Entry)
    (f : Report.Format) :
    (reportOn s ms c es).render f = .ok ((reportOn s ms c es).layout f) :=
  Report.render_of_isShort f (Clock.isShort_milliseconds hms)

/-- With a report that is written, only the output decides. -/
theorem publish_eq (hms : s.clock.milliseconds = .ok ms) (es : List Entry) :
    publish s c es = (write s ((reportOn s ms c es).layout c.format ++ ['\n'])).map
      fun text => (reportOn s ms c es, text) := by
  have hreport : report s c es = .ok (reportOn s ms c es) := by
    unfold report
    rw [hms]
    rfl
  unfold publish
  simp only [hreport, render_reportOn hms, bind, Except.bind]
  cases write s ((reportOn s ms c es).layout c.format ++ ['\n']) <;> rfl

theorem ending_of_some {f : Fault} (hms : s.clock.milliseconds = .ok ms)
    (hf : s.outputFault = some f) : ending s c = ⟨1, [], fatalRecord f⟩ := by
  unfold ending
  rw [publish_eq hms, write, hf]
  rfl

theorem ending_of_none (hms : s.clock.milliseconds = .ok ms) (hf : s.outputFault = none) :
    ending s c =
      ⟨if (reportOn s ms c (entries s c)).failed = 0 then 0 else 1,
        (reportOn s ms c (entries s c)).layout c.format ++ ['\n'],
        summaryRecord (reportOn s ms c (entries s c)) s.clock.seconds⟩ := by
  unfold ending
  rw [publish_eq hms, write, hf]
  rfl

theorem exitCode_ending (s : Setting) (c : Config) :
    (ending s c).exitCode = 0 ∨ (ending s c).exitCode = 1 := by
  unfold ending
  split
  · exact .inr rfl
  · dsimp only
    split
    · exact .inl rfl
    · exact .inr rfl

/-- The exit code says whether the output works and all inputs are good. -/
theorem exitCode_ending_eq_zero_iff (hms : s.clock.milliseconds = .ok ms) :
    (ending s c).exitCode = 0 ↔
      s.outputFault = none ∧ ∀ v ∈ inputs s.arguments s.input, (Entry.ofInput v).isOk = true := by
  cases hf : s.outputFault with
  | some f => simp [ending_of_some hms hf]
  | none =>
    have hfailed : (reportOn s ms c (entries s c)).failed = 0 ↔
        ∀ v ∈ inputs s.arguments s.input, (Entry.ofInput v).isOk = true :=
      Report.failed_eq_zero_iff.trans Batch.forall_isOk_finalEntries
    rw [ending_of_none hms hf, ← hfailed]
    simp

theorem isFatal_last_ending_iff (hms : s.clock.milliseconds = .ok ms) :
    IsFatal (ending s c).last ↔ s.outputFault ≠ none := by
  cases hf : s.outputFault with
  | some f =>
    rw [ending_of_some hms hf]
    simp [isFatal_fatalRecord]
  | none =>
    rw [ending_of_none hms hf]
    have hhead := head?_of_isSummary
      (isSummary_summaryRecord (reportOn s ms c (entries s c)) s.clock.seconds)
    refine iff_of_false (fun h => ?_) fun h => h rfl
    rw [head?_of_isFatal h] at hhead
    simp at hhead

/-- A run under a bad environment does nothing but say so. -/
theorem ends_of_error {e : Config.Error} (h : Config.ofEnvironment s.environment = .error e) :
    Ends s ms (run s) := by
  have hrun : run s = { exitCode := 1, session := .setup false, records := [configRecord e] } := by
    unfold run
    rw [h]
  have hno : ¬ ∃ c, Config.ofEnvironment s.environment = .ok c := by
    rintro ⟨c, hc⟩
    rw [h] at hc
    simp at hc
  have hfatal : ¬ ∃ r ∈ [configRecord e], IsFatal r := by
    rintro ⟨r, hr, hf⟩
    have hconfig : (configRecord e).message.head? = some 'I' := rfl
    have hhead := head?_of_isFatal hf
    rw [List.mem_singleton.mp hr, hconfig] at hhead
    simp at hhead
  have hclash : ∀ r ∈ [configRecord e], r.clash? = none := by
    intro r hr
    rw [List.mem_singleton.mp hr]
    exact Log.Record.clash?_of_extra_nil rfl
  rw [hrun]
  exact {
    exitCode := .inr rfl
    exitCode_eq_zero_iff := by simp [hno]
    logged := fun stamp => ⟨_, Log.Session.writeAll_setup hclash⟩
    refused := fun e' he' => by
      rw [h, Except.error.injEq] at he'
      exact ⟨rfl, rfl, by rw [he']⟩
    reported := fun c hc => absurd ⟨c, hc⟩ hno
    fatal_iff := by simp only [hfatal, hno, false_and]
    no_summary := fun hf => absurd hf hfatal }

/-- A run under a good environment ends with its report, or with the fault of its
output. -/
theorem ends_of_ok (h : Config.ofEnvironment s.environment = .ok c)
    (hms : s.clock.milliseconds = .ok ms) : Ends s ms (run s) := by
  obtain ⟨b, hb, hentries, hl⟩ := exists_batch h
  have hsome : ∃ c, Config.ofEnvironment s.environment = .ok c := ⟨c, h⟩
  exact {
    exitCode := by
      rw [hl.exitCode]
      exact exitCode_ending s c
    exitCode_eq_zero_iff := by
      rw [hl.exitCode, exitCode_ending_eq_zero_iff hms]
      simp only [hsome, true_and]
    logged := fun stamp => by
      rw [hl.session]
      exact ⟨_, Log.Session.writeAll_setup hl.clash?_eq_none⟩
    refused := fun e he => by
      rw [h] at he
      simp at he
    reported := fun c' hc hf => by
      obtain rfl := Except.ok.inj (h.symm.trans hc)
      refine ⟨b, _, hb, (Report.renderAs_name _ _).trans (render_reportOn hms _ _), ?_⟩
      rw [hl.output, ending_of_none hms hf, hentries]
    fatal_iff := by
      rw [hl.fatal_iff, isFatal_last_ending_iff hms]
      simp only [hsome, true_and]
    no_summary := hl.no_summary }

end

/-- **Every run ends with zero or one and says why.** Neither the resolver nor the
order of lookups nor an accepted setting can break it off. -/
theorem run_ends (s : Setting) (h : s.clock.IsFinite) :
    ∃ ms, s.clock.milliseconds = .ok ms ∧ Ends s ms (run s) := by
  obtain ⟨ms, hms⟩ := Clock.exists_milliseconds h
  refine ⟨ms, hms, ?_⟩
  cases hc : Config.ofEnvironment s.environment with
  | error e => exact ends_of_error hc
  | ok c => exact ends_of_ok hc hms

/-- One good and one bad input, the resolver of the good one out of order. -/
theorem run_ends_broken_resolver :
    let s : Setting := {
      arguments := ["10.0.0.1", "x"].map String.toList
      environment := [(Config.resolveName, "yes".toList), (Config.concurrencyName, "1".toList)]
      resolver := fun _ => { start := some (.fault ⟨.runtime, "boom".toList⟩), answer := fun _ => .ok [] }
      clock := { start := 1.5, finish := 2.75 }
      now := ⟨2025, 12, 19, 10, 30, 0, 0, some 0⟩ }
    s.clock.IsFinite ∧ (run s).exitCode = 1 ∧ Ends s 1250 (run s) := by
  intro s
  have hfinite : s.clock.IsFinite := ⟨false, 5497558138880000, -42, by decide +kernel⟩
  have h1250 : Clock.milliseconds { start := 1.5, finish := 2.75 } = .ok 1250 := rfl
  have hbad : (Entry.ofInput "x".toList).isOk = false := by decide +kernel
  obtain ⟨ms, hms, hends⟩ := run_ends s hfinite
  obtain rfl := Except.ok.inj (hms.symm.trans h1250)
  refine ⟨hfinite, hends.exitCode.resolve_left fun h0 => ?_, hends⟩
  obtain ⟨-, -, hall⟩ := hends.exitCode_eq_zero_iff.mp h0
  have hok : (Entry.ofInput "x".toList).isOk = true := hall _ (by simp [s, inputs])
  rw [hbad] at hok
  simp at hok

end Tool
end ReverseDns
