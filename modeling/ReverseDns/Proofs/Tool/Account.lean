/-
# The log of a run accounts for its report

A run says what it did twice, in its log and in its report. The log that is
written begins with the number of entries of the report and ends with its totals.
Between them a verbose run has the conversion of each entry, in the order of the
report, and every run has one record for each result that stayed unknown: that of
a failed lookup where the name system failed, and that of a fault where the data
of the result begin with its mark. What each of these records says is written out
here, field by field, from the report alone, and the fields that the log and the
report share have the same values in both (`Tool.log_accounts_for_report`).

Key definitions: `Report.opening`, `Report.closing`, `Entry.logged`, `Json.AgreeOn`,
`Tool.written`, `Tool.Accounts`.
Key theorems: `Entry.agreeOn_logged`, `Report.agreeOn_closing`,
`Tool.Leaves.written_eq`, `Tool.log_accounts_for_report`.
-/
import ReverseDns.Proofs.Batch.Unknown
import ReverseDns.Proofs.Tool.TwoRuns

namespace ReverseDns

/-! ### What the records say -/

namespace Json

/-- The value of a member of an object. -/
def Value.member? (name : Text) : Value → Option Value
  | .obj ms => get? name ms
  | _ => none

/-- Members and an object both have a value under each of the names, and it is the same. -/
def AgreeOn (names : List Text) (ms : Members) (v : Value) : Prop :=
  ∀ n ∈ names, ∃ w, get? n ms = some w ∧ v.member? n = some w

end Json

namespace Entry

/-- The record of the conversion to an entry. -/
def logged (e : Entry) (durationMs : Int) : Log.Record where
  logger := "revaddr.services.logger".toList
  level := .debug
  message := "Conversion completed".toList
  fault := none
  extra :=
    [("input".toList, .str e.input), ("direction".toList, .str e.direction.text),
      ("status".toList, .str e.status.text),
      ("error_kind".toList, match e.errorKind with
        | none => .null
        | some kind => .str kind),
      ("duration_ms".toList, .int durationMs)]

theorem record_eq_logged (e : Entry) (durationMs : Int) :
    e.record durationMs = e.logged durationMs := by
  unfold record logged Log.Record.conversion
  cases e.errorKind <;> rfl

/-- The duration is the only integer of the record. -/
theorem eq_of_mem_logged {e : Entry} {durationMs n : Int} {name : Text}
    (h : (name, Json.Value.int n) ∈ (e.logged durationMs).extra) : n = durationMs := by
  unfold logged at h
  cases hkind : e.errorKind <;> simp [hkind] at h <;> exact h.2

/-- **A conversion is logged as it is reported.** -/
theorem agreeOn_logged (e : Entry) (durationMs : Int) :
    Json.AgreeOn (["input", "direction", "status", "error_kind"].map String.toList)
      (e.logged durationMs).extra e.value := by
  have hkind : Json.get? "error_kind".toList (e.logged durationMs).extra =
      some (.text? e.errorKind) := by
    unfold logged
    cases e.errorKind <;> rfl
  refine List.forall_iff_forall_mem.mp ?_
  exact ⟨⟨.str e.input, rfl, rfl⟩, ⟨.str e.direction.text, rfl, rfl⟩,
    ⟨.str e.status.text, rfl, rfl⟩, ⟨.text? e.errorKind, hkind, rfl⟩⟩

end Entry

namespace Report

/-- The pointer results of a report, in the order of its entries. -/
def results (r : Report) : List Ptr.Result := r.entries.filterMap Entry.ptr

/-- The record that the log of a run with this report begins with. -/
def opening (r : Report) : Log.Record where
  logger := "revaddr.main".toList
  level := .info
  message := "Converting ".toList ++ Text.decimal r.total ++ " input(s)".toList
  fault := none
  extra := []

/-- The record that it ends with: the totals, and the seconds that the run took. -/
def closing (r : Report) (seconds : Binary64) : Log.Record where
  logger := "revaddr.services.logger".toList
  level := .info
  message := "Batch completed".toList
  fault := none
  extra :=
    [("total_inputs".toList, .int r.total), ("converted".toList, .int r.converted),
      ("failed".toList, .int r.failed), ("ptr_resolved".toList, .int r.resolved),
      ("duration_sec".toList, .float seconds)]

/-- **The totals are logged as they are reported.** -/
theorem agreeOn_closing (r : Report) (seconds : Binary64) :
    Json.AgreeOn (["total_inputs", "converted", "failed", "ptr_resolved"].map String.toList)
      (r.closing seconds).extra r.summary := by
  refine List.forall_iff_forall_mem.mp ?_
  exact ⟨⟨.int r.total, rfl, rfl⟩, ⟨.int r.converted, rfl, rfl⟩, ⟨.int r.failed, rfl, rfl⟩,
    ⟨.int r.resolved, rfl, rfl⟩⟩

end Report

/-! ### Records by their messages -/

namespace Log.Record

/-- The record of a conversion. -/
def isConversion (r : Record) : Bool := r.message == "Conversion completed".toList

/-- The record of a lookup that the name system failed. -/
def isFailure (r : Record) : Bool := r.message == "PTR lookup failed".toList

/-- The record of a lookup that ended in a fault. -/
def isFault (r : Record) : Bool := "Unexpected error resolving ".toList.isPrefixOf r.message

theorem isFault_of_message {r : Record} {rest : Text}
    (h : r.message = "Unexpected error resolving ".toList ++ rest) : r.isFault = true := by
  unfold isFault
  rw [h]
  exact List.isPrefixOf_iff_prefix.mpr (List.prefix_append _ _)

end Log.Record

namespace Ptr.Result

variable {r : Result}

theorem isFault_faultRecord (r : Result) : r.faultRecord.isFault = true := by
  apply Log.Record.isFault_of_message
  unfold faultRecord
  rw [List.append_assoc, List.append_assoc]

/-- The failures among the records of results are those of the failed results. -/
theorem filter_isFailure : ∀ rs : List Result, (rs.flatMap records).filter Log.Record.isFailure =
    (rs.filter isOfFailure).map failureRecord
  | [] => rfl
  | r :: rs => by
    have ih := filter_isFailure rs
    have hfailed : r.failureRecord.isFailure = true := rfl
    have hfault : r.faultRecord.isFailure = false := rfl
    rw [List.flatMap_cons, List.filter_append, ih, List.filter_cons]
    unfold records
    by_cases hr : r.isOfFailure = true
    · simp [isOfFault_eq_false hr, hr, hfailed]
    · by_cases hf : r.isOfFault = true
      · simp [hr, hf, hfault]
      · simp [hr, hf]

/-- The faults among the records of results are those of the results that a fault
left unknown. -/
theorem filter_isFault : ∀ rs : List Result, (rs.flatMap records).filter Log.Record.isFault =
    (rs.filter isOfFault).map faultRecord
  | [] => rfl
  | r :: rs => by
    have ih := filter_isFault rs
    have hfailed : r.failureRecord.isFault = false := rfl
    have hfault : r.faultRecord.isFault = true := isFault_faultRecord r
    rw [List.flatMap_cons, List.filter_append, ih, List.filter_cons]
    unfold records
    by_cases hf : r.isOfFault = true
    · simp [hf, hfault]
    · by_cases hr : r.isOfFailure = true
      · simp [hf, hr, hfailed]
      · simp [hf, hr]

end Ptr.Result

namespace Tool

variable {s : Setting} {c : Config} {o : Outcome}

/-! ### The log that is written -/

/-- The record of the start of a run. -/
def IsStart (r : Log.Record) : Prop := "Converting ".toList <+: r.message

/-- The records of a run that get past the level of its session. -/
def written (o : Outcome) : List Log.Record := o.records.filter fun r => o.session.enabled r.level

/-- The conversions that are written: those of all entries or none. -/
def conversions (s : Setting) (c : Config) (es : List Entry) : List Log.Record :=
  if c.verbose then es.mapIdx fun i e => e.logged (s.elapsed i) else []

theorem exists_of_mem_conversions {es : List Entry} {x : Log.Record}
    (h : x ∈ conversions s c es) :
    ∃ (e : Entry) (durationMs : Int), Integer.isShort durationMs = true ∧
      x = e.logged durationMs := by
  unfold conversions at h
  split at h
  · obtain ⟨i, hi, rfl⟩ := List.mem_mapIdx.mp h
    exact ⟨es[i], s.elapsed i, s.isShort_elapsed i, rfl⟩
  · simp at h

theorem conversions_eq (h : c.verbose = true) (es : List Entry) :
    conversions s c es = Batch.conversions s.elapsed es := by
  unfold conversions Batch.conversions
  rw [h, if_pos rfl]
  simp only [Entry.record_eq_logged]

/-- The log of a run has its start, its conversions, its lookups and its end. -/
theorem Leaves.written_eq (h : Leaves s c o) : ∃ lookups : List Log.Record,
    lookups.Perm (lookupRecords s c) ∧
      written o = startRecord (inputs s.arguments s.input).length ::
        (conversions s c (entries s c) ++ (lookups ++ [(ending s c).last])) := by
  have hconversions : Batch.conversions s.elapsed ((inputs s.arguments s.input).map
      Entry.ofInput) = Batch.conversions s.elapsed (entries s c) := by
    have hbare : (entries s c).map Entry.bare = (inputs s.arguments s.input).map Entry.ofInput :=
      Batch.bare_finalEntries _ _ _
    rw [← hbare, Batch.conversions_map_bare]
  unfold written
  rw [h.session]
  simp only [Log.Session.enabled_setup]
  cases hv : c.verbose with
  | true =>
    obtain ⟨lookups, hperm, hrecords⟩ := h.records
    refine ⟨lookups, hperm, ?_⟩
    rw [hrecords, hconversions, conversions_eq hv]
    exact List.filter_eq_self.mpr fun r _ => Bool.true_or _
  | false =>
    obtain ⟨lookups, hperm, hrecords⟩ := h.filter_records
    refine ⟨lookups, hperm, ?_⟩
    unfold conversions
    simp only [Bool.false_or, hv]
    exact hrecords

theorem Leaves.writeAll_eq (h : Leaves s c o) (stamp : Log.Stamp) :
    o.session.writeAll stamp o.records = .ok ((written o).map (Log.Record.line stamp)) := by
  unfold written
  rw [h.session]
  exact Log.Session.writeAll_setup h.clash?_eq_none

/-! ### What the log says -/

/-- Records of one kind, neither of the start nor of the totals, come from the
conversions and the lookups. -/
theorem filter_between {p : Log.Record → Bool} {r : Report} {seconds : Binary64}
    (hopening : p r.opening = false) (hclosing : p (r.closing seconds) = false)
    (conversions lookups : List Log.Record) :
    (r.opening :: (conversions ++ (lookups ++ [r.closing seconds]))).filter p =
      conversions.filter p ++ lookups.filter p := by
  have hlast : [r.closing seconds].filter p = [] := by simp [hclosing]
  rw [List.filter_cons, hopening, if_neg Bool.false_ne_true, List.filter_append,
    List.filter_append, hlast, List.append_nil]

/-- No conversion and no lookup is logged like the start or the totals of a run. -/
theorem not_isStart_of_mem {es : List Entry} {lookups : List Log.Record} {x : Log.Record}
    (hlookups : ∀ y ∈ lookups, y.OfLookup) (hx : x ∈ conversions s c es ++ lookups) :
    ¬ IsStart x ∧ ¬ IsSummary x := by
  -- The words of the start and of a conversion part at their seventh letter.
  have hstart : IsStart x → x.message[0]? = some 'C' ∧ x.message[6]? = some 't' := by
    rintro ⟨rest, hrest⟩
    rw [← hrest]
    exact ⟨rfl, rfl⟩
  have hsummary : IsSummary x → x.message[0]? = some 'B' := fun h => by rw [h]; rfl
  rcases List.mem_append.mp hx with hx | hx
  · obtain ⟨e, durationMs, -, rfl⟩ := exists_of_mem_conversions hx
    have h0 : (e.logged durationMs).message[0]? = some 'C' := rfl
    have h6 : (e.logged durationMs).message[6]? = some 's' := rfl
    rw [h0, h6] at hstart
    rw [h0] at hsummary
    exact ⟨fun h => by simpa using hstart h, fun h => by simpa using hsummary h⟩
  · have h0 : x.message[0]? = some 'P' ∨ x.message[0]? = some 'U' := by
      cases hlookups x hx with
      | failed name responseData => exact .inl rfl
      | fault name f => exact .inr rfl
    rcases h0 with h0 | h0
    all_goals
      rw [h0] at hstart hsummary
      exact ⟨fun h => by simpa using hstart h, fun h => by simpa using hsummary h⟩

/-- The result of the entry at position `i` is unknown for a failure of the name system
or for a fault, by what its own resolver replied, and its data say which. -/
def Setting.Unknown (s : Setting) (i : Nat) (p : Ptr.Result) : Prop :=
  (p.isOfFailure = true ∧ ∃ f, (s.resolver i).reply p.name = .error (.failure f) ∧
      p.responseData = (Ptr.Trouble.failure f).category) ∨
    (p.isOfFault = true ∧ ∃ f, (s.resolver i).reply p.name = .error (.fault f) ∧
      p.responseData = Ptr.Result.faultMark ++ f.text)

/-- A log accounts for a report: what either says follows from the other. -/
structure Accounts (s : Setting) (c : Config) (r : Report) (log : List Log.Record) : Prop where
  inputs : r.entries.map Entry.input = inputs s.arguments s.input
  /-- The log begins with the number of entries and ends with the totals, and has no other
  record of either kind. -/
  ends : ∃ between, log = r.opening :: (between ++ [r.closing s.clock.seconds]) ∧
    ∀ x ∈ between, ¬ IsStart x ∧ ¬ IsSummary x
  /-- The totals at the end are those of the report as it is written. -/
  totals : Json.AgreeOn (["total_inputs", "converted", "failed", "ptr_resolved"].map String.toList)
    (r.closing s.clock.seconds).extra r.summary
  /-- A verbose log has the conversions of the entries in order; no other log has any. -/
  conversions : log.filter Log.Record.isConversion = conversions s c r.entries
  /-- What a conversion takes can be written. -/
  short : ∀ x ∈ log.filter Log.Record.isConversion, ∀ name n,
    (name, Json.Value.int n) ∈ x.extra → Integer.isShort n = true
  /-- What is said of a conversion is what the report says of the entry. -/
  fields : ∀ e ∈ r.entries, ∀ durationMs,
    Json.AgreeOn (["input", "direction", "status", "error_kind"].map String.toList)
      (e.logged durationMs).extra e.value
  /-- The failed lookups are those of the results that a failure left unknown, in some order. -/
  failures : (log.filter Log.Record.isFailure).Perm
    ((r.results.filter Ptr.Result.isOfFailure).map Ptr.Result.failureRecord)
  /-- The faults are those of the results whose data say so, in some order. -/
  faults : (log.filter Log.Record.isFault).Perm
    ((r.results.filter Ptr.Result.isOfFault).map Ptr.Result.faultRecord)
  unknown : ∀ (i : Nat) (e : Entry) (p : Ptr.Result), r.entries[i]? = some e → e.ptr = some p →
    p.isUnknown = true → s.Unknown i p

theorem input_entries (s : Setting) (c : Config) :
    (entries s c).map Entry.input = inputs s.arguments s.input := by
  have hbare : (entries s c).map Entry.bare = (inputs s.arguments s.input).map Entry.ofInput :=
    Batch.bare_finalEntries _ _ _
  calc (entries s c).map Entry.input = ((entries s c).map Entry.bare).map Entry.input := by
        rw [List.map_map]
        rfl
    _ = ((inputs s.arguments s.input).map Entry.ofInput).map Entry.input := by rw [hbare]
    _ = inputs s.arguments s.input := by
        rw [List.map_map]
        exact (List.map_congr_left fun v _ => Entry.input_ofInput v).trans (List.map_id _)

/-- The conversions of a log of a start, conversions, lookups and totals. -/
theorem filter_isConversion {r : Report} {seconds : Binary64} {lookups : List Log.Record}
    (hlookups : ∀ x ∈ lookups, x.OfLookup) :
    (r.opening :: (conversions s c r.entries ++ (lookups ++ [r.closing seconds]))).filter
      Log.Record.isConversion = conversions s c r.entries := by
  have hall : (conversions s c r.entries).filter Log.Record.isConversion =
      conversions s c r.entries := by
    rw [List.filter_eq_self]
    intro x hx
    obtain ⟨e, durationMs, -, rfl⟩ := exists_of_mem_conversions hx
    rfl
  have hno : lookups.filter Log.Record.isConversion = [] := by
    rw [List.filter_eq_nil_iff]
    intro x hx
    cases hlookups x hx <;> exact Bool.false_ne_true
  rw [filter_between rfl rfl, hall, hno, List.append_nil]

/-- The records of a kind that conversions are not of are among the lookups. -/
theorem filter_of_logged_eq_false {p : Log.Record → Bool} {r : Report} {seconds : Binary64}
    (hopening : p r.opening = false) (hclosing : p (r.closing seconds) = false)
    (hlogged : ∀ (e : Entry) durationMs, p (e.logged durationMs) = false)
    (lookups : List Log.Record) :
    (r.opening :: (conversions s c r.entries ++ (lookups ++ [r.closing seconds]))).filter p =
      lookups.filter p := by
  have hnone : (conversions s c r.entries).filter p = [] := by
    rw [List.filter_eq_nil_iff]
    intro x hx
    obtain ⟨e, durationMs, -, rfl⟩ := exists_of_mem_conversions hx
    rw [hlogged e durationMs]
    exact Bool.false_ne_true
  rw [filter_between hopening hclosing, hnone, List.nil_append]

/-- A log of a start, conversions, lookups and totals accounts for the report whose
results have the records of the lookups. -/
theorem accounts_of_perm {r : Report} {lookups : List Log.Record}
    (hinputs : r.entries.map Entry.input = inputs s.arguments s.input)
    (hlookups : ∀ x ∈ lookups, x.OfLookup)
    (hperm : lookups.Perm (r.results.flatMap Ptr.Result.records))
    (hunknown : ∀ (i : Nat) (e : Entry) (p : Ptr.Result), r.entries[i]? = some e → e.ptr = some p →
      p.isUnknown = true → s.Unknown i p) :
    Accounts s c r (r.opening ::
      (conversions s c r.entries ++ (lookups ++ [r.closing s.clock.seconds]))) := by
  have hconversions : (r.opening :: (conversions s c r.entries ++
      (lookups ++ [r.closing s.clock.seconds]))).filter Log.Record.isConversion =
        conversions s c r.entries := filter_isConversion hlookups
  exact {
    inputs := hinputs
    ends := ⟨conversions s c r.entries ++ lookups, by rw [List.append_assoc],
      fun x hx => not_isStart_of_mem hlookups hx⟩
    totals := r.agreeOn_closing _
    conversions := hconversions
    short := by
      rw [hconversions]
      intro x hx name n hn
      obtain ⟨e, durationMs, hshort, rfl⟩ := exists_of_mem_conversions hx
      exact Entry.eq_of_mem_logged hn ▸ hshort
    fields := fun e _ durationMs => e.agreeOn_logged durationMs
    failures := by
      rw [filter_of_logged_eq_false rfl rfl fun _ _ => rfl, ← Ptr.Result.filter_isFailure]
      exact hperm.filter _
    faults := by
      rw [filter_of_logged_eq_false rfl rfl fun _ _ => rfl, ← Ptr.Result.filter_isFault]
      exact hperm.filter _
    unknown := hunknown }

/-- What a run writes to its log accounts for its report. -/
theorem Leaves.accounts {ms : Int} (h : Leaves s c o) (hms : s.clock.milliseconds = .ok ms)
    (hf : s.outputFault = none) : Accounts s c (reportOn s ms c (entries s c)) (written o) := by
  obtain ⟨lookups, hperm, hwritten⟩ := h.written_eq
  have hresults : lookups.Perm
      ((reportOn s ms c (entries s c)).results.flatMap Ptr.Result.records) :=
    hperm.trans (.of_eq Batch.flatMap_finishRecords)
  have htotal : (Tool.inputs s.arguments s.input).length =
      (reportOn s ms c (entries s c)).total := by
    rw [← input_entries s c, List.length_map]
    rfl
  have haccounts : Accounts s c (reportOn s ms c (entries s c)) _ :=
    accounts_of_perm (input_entries s c) (ofLookup_of_perm hperm) hresults
      fun i e p he hp hu => Batch.reply_of_isUnknown he hp hu
  rw [hwritten, ending_of_none hms hf, htotal]
  exact haccounts

/-- **The log of a run accounts for its report.** Under an accepted environment, and
with an output that works, both are of the same batch, and each record of the one
is an entry or a total of the other. -/
theorem log_accounts_for_report (s : Setting) (h : Config.ofEnvironment s.environment = .ok c)
    (hout : s.outputFault = none) (hclock : s.clock.IsFinite) :
    ∃ ms b text log, s.clock.milliseconds = .ok ms ∧
      Batch.run (options c) (Batch.Task.lookup s.resolver) s.choices (inputs s.arguments s.input)
        s.elapsed = .ok b ∧
      (reportOn s ms c b.entries).renderAs c.format.name = .ok text ∧
      (run s).output = text ++ ['\n'] ∧
      (∀ stamp, (run s).session.writeAll stamp (run s).records =
        .ok (log.map (Log.Record.line stamp))) ∧
      Accounts s c (reportOn s ms c b.entries) log := by
  obtain ⟨ms, hms⟩ := Clock.exists_milliseconds hclock
  obtain ⟨b, hb, hentries, hl⟩ := exists_batch h
  refine ⟨ms, b, _, written (run s), hms, hb,
    (Report.renderAs_name _ _).trans (render_reportOn hms _ _), ?_, hl.writeAll_eq, ?_⟩
  · rw [hl.output, ending_of_none hms hout, hentries]
  · rw [hentries]
    exact hl.accounts hms hout

/-- A failure and a fault in one verbose run, with a bad input between them. -/
theorem log_accounts_for_report_two_troubles :
    let s : Setting := {
      arguments := ["10.0.0.1", "x", "10.0.0.2"].map String.toList
      environment := [(Config.resolveName, "yes".toList), (Config.verboseName, "1".toList)]
      resolver := fun i =>
        if i = 0 then { answer := fun _ => .error (.failure .timeout) }
        else { start := some (.fault ⟨.runtime, "boom".toList⟩), answer := fun _ => .ok [] }
      choices := [1]
      elapsed := fun _ => -2
      isShort_elapsed := fun _ => rfl
      now := ⟨2025, 12, 19, 10, 30, 0, 0, some 0⟩ }
    let c : Config := ⟨.json, true, 5, 10, true⟩
    Config.ofEnvironment s.environment = .ok c ∧ s.outputFault = none ∧ s.clock.IsFinite ∧
      ∃ r text log, r.results.length = 2 ∧ r.renderAs c.format.name = .ok text ∧
        (run s).output = text ++ ['\n'] ∧
        (∀ stamp, (run s).session.writeAll stamp (run s).records =
          .ok (log.map (Log.Record.line stamp))) ∧
        Accounts s c r log := by
  intro s c
  have henv : Config.ofEnvironment s.environment = .ok c := by rfl
  have hfinite : s.clock.IsFinite := ⟨false, 0, -1074, by decide +kernel⟩
  obtain ⟨ms, b, text, log, -, hb, htext, houtput, hlog, haccounts⟩ :=
    log_accounts_for_report s henv rfl hfinite
  have hcount : (Batch.run (options c) (Batch.Task.lookup s.resolver) s.choices
      (inputs s.arguments s.input) s.elapsed).toOption.map
        (fun b => (b.entries.filterMap Entry.ptr).length) = some 2 := by decide +kernel
  rw [hb] at hcount
  exact ⟨henv, rfl, hfinite, reportOn s ms c b.entries, text, log, Option.some.inj hcount, htext,
    houtput, hlog, haccounts⟩

end Tool
end ReverseDns
