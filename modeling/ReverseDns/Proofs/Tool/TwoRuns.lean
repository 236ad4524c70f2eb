/-
# Runs that differ in how they work

How much a run logs, how many lookups it makes at a time and how long each may
take are settings of its work and not of its result. A run reads its
configuration for the entries and for its end through the other two settings
alone (`Tool.entries_congr`, `Tool.ending_congr`). So two runs that agree in those
write the same, end with the same exit code and ask for the same names, and the
shorter of their logs is the longer one without its debug lines
(`Tool.run_alike`).

Key definitions: `Log.SameButLookups`, `Tool.Alike`.
Key theorems: `Tool.ending_congr`, `Tool.Leaves.records_sameButLookups`, `Tool.run_alike`.
-/
import ReverseDns.Proofs.Tool.Run

namespace ReverseDns

/-! ### Logs up to the order of lookups -/

namespace Log

/-- Whether a record is of a lookup without a definite answer, or of the fault of
one. -/
def Record.isLookup (r : Record) : Bool :=
  r.message == "PTR lookup failed".toList ||
    "Unexpected error resolving ".toList.isPrefixOf r.message

theorem Record.OfLookup.isLookup_eq_true {r : Record} (h : r.OfLookup) : r.isLookup = true := by
  unfold isLookup
  rw [Bool.or_eq_true]
  cases h with
  | failed name responseData => exact .inl (beq_self_eq_true _)
  | fault name f =>
    refine .inr (List.isPrefixOf_iff_prefix.mpr ?_)
    show _ <+: "Unexpected error resolving ".toList ++ name ++ ": ".toList ++ f.text
    rw [List.append_assoc, List.append_assoc]
    exact List.prefix_append _ _

/-- Two logs are the same but for the order of lookups: these stand in the same
places and are the same up to their order, and all else is the same in order. -/
structure SameButLookups (rs rs' : List Record) : Prop where
  places : rs.map Record.isLookup = rs'.map Record.isLookup
  others : rs.filter (fun r => !r.isLookup) = rs'.filter (fun r => !r.isLookup)
  lookups : (rs.filter Record.isLookup).Perm (rs'.filter Record.isLookup)

/-- Lookups may change places with each other. -/
theorem SameButLookups.of_perm {before after ls ls' : List Record} (h : ls.Perm ls')
    (hls : ∀ r ∈ ls, r.isLookup = true) :
    SameButLookups (before ++ (ls ++ after)) (before ++ (ls' ++ after)) := by
  have hls' : ∀ r ∈ ls', r.isLookup = true := fun r hr => hls r (h.symm.subset hr)
  have hplaces : ls.map Record.isLookup = ls'.map Record.isLookup := by
    rw [List.map_eq_replicate_iff.mpr hls, List.map_eq_replicate_iff.mpr hls', h.length_eq]
  have hnone : ∀ {l : List Record}, (∀ r ∈ l, r.isLookup = true) →
      l.filter (fun r => !r.isLookup) = [] := fun hl =>
    List.filter_eq_nil_iff.mpr fun r hr => by simp [hl r hr]
  refine ⟨?_, ?_, ?_⟩
  · simp only [List.map_append, hplaces]
  · simp only [List.filter_append, hnone hls, hnone hls']
  · simp only [List.filter_append]
    exact ((h.filter _).append_right _).append_left _

end Log

namespace Tool

/-! ### What a run reads of its configuration -/

/-- The same run under another environment, with its lookups finishing in another
order. -/
def Setting.under (s : Setting) (env : Environment) (choices : List Nat) : Setting :=
  { s with environment := env, choices }

variable {s : Setting} {env env' : Environment} {choices choices' : List Nat} {c c' : Config}
  {o o' : Outcome}

theorem entries_congr (h : c.resolvePtr = c'.resolvePtr) :
    entries (s.under env choices) c = entries (s.under env' choices') c' :=
  Batch.finalEntries_congr h

/-- **A run ends in the same way** under settings that differ in how it works. -/
theorem ending_congr (hformat : c.format = c'.format) (hresolve : c.resolvePtr = c'.resolvePtr) :
    ending (s.under env choices) c = ending (s.under env' choices') c' := by
  -- Clock, time and output are those of `s` in both runs.
  unfold ending publish report
  rw [entries_congr hresolve, hformat, hresolve]
  rfl

/-! ### The log without its debug lines -/

/-- Without debug records the log of a run has its start, its lookups and its end. -/
theorem Leaves.filter_records (h : Leaves s c o) : ∃ lookups : List Log.Record,
    lookups.Perm (lookupRecords s c) ∧ o.records.filter (fun r => r.level != .debug) =
      [startRecord (inputs s.arguments s.input).length] ++ (lookups ++ [(ending s c).last]) := by
  obtain ⟨lookups, hperm, hrecords⟩ := h.records
  have hconversions : (Batch.conversions s.elapsed ((inputs s.arguments s.input).map
      Entry.ofInput)).filter (fun r => r.level != .debug) = [] := by
    refine List.filter_eq_nil_iff.mpr fun r hr => ?_
    obtain ⟨e, ms, rfl⟩ := Batch.exists_of_mem_conversions hr
    exact Bool.false_ne_true
  have hlookups : lookups.filter (fun r => r.level != .debug) = lookups :=
    List.filter_eq_self.mpr fun r hr => bne_iff_ne.mpr (ofLookup_of_perm hperm r hr).level_ne_debug
  have hlast : ((ending s c).last.level != .debug) = true := by
    rcases last_ending s c with ⟨f, hlast⟩ | ⟨r, seconds, hlast⟩ <;> rw [hlast] <;> rfl
  refine ⟨lookups, hperm, ?_⟩
  rw [hrecords, List.filter_cons_of_pos rfl, List.filter_append, List.filter_append, hconversions,
    hlookups, List.filter_singleton, hlast]
  rfl

/-- Two runs that look up the same log the same but for their debug lines. -/
theorem Leaves.sameButLookups (hresolve : c.resolvePtr = c'.resolvePtr)
    (hformat : c.format = c'.format) (h : Leaves (s.under env choices) c o)
    (h' : Leaves (s.under env' choices') c' o') :
    Log.SameButLookups (o.records.filter fun r => r.level != .debug)
      (o'.records.filter fun r => r.level != .debug) := by
  obtain ⟨lookups, hperm, hrecords⟩ := h.filter_records
  obtain ⟨lookups', hperm', hrecords'⟩ := h'.filter_records
  have hpending : lookups.Perm lookups' := by
    refine hperm.trans (.trans (.of_eq ?_) hperm'.symm)
    exact Batch.finishRecords_congr hresolve
  have hlookup : ∀ r ∈ lookups, r.isLookup = true := fun r hr =>
    (ofLookup_of_perm hperm r hr).isLookup_eq_true
  rw [hrecords, hrecords', ending_congr hformat hresolve]
  exact .of_perm hpending hlookup

/-! ### Two runs -/

/-- What two runs share, the first under `c` and the second under `c'`. -/
structure Alike (c c' : Config) (o o' : Outcome) : Prop where
  output : o.output = o'.output
  exitCode : o.exitCode = o'.exitCode
  /-- The same names are asked for as often, each run giving its queries its own time. -/
  names : (o.queries.map Ptr.Query.name).Perm (o'.queries.map Ptr.Query.name)
  lifetime : ∀ q ∈ o.queries, q.lifetime = c.timeout
  lifetime' : ∀ q ∈ o'.queries, q.lifetime = c'.timeout
  /-- The log of a run that is not verbose is that of a verbose one without its debug lines. -/
  log : c.verbose = false → c'.verbose = true → ∀ stamp,
    o.session.writeAll stamp o.records =
        .ok ((o.records.filter fun r => r.level != .debug).map (Log.Record.line stamp)) ∧
      o'.session.writeAll stamp o'.records = .ok (o'.records.map (Log.Record.line stamp)) ∧
      Log.SameButLookups (o.records.filter fun r => r.level != .debug)
        (o'.records.filter fun r => r.level != .debug)

theorem Leaves.lifetime_eq (h : Leaves s c o) : ∀ q ∈ o.queries, q.lifetime = c.timeout := by
  intro q hq
  rw [h.queries] at hq
  obtain ⟨t, ht, hqt⟩ := List.mem_flatMap.mp hq
  rw [Batch.lifetime_of_mem_queries hqt, Batch.lifetime_of_mem_pending ht]
  rfl

/-- **How a run works does not show in its result.** The same inputs at the same
time with the same resolvers, under two environments that agree in the form of
the report and in whether to look up: neither verbosity, nor the number of
workers, nor the time for lookups, nor the order in which they finish makes a
difference but in the debug lines of the log. -/
theorem run_alike (s : Setting) (choices choices' : List Nat)
    (h : Config.ofEnvironment env = .ok c) (h' : Config.ofEnvironment env' = .ok c')
    (hformat : c.format = c'.format) (hresolve : c.resolvePtr = c'.resolvePtr) :
    Alike c c' (run (s.under env choices)) (run (s.under env' choices')) := by
  obtain ⟨-, -, -, hl⟩ := exists_batch (s := s.under env choices) h
  obtain ⟨-, -, -, hl'⟩ := exists_batch (s := s.under env' choices') h'
  have hend : ending (s.under env choices) c = ending (s.under env' choices') c' :=
    ending_congr hformat hresolve
  exact {
    output := by rw [hl.output, hl'.output, hend]
    exitCode := by rw [hl.exitCode, hl'.exitCode, hend]
    names := by
      rw [hl.queries, hl'.queries]
      exact .of_eq (Batch.names_congr hresolve)
    lifetime := hl.lifetime_eq
    lifetime' := hl'.lifetime_eq
    log := fun hquiet hloud stamp => by
      rw [hl.session, hl'.session, hquiet, hloud]
      exact ⟨Log.Session.writeAll_setup_false hl.clash?_eq_none,
        Log.Session.writeAll_setup_true hl'.clash?_eq_none,
        hl.sameButLookups hresolve hformat hl'⟩ }

/-- Two names whose lookups end differently, one at a time and all at once. -/
theorem run_alike_two_names :
    let s : Setting := {
      arguments := ["10.0.0.1", "x", "10.0.0.2"].map String.toList
      resolver := fun _ =>
        { answer := fun name =>
            if name.head? = some '1' then .error (.failure .timeout)
            else .error (.fault ⟨.runtime, "boom".toList⟩) }
      now := ⟨2025, 12, 19, 10, 30, 0, 0, some 0⟩ }
    let env : Environment := [(Config.resolveName, "yes".toList),
      (Config.concurrencyName, "1".toList), (Config.timeoutName, "7".toList)]
    let env' : Environment := [(Config.resolveName, "1".toList), (Config.verboseName, "1".toList)]
    let c : Config := ⟨.json, true, 7, 1, false⟩
    let c' : Config := ⟨.json, true, 5, 10, true⟩
    Config.ofEnvironment env = .ok c ∧ Config.ofEnvironment env' = .ok c' ∧
      c.format = c'.format ∧ c.resolvePtr = c'.resolvePtr ∧
      Alike c c' (run (s.under env [])) (run (s.under env' [1])) := by
  intro s env env' c c'
  have h : Config.ofEnvironment env = .ok c := by rfl
  have h' : Config.ofEnvironment env' = .ok c' := by rfl
  exact ⟨h, h', rfl, rfl, run_alike s [] [1] h h' rfl rfl⟩

end Tool
end ReverseDns
