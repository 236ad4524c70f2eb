/-
# What a session writes

The extra fields of the records that the library makes itself have names of
their own, so none of these records clashes. A session with handlers writes each record
as often as it has handlers, or not at all (`Log.Session.lines_of_writeAll`), so one that
has been set up writes every one of them that gets past its level, in order, as one line
(`Log.Session.writeAll_setup`).

Key theorems: `Log.Session.lines_of_writeAll`, `Log.Session.writeAll_setup`,
`Log.Record.OfLookup.clash?_eq_none`.
-/
import ReverseDns.Log.Session

namespace ReverseDns
namespace Log

/-! ### The library's own records -/

namespace Record

/-- A record does not clash if the names of its extra fields are no attributes. -/
theorem clash?_eq_none_of_names {r : Record} (names : List Text)
    (h : r.extra.map Prod.fst = names)
    (hn : names.find? (fun n => attributes.contains n) = none) : r.clash? = none := by
  unfold clash?
  rw [h, hn]

theorem clash?_of_extra_nil {r : Record} (h : r.extra = []) : r.clash? = none :=
  clash?_eq_none_of_names [] (by rw [h, List.map_nil]) List.find?_nil

theorem clash?_conversion (input direction status : Text) (kind : Option Text) (durationMs : Int) :
    (conversion input direction status kind durationMs).clash? = none :=
  clash?_eq_none_of_names
    (["input", "direction", "status", "error_kind", "duration_ms"].map String.toList) rfl
    (by decide +kernel)

theorem clash?_summary (total converted failed resolved : Int) (seconds : Json.Value) :
    (summary total converted failed resolved seconds).clash? = none :=
  clash?_eq_none_of_names
    (["total_inputs", "converted", "failed", "ptr_resolved", "duration_sec"].map String.toList) rfl
    (by decide +kernel)

/-- The records that a lookup may leave. -/
inductive OfLookup : Record → Prop
  | failed (name responseData : Text) : OfLookup (lookupFailed name responseData)
  | fault (name : Text) (f : Fault) : OfLookup (lookupFault name f)

namespace OfLookup

variable {r : Record}

theorem clash?_eq_none (h : r.OfLookup) : r.clash? = none := by
  cases h with
  | failed name responseData =>
    exact clash?_eq_none_of_names (["arpa_name", "response_data"].map String.toList) rfl
      (by decide +kernel)
  | fault name f => exact clash?_of_extra_nil rfl

/-- What a lookup leaves is written in every session that has been set up. -/
theorem level_ne_debug (h : r.OfLookup) : r.level ≠ .debug := by
  cases h <;> exact Level.noConfusion

end OfLookup
end Record

namespace Session

variable {s : Session} {verbose : Bool} {stamp : Stamp} {r : Record} {rs : List Record}
  {lines : List Text}

/-- Only a record that gets past the level must not clash. -/
theorem exists_write_iff (s : Session) (stamp : Stamp) :
    (∃ lines, s.write stamp r = .ok lines) ↔ (s.enabled r.level = true → r.clash? = none) := by
  unfold write
  cases s.enabled r.level with
  | false => simp
  | true =>
    cases r.clash? with
    | none =>
      simp only [Bool.not_true, Bool.false_eq_true, if_false, implies_true, iff_true]
      split <;> exact ⟨_, rfl⟩
    | some name => simp

/-- A record that does not clash can be written in every state of logging. -/
theorem exists_write (s : Session) (stamp : Stamp) (h : r.clash? = none) :
    ∃ lines, s.write stamp r = .ok lines :=
  (s.exists_write_iff stamp).mpr fun _ => h

theorem writeAll_cons : s.writeAll stamp (r :: rs) = .ok lines ↔ ∃ first rest,
    s.write stamp r = .ok first ∧ s.writeAll stamp rs = .ok rest ∧ lines = first ++ rest := by
  rw [writeAll]
  cases s.write stamp r with
  | error f => simp [bind, Except.bind]
  | ok first =>
    cases s.writeAll stamp rs with
    | error f => simp [bind, Except.bind]
    | ok rest => simp [bind, Except.bind, pure, Except.pure, eq_comm]

theorem exists_writeAll_iff : (∃ lines, s.writeAll stamp rs = .ok lines) ↔
    ∀ r ∈ rs, s.enabled r.level = true → r.clash? = none := by
  induction rs with
  | nil => simp [writeAll]
  | cons r rs ih =>
    rw [List.forall_mem_cons, ← exists_write_iff s stamp, ← ih]
    constructor
    · rintro ⟨lines, h⟩
      obtain ⟨first, rest, hfirst, hrest, -⟩ := writeAll_cons.mp h
      exact ⟨⟨first, hfirst⟩, rest, hrest⟩
    · rintro ⟨⟨first, hfirst⟩, rest, hrest⟩
      exact ⟨first ++ rest, writeAll_cons.mpr ⟨first, rest, hfirst, hrest, rfl⟩⟩

/-! ### A session with handlers -/

/-- What the handlers of a session write of a record: its line, once each, if it gets
past the level. -/
def linesOf (s : Session) (stamp : Stamp) (r : Record) : List Text :=
  if s.enabled r.level then List.replicate s.handlers (r.line stamp) else []

theorem write_of_handlers (hs : 0 < s.handlers) (h : r.clash? = none) :
    s.write stamp r = .ok (s.linesOf stamp r) := by
  unfold write linesOf
  rw [h]
  cases s.enabled r.level with
  | false => rfl
  | true => exact if_neg (Nat.ne_of_gt hs)

theorem write_eq_ok (hs : 0 < s.handlers) (h : s.write stamp r = .ok lines) :
    lines = s.linesOf stamp r := by
  cases henabled : s.enabled r.level with
  | false => simpa [write, linesOf, henabled] using h.symm
  | true =>
    rw [write_of_handlers hs ((s.exists_write_iff stamp).mp ⟨lines, h⟩ henabled)] at h
    exact (Except.ok.inj h).symm

/-- **Each record is written once by every handler**, or not at all. -/
theorem lines_of_writeAll (hs : 0 < s.handlers) (h : s.writeAll stamp rs = .ok lines) :
    lines = rs.flatMap (s.linesOf stamp) := by
  induction rs generalizing lines with
  | nil => exact (Except.ok.inj h).symm
  | cons r rs ih =>
    obtain ⟨first, rest, hfirst, hrest, rfl⟩ := writeAll_cons.mp h
    rw [List.flatMap_cons, write_eq_ok hs hfirst, ih hrest]

/-! ### A session that has been set up -/

theorem enabled_setup (verbose : Bool) (level : Level) :
    (setup verbose).enabled level = (verbose || level != .debug) := by
  cases verbose <;> cases level <;> rfl

theorem write_setup (h : r.clash? = none) : (setup verbose).write stamp r =
    .ok (if (setup verbose).enabled r.level then [r.line stamp] else []) :=
  write_of_handlers Nat.one_pos h

/-- **Records without clashes are written one line each**, in order, as far as
they get past the level. -/
theorem writeAll_setup (h : ∀ r ∈ rs, r.clash? = none) : (setup verbose).writeAll stamp rs =
    .ok ((rs.filter fun r => (setup verbose).enabled r.level).map (Record.line stamp)) := by
  induction rs with
  | nil => rfl
  | cons r rs ih =>
    obtain ⟨hr, hrs⟩ := List.forall_mem_cons.mp h
    rw [writeAll, write_setup hr, ih hrs, List.filter_cons]
    cases (setup verbose).enabled r.level <;> rfl

/-- A verbose session writes every record. -/
theorem writeAll_setup_true (h : ∀ r ∈ rs, r.clash? = none) :
    (setup true).writeAll stamp rs = .ok (rs.map (Record.line stamp)) := by
  rw [writeAll_setup h, List.filter_eq_self.mpr fun r _ => enabled_setup true r.level]

/-- A session that is not verbose leaves out the debug records. -/
theorem writeAll_setup_false (h : ∀ r ∈ rs, r.clash? = none) : (setup false).writeAll stamp rs =
    .ok ((rs.filter fun r => r.level != .debug).map (Record.line stamp)) := by
  rw [writeAll_setup h]
  simp only [enabled_setup, Bool.false_or]

end Session
end Log
end ReverseDns
