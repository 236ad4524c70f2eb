/-
# The JSON form loses nothing

The values of pointer results, entries and reports are records with fixed members.
All of them are exact and are told apart when their members are sorted, so the text
of a report gives back its value up to the order of members, and two reports with
different values have different texts. Nothing of this depends on what the timestamp
is written as, so it is shown for any text in its place (`Report.valueAt`). A report
whose duration is too long has no text to read back (`Report.writtenAt`).

Key definitions: `Ptr.Result.fields`, `Entry.fields`, `Report.fields`, `Report.valueAt`,
`Report.jsonAt`, `Report.writtenAt`.
Key theorem: `Report.json_readBack`.
-/
import ReverseDns.Proofs.Json.Printed
import ReverseDns.Proofs.Json.Sorted
import ReverseDns.Proofs.Report.Written

namespace ReverseDns

open Json (Exact Fields SortedApart Value)

theorem Json.exact_text? (t : Option Text) : Exact (.text? t) := by
  cases t with
  | none => exact .null
  | some t => exact .str t

theorem Json.sortedApart_text? : SortedApart Value.text? :=
  sortedApart_of_sortKeys_eq fun t => by cases t <;> rfl

namespace Ptr.Result

/-- The members of a pointer result. -/
def fields : Fields Ptr.Result :=
  [("name".toList, fun r => .str r.name), ("status".toList, fun r => .str r.status.text),
    ("hostnames".toList, fun r => .arr (r.hostnames.map .str)),
    ("response_data".toList, fun r => .str r.responseData)]

theorem value_eq (r : Ptr.Result) : r.value = fields.value r := rfl

theorem exact_value (r : Ptr.Result) : Exact r.value := by
  rw [value_eq]
  refine Fields.exact (by decide) r (List.forall_iff_forall_mem.mp ?_)
  simp only [fields, List.Forall]
  refine ⟨.str _, .str _, .arr fun v hv => ?_, .str _⟩
  obtain ⟨t, -, rfl⟩ := List.mem_map.mp hv
  exact .str t

theorem sortedApart_value : SortedApart value := by
  show SortedApart fields.value
  refine Fields.sortedApart (by decide) (List.forall_iff_forall_mem.mp ?_)
  have hstr : SortedApart Value.str := Json.sortedApart_of_sortKeys_eq fun _ => rfl
  simp only [fields, List.Forall]
  exact ⟨hstr.comp _, hstr.comp _, hstr.arr.comp _, hstr.comp _⟩

end Ptr.Result

namespace Entry

/-- The members of an entry. -/
def fields : Fields Entry :=
  [("input".toList, fun e => .str e.input), ("direction".toList, fun e => .str e.direction.text),
    ("status".toList, fun e => .str e.status.text), ("output".toList, fun e => .text? e.output),
    ("arpa_name".toList, fun e => .text? e.reverseName),
    ("error_kind".toList, fun e => .text? e.errorKind),
    ("error_message".toList, fun e => .text? e.errorMessage),
    ("ptr".toList, fun e => .ofOption Ptr.Result.value e.ptr)]

theorem value_eq (e : Entry) : e.value = fields.value e := rfl

theorem exact_value (e : Entry) : Exact e.value := by
  rw [value_eq]
  refine Fields.exact (by decide) e (List.forall_iff_forall_mem.mp ?_)
  simp only [fields, List.Forall]
  refine ⟨.str _, .str _, .str _, Json.exact_text? _, Json.exact_text? _, Json.exact_text? _,
    Json.exact_text? _, ?_⟩
  cases e.ptr with
  | none => exact .null
  | some p => exact p.exact_value

theorem sortedApart_value : SortedApart value := by
  show SortedApart fields.value
  refine Fields.sortedApart (by decide) (List.forall_iff_forall_mem.mp ?_)
  have hstr : SortedApart Value.str := Json.sortedApart_of_sortKeys_eq fun _ => rfl
  have htext := Json.sortedApart_text?
  have hptr : SortedApart (Value.ofOption Ptr.Result.value) :=
    Ptr.Result.sortedApart_value.ofOption Ptr.Result.fields.sortKeys_value_ne_null
  simp only [fields, List.Forall]
  exact ⟨hstr.comp _, hstr.comp _, hstr.comp _, htext.comp _, htext.comp _, htext.comp _,
    htext.comp _, hptr.comp _⟩

end Entry

namespace Report

/-- The members of the totals of a report, with a text for its timestamp. -/
def summaryFields : Fields (Report × Text) :=
  [("timestamp".toList, fun r => .str r.2), ("total_inputs".toList, fun r => .int r.1.total),
    ("converted".toList, fun r => .int r.1.converted), ("failed".toList, fun r => .int r.1.failed),
    ("ptr_enabled".toList, fun r => .bool r.1.ptrEnabled),
    ("ptr_resolved".toList, fun r => .int r.1.resolved),
    ("execution_duration_ms".toList, fun r => .int r.1.durationMs)]

/-- The members of a report, with a text for its timestamp. -/
def fields : Fields (Report × Text) :=
  [("summary".toList, summaryFields.value),
    ("results".toList, fun r => .arr (r.1.entries.map Entry.value))]

/-- The value of a report whose timestamp is written as `stamp`. -/
def valueAt (r : Report) (stamp : Text) : Value := fields.value (r, stamp)

/-- The JSON form of a report whose timestamp is written as `stamp`. -/
def jsonAt (r : Report) (stamp : Text) : Text := (r.valueAt stamp).sortKeys.pretty 0

theorem value_eq_valueAt (r : Report) : r.value = r.valueAt r.timestamp.iso := rfl

theorem exact_valueAt (r : Report) (stamp : Text) : Exact (r.valueAt stamp) := by
  have hsummary : Exact (summaryFields.value (r, stamp)) := by
    refine Fields.exact (by decide) _ (List.forall_iff_forall_mem.mp ?_)
    simp only [summaryFields, List.Forall]
    exact ⟨.str _, .int _, .int _, .int _, .bool _, .int _, .int _⟩
  refine Fields.exact (by decide) _ (List.forall_iff_forall_mem.mp ?_)
  simp only [fields, List.Forall]
  refine ⟨hsummary, .arr fun v hv => ?_⟩
  obtain ⟨e, -, rfl⟩ := List.mem_map.mp hv
  exact e.exact_value

theorem sortedApart_fields : SortedApart fields.value := by
  have hstr : SortedApart Value.str := Json.sortedApart_of_sortKeys_eq fun _ => rfl
  have hint : SortedApart Value.int := Json.sortedApart_of_sortKeys_eq fun _ => rfl
  have hbool : SortedApart Value.bool := Json.sortedApart_of_sortKeys_eq fun _ => rfl
  have hsummary : SortedApart summaryFields.value := by
    refine Fields.sortedApart (by decide) (List.forall_iff_forall_mem.mp ?_)
    simp only [summaryFields, List.Forall]
    exact ⟨hstr.comp _, hint.comp _, hint.comp _, hint.comp _, hbool.comp _, hint.comp _,
      hint.comp _⟩
  refine Fields.sortedApart (by decide) (List.forall_iff_forall_mem.mp ?_)
  simp only [fields, List.Forall]
  exact ⟨hsummary, Entry.sortedApart_value.arr.comp _⟩

theorem read?_jsonAt (r : Report) (stamp : Text) :
    Json.read? (r.jsonAt stamp) = some (r.valueAt stamp).sortKeys :=
  Json.read?_pretty (Json.exact_sortKeys (r.exact_valueAt stamp)) 0

theorem jsonAt_inj {r r' : Report} {stamp stamp' : Text} (h : r.jsonAt stamp = r'.jsonAt stamp') :
    r.valueAt stamp = r'.valueAt stamp' := by
  have hread := r.read?_jsonAt stamp
  rw [h, read?_jsonAt, Option.some.injEq] at hread
  exact sortedApart_fields _ _ hread.symm

/-- The JSON form of a report as it is written, with a text for its timestamp. -/
def writtenAt (r : Report) (stamp : Text) : Except Fault Text := do
  Integer.check r.durationMs
  return r.jsonAt stamp

theorem render_json_eq_writtenAt (r : Report) : r.render .json = r.writtenAt r.timestamp.iso := rfl

theorem writtenAt_eq_ok_iff {r : Report} {stamp text : Text} :
    r.writtenAt stamp = .ok text ↔
      Integer.isShort r.durationMs = true ∧ r.jsonAt stamp = text :=
  Integer.check_bind_eq_ok_iff

/-- The value of a report has its duration. -/
theorem durationMs_eq_of_valueAt_eq {r r' : Report} {stamp stamp' : Text}
    (h : r.valueAt stamp = r'.valueAt stamp') : r.durationMs = r'.durationMs := by
  have hsummary : summaryFields.value (r, stamp) = summaryFields.value (r', stamp') :=
    fields.apply_eq h (List.mem_of_getElem? (i := 0) rfl)
  exact Value.int.inj (summaryFields.apply_eq hsummary (List.mem_of_getElem? (i := 6) rfl))

/-- Texts that are written are equal exactly if the values are. -/
theorem writtenAt_eq_ok_iff_valueAt_eq {r r' : Report} {stamp stamp' text : Text}
    (h : r.writtenAt stamp = .ok text) :
    r'.writtenAt stamp' = .ok text ↔ r.valueAt stamp = r'.valueAt stamp' := by
  obtain ⟨hshort, rfl⟩ := writtenAt_eq_ok_iff.mp h
  rw [writtenAt_eq_ok_iff]
  constructor
  · rintro ⟨-, htext⟩
    exact jsonAt_inj htext.symm
  · intro hvalue
    refine ⟨durationMs_eq_of_valueAt_eq hvalue ▸ hshort, ?_⟩
    rw [jsonAt, jsonAt, hvalue]

/-- **The JSON form of a report loses nothing**, whatever integers are in it and whatever
text its timestamp is written as. It is written unless the duration has more than 4300
digits, which is a fault. What is written is printable ASCII and line ends, it is read back
as the value of the report up to the order of members, and another report is written as
this text exactly if it has this value. -/
theorem json_readBack (r : Report) (stamp : Text) :
    r.render .json = r.writtenAt r.timestamp.iso ∧ r.value = r.valueAt r.timestamp.iso ∧
    ((∃ text, r.writtenAt stamp = .ok text) ↔
      (Nat.toDigits 10 r.durationMs.natAbs).length ≤ 4300) ∧
    (4300 < (Nat.toDigits 10 r.durationMs.natAbs).length →
      r.writtenAt stamp = .error Integer.tooLong) ∧
    ∀ text, r.writtenAt stamp = .ok text →
      text = r.jsonAt stamp ∧
      Text.IsPrinted text ∧
      (∃ v, Json.read? text = some v ∧ Json.Reordered (r.valueAt stamp) v) ∧
      ∀ (r' : Report) (stamp' : Text),
        r'.writtenAt stamp' = .ok text ↔ r.valueAt stamp = r'.valueAt stamp' := by
  refine ⟨render_json_eq_writtenAt r, value_eq_valueAt r, ?_, ?_, ?_⟩
  · simp [writtenAt_eq_ok_iff, Integer.isShort_eq_true_iff, Integer.maxDigits]
  · intro hlong
    refine Integer.check_bind_of_isShort_eq_false _ (Bool.eq_false_iff.mpr fun hshort => ?_)
    exact absurd (Integer.isShort_eq_true_iff.mp hshort) (Nat.not_le.mpr hlong)
  · intro text h
    obtain ⟨-, htext⟩ := writtenAt_eq_ok_iff.mp h
    refine ⟨htext.symm, ?_, ?_, fun r' stamp' => writtenAt_eq_ok_iff_valueAt_eq h⟩
    · rw [← htext]
      exact Json.isPrinted_pretty _ 0
    · rw [← htext]
      exact ⟨_, r.read?_jsonAt stamp, Json.reordered_sortKeys _⟩

end Report
end ReverseDns
