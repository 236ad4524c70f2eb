/-
# A log line is one object, read back as it was logged

The extra fields of a record can have any names that are no attributes of records, also
those that the writer sets itself. The writer's fields are set last, each in the place
of an extra field of its name if there is one, so they are never taken from the record
(`Log.Record.shows_fields`), and no name is there twice (`Log.Record.nodup_fields`). The
line is printable ASCII whatever the texts in it are, and reading it gives these members
back (`Log.Record.line_readBack`).

Key definitions: `Log.ownNames`, `Log.Record.own`, `Log.Record.Shows`.
Key theorems: `Log.Record.nodup_fields`, `Log.Record.shows_fields`, `Log.Record.line_readBack`.
-/
import ReverseDns.Log.Line
import ReverseDns.Proofs.Json.Printed

namespace ReverseDns
namespace Log

open Json (Exact Members get? putAll)

/-- The names of the fields that the writer sets itself. -/
def ownNames : List Text := ["timestamp", "run_id", "level", "logger"].map String.toList

namespace Record

variable {stamp : Stamp} {r : Record}

theorem clash?_eq_none_iff : r.clash? = none ↔ ∀ m ∈ r.extra, m.1 ∉ attributes := by
  unfold clash?
  rw [List.find?_eq_none]
  simp

/-! ### The members before the writer's own -/

/-- The fault of a record as a member. -/
def faultMembers (r : Record) : Members :=
  match r.fault with
  | none => []
  | some f => [("exc_info".toList, .str f.describe)]

/-- The message, the fault and the extra fields that are written. -/
def own (r : Record) : Members :=
  ("message".toList, .str r.message) :: (r.faultMembers ++ r.kept)

/-- The fields that the writer sets. -/
def written (stamp : Stamp) (r : Record) : Members :=
  ownNames.zip ([stamp.time.logText, stamp.run, r.level.text, r.logger].map .str)

theorem fields_eq (stamp : Stamp) (r : Record) :
    r.fields stamp = putAll (r.written stamp) r.own := rfl

theorem nodup_written : ((r.written stamp).map Prod.fst).Nodup :=
  show ownNames.Nodup by decide

theorem mem_faultMembers {m : Text × Json.Value} (h : m ∈ r.faultMembers) :
    ∃ f, r.fault = some f ∧ m = ("exc_info".toList, .str f.describe) := by
  unfold faultMembers at h
  cases hf : r.fault with
  | none => simp [hf] at h
  | some f =>
    rw [hf] at h
    exact ⟨f, rfl, List.mem_singleton.mp h⟩

theorem mem_kept_iff {m : Text × Json.Value} :
    m ∈ r.kept ↔ m ∈ r.extra ∧ m.1.head? ≠ some '_' := by
  unfold kept
  rw [List.mem_filter, bne_iff_ne]

/-- No extra field of a record that can be made has the name of an attribute. -/
theorem notMem_names_kept {n : Text} (h : r.clash? = none) (hn : n ∈ attributes) :
    n ∉ r.kept.map Prod.fst := by
  intro hmem
  obtain ⟨m, hm, rfl⟩ := List.mem_map.mp hmem
  exact clash?_eq_none_iff.mp h m (mem_kept_iff.mp hm).1 hn

theorem nodup_own (h : r.clash? = none) (hnames : (r.extra.map Prod.fst).Nodup) :
    (r.own.map Prod.fst).Nodup := by
  have hkept : (r.kept.map Prod.fst).Nodup := hnames.sublist (List.filter_sublist.map Prod.fst)
  have hmessage := notMem_names_kept h (show "message".toList ∈ attributes by decide +kernel)
  have hinfo := notMem_names_kept h (show "exc_info".toList ∈ attributes by decide +kernel)
  unfold own faultMembers
  cases r.fault with
  | none => exact List.nodup_cons.mpr ⟨hmessage, hkept⟩
  | some f =>
    refine List.nodup_cons.mpr ⟨fun hmem => ?_, List.nodup_cons.mpr ⟨hinfo, hkept⟩⟩
    rcases List.mem_cons.mp hmem with hname | hmem
    · exact absurd hname (show "message".toList ≠ "exc_info".toList by decide)
    · exact hmessage hmem

/-! ### All members -/

/-- **No name is there twice.** -/
theorem nodup_fields (h : r.clash? = none) (hnames : (r.extra.map Prod.fst).Nodup) :
    ((r.fields stamp).map Prod.fst).Nodup := by
  rw [fields_eq]
  exact Json.nodup_putAll (nodup_own h hnames)

/-- A member is one of the writer's or was there before. -/
theorem mem_fields {m : Text × Json.Value} (h : m ∈ r.fields stamp) :
    (m.1 ∈ ownNames ∧ ∃ t, m.2 = .str t) ∨ m ∈ r.own := by
  rw [fields_eq] at h
  refine (Json.mem_putAll h).imp_left fun h => ?_
  obtain ⟨hname, hvalue⟩ := List.of_mem_zip h
  obtain ⟨t, -, ht⟩ := List.mem_map.mp hvalue
  exact ⟨hname, t, ht.symm⟩

/-- The writer's names have the values that it sets. -/
theorem get?_fields_of_mem {n : Text} {v : Json.Value} (h : (n, v) ∈ r.written stamp) :
    get? n (r.fields stamp) = some v := by
  rw [fields_eq, Json.get?_putAll r.own nodup_written,
    (Json.get?_eq_some_iff nodup_written).mpr h]
  rfl

/-- Other names have the values that they had before. -/
theorem get?_fields {n : Text} (h : n ∉ ownNames) : get? n (r.fields stamp) = get? n r.own := by
  rw [fields_eq, Json.get?_putAll r.own nodup_written, Json.get?_eq_none h]
  rfl

/-- What the members of a line show of a record: its message and its fault, the writer's
own fields, and the extra fields of other names, except those whose name begins with an
underscore; nothing is there twice, and nothing else is there. -/
structure Shows (stamp : Stamp) (r : Record) (ms : Members) : Prop where
  nodup : (ms.map Prod.fst).Nodup
  message : get? "message".toList ms = some (.str r.message)
  fault : get? "exc_info".toList ms = r.fault.map fun f => .str f.describe
  timestamp : get? "timestamp".toList ms = some (.str stamp.time.logText)
  run : get? "run_id".toList ms = some (.str stamp.run)
  level : get? "level".toList ms = some (.str r.level.text)
  logger : get? "logger".toList ms = some (.str r.logger)
  kept : ∀ n v, (n, v) ∈ r.extra → n ∉ ownNames → n.head? ≠ some '_' → get? n ms = some v
  only : ∀ n v, (n, v) ∈ ms → n ∈ "message".toList :: "exc_info".toList :: ownNames ∨
    ((n, v) ∈ r.extra ∧ n.head? ≠ some '_')

/-- **The members show the record**, whatever names its extra fields have. -/
theorem shows_fields (h : r.clash? = none) (hnames : (r.extra.map Prod.fst).Nodup) :
    r.Shows stamp (r.fields stamp) := by
  have hown := nodup_own h hnames
  have hinfo := notMem_names_kept h (show "exc_info".toList ∈ attributes by decide +kernel)
  refine ⟨nodup_fields h hnames, ?_, ?_, ?_, ?_, ?_, ?_, fun n v hmem hn hhead => ?_,
    fun n v hmem => ?_⟩
  · rw [get?_fields (by decide)]
    exact (Json.get?_eq_some_iff hown).mpr List.mem_cons_self
  · rw [get?_fields (by decide)]
    cases hf : r.fault with
    | none =>
      refine Json.get?_eq_none fun hmem => ?_
      simp only [own, faultMembers, hf, List.nil_append, List.map_cons, List.mem_cons] at hmem
      exact hmem.elim (by decide) hinfo
    | some f =>
      refine (Json.get?_eq_some_iff hown).mpr ?_
      simp [own, faultMembers, hf]
  · exact get?_fields_of_mem (by simp [written, ownNames])
  · exact get?_fields_of_mem (by simp [written, ownNames])
  · exact get?_fields_of_mem (by simp [written, ownNames])
  · exact get?_fields_of_mem (by simp [written, ownNames])
  · rw [get?_fields hn]
    refine (Json.get?_eq_some_iff hown).mpr (List.mem_cons_of_mem _ ?_)
    exact List.mem_append_right _ (mem_kept_iff.mpr ⟨hmem, hhead⟩)
  · rcases mem_fields hmem with ⟨hn, -⟩ | hmem
    · exact .inl (List.mem_cons_of_mem _ (List.mem_cons_of_mem _ hn))
    rcases List.mem_cons.mp hmem with heq | hmem
    · exact .inl ((Prod.mk.inj heq).1 ▸ List.mem_cons_self)
    rcases List.mem_append.mp hmem with hmem | hmem
    · obtain ⟨f, -, heq⟩ := mem_faultMembers hmem
      exact .inl ((Prod.mk.inj heq).1 ▸ List.mem_cons_of_mem _ List.mem_cons_self)
    · exact .inr (mem_kept_iff.mp hmem)

/-! ### The line -/

/-- **A line is printable ASCII**, without a line end or any other control character,
whatever the record is. -/
theorem isVisible_line (stamp : Stamp) (r : Record) : ∀ c ∈ r.line stamp, Text.IsVisible c :=
  Json.isVisible_compact _

theorem exact_fields (h : r.clash? = none) (hnames : (r.extra.map Prod.fst).Nodup)
    (hvalues : ∀ m ∈ r.extra, Exact m.2) : Exact (.obj (r.fields stamp)) := by
  refine .obj (nodup_fields h hnames) fun m hm => ?_
  rcases mem_fields hm with ⟨-, t, ht⟩ | hm
  · rw [ht]
    exact .str t
  rcases List.mem_cons.mp hm with rfl | hm
  · exact .str _
  rcases List.mem_append.mp hm with hm | hm
  · obtain ⟨f, -, rfl⟩ := mem_faultMembers hm
    exact .str _
  · exact hvalues m (mem_kept_iff.mp hm).1

/-- **A log line can be neither forged nor split.** The line of a record that can be made
is printable ASCII; it is the text of one object in which no name is there twice, and is
read back as that object, which shows the record: whatever names and values the extra
fields have, the message and the writer's own fields are as they were, and so are the
extra fields that are kept. -/
theorem line_readBack (stamp : Stamp) (r : Record) (h : r.clash? = none)
    (hnames : (r.extra.map Prod.fst).Nodup) (hvalues : ∀ m ∈ r.extra, Exact m.2) :
    (∀ c ∈ r.line stamp, Text.IsVisible c) ∧
      ∃ ms, r.line stamp = (Json.Value.obj ms).compact ∧
        Json.read? (r.line stamp) = some (.obj ms) ∧ r.Shows stamp ms :=
  ⟨isVisible_line stamp r, r.fields stamp, rfl, Json.read?_compact (exact_fields h hnames hvalues),
    shows_fields h hnames⟩

/-- An extra field that claims to be the time, one with a line end, and one that is
dropped. -/
theorem line_readBack_hostile :
    let r : Record := {
      logger := "a\n\"b".toList
      level := .error
      message := "100%s\u2028".toList
      extra := [("timestamp", "never"), ("note", "x\r\n\u007fé😀\", \"level\": \"INFO"),
        ("_hidden", "y")].map fun p => (p.1.toList, .str p.2.toList) }
    let stamp : Stamp := { time := { year := 2025, month := 12, day := 19 }, run := "RUN".toList }
    (r.clash? = none ∧ (r.extra.map Prod.fst).Nodup ∧ ∀ m ∈ r.extra, Exact m.2) ∧
      (∀ c ∈ r.line stamp, Text.IsVisible c) ∧
      ∃ ms, r.line stamp = (Json.Value.obj ms).compact ∧
        Json.read? (r.line stamp) = some (.obj ms) ∧ r.Shows stamp ms := by
  intro r stamp
  have hclash : r.clash? = none := by decide +kernel
  have hnames : (r.extra.map Prod.fst).Nodup := by decide +kernel
  have hvalues : ∀ m ∈ r.extra, Exact m.2 := by
    intro m hm
    obtain ⟨p, -, rfl⟩ := List.mem_map.mp hm
    exact .str _
  exact ⟨⟨hclash, hnames, hvalues⟩, line_readBack stamp r hclash hnames hvalues⟩

end Record
end Log
end ReverseDns
