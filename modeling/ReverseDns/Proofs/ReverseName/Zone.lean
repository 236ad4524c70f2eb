/-
# The zone at the end of a name

`EndsIn family name value`: the name is `value` followed by the zone of the
family, its letters in any case. This is what `beforeSuffix?` decides
(`beforeSuffix?_eq_some_iff`); the two zones end differently, so a name ends in
at most one of them and leaves one value before it (`EndsIn.unique`). A name
with a final dot ends in no zone, so `dropDot` takes off all that may follow
the zone (`endsIn_dropDot_iff`).

Key definition: `ReverseName.EndsIn`.
Key theorems: `ReverseName.beforeSuffix?_eq_some_iff`, `ReverseName.EndsIn.unique`,
`ReverseName.endsIn_dropDot_iff`.
-/
import ReverseDns.Proofs.Text.Letter
import ReverseDns.ReverseName.Basic

namespace ReverseDns

theorem Family.isPlain_suffix (f : Family) : ∀ c ∈ f.suffix, Text.IsPlain c := by
  have h : (f.suffix.all fun c => decide (Text.IsPlain c)) = true := by
    cases f <;> decide
  intro c hc
  exact of_decide_eq_true (List.all_eq_true.mp h c hc)

namespace ReverseName

variable {f g : Family} {name m v w zone : Text}

/-- A name that is `value` before the zone of `family` in any letter case. -/
def EndsIn (family : Family) (name value : Text) : Prop :=
  ∃ zone, name = value ++ zone ∧ zone.map Char.toLower = family.suffix

theorem length_of_map_toLower (h : zone.map Char.toLower = f.suffix) :
    zone.length = f.suffix.length := by
  rw [← h, List.length_map]

theorem EndsIn.length (h : EndsIn f m v) : m.length = v.length + f.suffix.length := by
  obtain ⟨zone, rfl, hz⟩ := h
  rw [List.length_append, length_of_map_toLower hz]

/-- Looking for the zone finds the value before it. -/
theorem beforeSuffix?_eq_some_iff : beforeSuffix? f m = some v ↔ EndsIn f m v := by
  unfold beforeSuffix?
  simp only [Text.lower_eq_iff (Family.isPlain_suffix f)]
  refine ⟨fun h => ?_, fun h => ?_⟩
  · split at h
    · rename_i hc
      simp only [Option.some.injEq] at h
      subst h
      exact ⟨_, (List.take_append_drop _ m).symm, hc.2⟩
    · simp at h
  · obtain ⟨zone, rfl, hz⟩ := h
    have hl := length_of_map_toLower hz
    have hs : (v ++ zone).length - f.suffix.length = v.length := by
      rw [List.length_append, hl]
      omega
    rw [hs, List.take_left, List.drop_left, if_pos ⟨by simp [hl], hz⟩]

theorem beforeSuffix?_eq_none_iff : beforeSuffix? f m = none ↔ ∀ v, ¬ EndsIn f m v := by
  refine ⟨fun h v hv => ?_, fun h => ?_⟩
  · rw [beforeSuffix?_eq_some_iff.mpr hv] at h
    simp at h
  · cases hb : beforeSuffix? f m with
    | none => rfl
    | some v => exact absurd (beforeSuffix?_eq_some_iff.mp hb) (h v)

/-- The last nine characters of a name tell the zones apart. -/
theorem EndsIn.take_reverse_lower (h : EndsIn f m v) :
    ((m.map Char.toLower).reverse.take 9) = f.suffix.reverse.take 9 := by
  obtain ⟨zone, rfl, hz⟩ := h
  rw [List.map_append, List.reverse_append, hz, List.take_append_of_le_length]
  cases f <;> decide

theorem EndsIn.family_eq (h : EndsIn f m v) (h' : EndsIn g m w) : f = g := by
  have he := h.take_reverse_lower.symm.trans h'.take_reverse_lower
  cases f <;> cases g <;> first | rfl | exact absurd he (by decide)

/-- A name ends in at most one zone, and one value stands before it. -/
theorem EndsIn.unique (h : EndsIn f m v) (h' : EndsIn g m w) : f = g ∧ v = w := by
  have hf := h.family_eq h'
  subst hf
  have hv := beforeSuffix?_eq_some_iff.mpr h
  rw [beforeSuffix?_eq_some_iff.mpr h'] at hv
  exact ⟨rfl, (Option.some.inj hv).symm⟩

/-! ### The final dot -/

theorem dropDot_append_dot (m : Text) : dropDot (m ++ ['.']) = m := by
  simp [dropDot]

theorem dropDot_of_getLast?_ne (h : m.getLast? ≠ some '.') : dropDot m = m := if_neg h

/-- A name is what is left of it, or that and a dot. -/
theorem eq_dropDot_append (name : Text) : name = dropDot name ∨ name = dropDot name ++ ['.'] := by
  unfold dropDot
  split
  · rename_i h
    right
    obtain ⟨m, rfl⟩ := List.getLast?_eq_some_iff.mp h
    rw [List.dropLast_concat]
  · exact Or.inl rfl

theorem mem_dropDot_or {c : Char} (h : c ∈ name) : c ∈ dropDot name ∨ c = '.' := by
  rcases eq_dropDot_append name with he | he
  · rw [he] at h
    exact Or.inl h
  · rw [he] at h
    rcases List.mem_append.mp h with h | h
    · exact Or.inl h
    · exact Or.inr (List.mem_singleton.mp h)

theorem dropDot_isPrefix (name : Text) : dropDot name <+: name := by
  rcases eq_dropDot_append name with h | h
  · exact ⟨[], by rw [List.append_nil, ← h]⟩
  · exact ⟨['.'], h.symm⟩

/-- The zone does not end with a dot. -/
theorem EndsIn.getLast?_ne (h : EndsIn f m v) : m.getLast? ≠ some '.' := by
  obtain ⟨zone, rfl, hz⟩ := h
  have hlast : zone.getLast?.map Char.toLower = some 'a' := by
    rw [← List.getLast?_map, hz]
    cases f <;> decide
  obtain ⟨c, hc, hlow⟩ := Option.map_eq_some_iff.mp hlast
  rw [List.getLast?_append, hc, Option.some_or]
  rintro ⟨⟩
  exact absurd hlow (by decide)

/-- A name without its final dot ends in a zone exactly if the name is that,
or that and a dot. -/
theorem endsIn_dropDot_iff : EndsIn f (dropDot name) v ↔
    EndsIn f name v ∨ ∃ m, name = m ++ ['.'] ∧ EndsIn f m v := by
  constructor
  · intro h
    rcases eq_dropDot_append name with he | he
    · exact Or.inl (he.symm ▸ h)
    · exact Or.inr ⟨_, he, h⟩
  · rintro (h | ⟨m, rfl, h⟩)
    · rwa [dropDot_of_getLast?_ne h.getLast?_ne]
    · rwa [dropDot_append_dot]

end ReverseName
end ReverseDns
