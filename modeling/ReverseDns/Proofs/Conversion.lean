/-
# Converting back and forth

No reverse name is an address: its zone has a letter that no dotted text has,
and it has no colon (`read?_eq_none_of_decode`). So the name of an address is
converted to the address without its scope (`Entry.ofInput_ofAddress`), and the
text of such an address to its name again (`Entry.ofInput_text`).

Key theorems: `ReverseName.read?_eq_none_of_decode`, `Entry.ofInput_ofAddress`,
`Entry.ofInput_text`, `Entry.ofInput_cases`, `Entry.exists_thereAndBack`.
-/
import ReverseDns.Conversion
import ReverseDns.Proofs.ReverseName.RoundTrip
import ReverseDns.Proofs.Text.Trim

namespace ReverseDns

/-! ### Names and addresses share no text -/

namespace ReverseName

variable {name m v : Text} {bs : List UInt8} {a : Address} {f : Family} {c : Char}

/-- The zone holds a `p` or a `P`. -/
theorem EndsIn.exists_letter (h : EndsIn f m v) : ∃ c ∈ m, c.toLower = 'p' := by
  obtain ⟨zone, rfl, hz⟩ := h
  have hp : 'p' ∈ zone.map Char.toLower := by
    rw [hz]
    cases f <;> decide
  obtain ⟨c, hc, hlow⟩ := List.mem_map.mp hp
  exact ⟨c, List.mem_append_right v hc, hlow⟩

theorem mem_ofAddress (h : c ∈ ofAddress a) :
    (c = '.' ∨ ∃ d < 16, c = Nat.digitChar d) ∨ c ∈ a.family.suffix := by
  rcases List.mem_append.mp h with h | h
  · exact Or.inl (mem_join_labels h)
  · exact Or.inr h

theorem colon_not_mem_ofAddress (a : Address) : ':' ∉ ofAddress a := by
  intro h
  rcases mem_ofAddress h with (h | ⟨d, hd, h⟩) | h
  · exact absurd h (by decide)
  · exact Text.ne_digitChar (by decide) hd h
  · cases hf : a.family <;> rw [hf] at h <;> exact absurd h (by decide)

/-- **No reverse name is an address**, in whatever case and with or without a
final dot. -/
theorem read?_eq_none_of_decode (h : decode name = .ok bs) : Address.read? name = none := by
  obtain ⟨a, rfl, -⟩ := Address.exists_of_length (length_of_decode h)
  obtain ⟨f, v, hm, -⟩ := decode_eq_ok_iff.mp h
  apply Address.read?_eq_none
  · obtain ⟨c, hc, hlow⟩ := hm.exists_letter
    refine Dotted.read?_eq_none ((dropDot_isPrefix name).subset hc) ?_ ?_
    · rintro rfl
      exact absurd hlow (by decide)
    · by_contra hd
      rw [Bool.not_eq_false] at hd
      rw [Text.toLower_of_isDigit hd] at hlow
      rw [hlow] at hd
      exact absurd hd (by decide)
  · intro hc
    rcases mem_dropDot_or hc with hc | hc
    · apply colon_not_mem_ofAddress a
      rw [ofAddress_eq_map_toLower h]
      exact List.mem_map.mpr ⟨':', hc, by decide⟩
    · exact absurd hc (by decide)

theorem toAddress_eq_ok_iff : toAddress name = .ok a ↔ decode name = .ok a.bytes ∧ a.scope = none := by
  unfold toAddress
  refine ⟨fun h => ?_, fun h => ?_⟩
  · split at h
    · simp at h
    · rename_i bs hbs
      split at h
      · rename_i b hb
        rw [← Except.ok.inj h]
        obtain ⟨rfl, hs⟩ := Address.ofBytes?_eq_some_iff.mp hb
        exact ⟨hbs, hs⟩
      · simp at h
  · obtain ⟨h, hs⟩ := h
    rw [h]
    simp only
    rw [Address.ofBytes?_eq_some_iff.mpr ⟨rfl, hs⟩]

end ReverseName

/-! ### White space around texts -/

theorem Text.isBlank_digitChar : ∀ d < 16, isBlank (Nat.digitChar d) = false := by decide

theorem Family.isBlank_suffix (f : Family) : ∀ c ∈ f.suffix, Text.isBlank c = false := by
  have h : (f.suffix.all fun c => !Text.isBlank c) = true := by
    cases f <;> decide
  intro c hc
  simpa using List.all_eq_true.mp h c hc

theorem ReverseName.trim_ofAddress (a : Address) : Text.trim (ofAddress a) = ofAddress a := by
  apply Text.trimOf_eq_self
  intro c hc
  rcases mem_ofAddress hc with (rfl | ⟨d, hd, rfl⟩) | hc
  · decide
  · exact Text.isBlank_digitChar d hd
  · exact a.family.isBlank_suffix c hc

theorem Address.trim_text {a : Address} (h : a.scope = none) : Text.trim a.text = a.text := by
  apply Text.trimOf_eq_self
  intro c hc
  unfold Address.text at hc
  rw [h, scopeText, List.append_nil] at hc
  split at hc
  · rcases Dotted.mem_text hc with rfl | hd
    · decide
    · obtain ⟨hd, hlt⟩ := Octet.digitChar_of_isDigit hd
      rw [← hd]
      exact Text.isBlank_digitChar _ (by omega)
  · rcases Grouped.mem_text hc with rfl | ⟨d, hd, rfl⟩
    · decide
    · exact Text.isBlank_digitChar d hd

/-! ### Entries -/

namespace Entry

variable {v : Text} {a : Address}

theorem ofInput_of_read? (h : Address.read? (Text.trim v) = some a) : ofInput v =
    { input := v, direction := .toReverseName, status := .ok
      output := some (ReverseName.ofAddress a)
      reverseName := some (ReverseName.ofAddress a) } := by
  unfold ofInput
  simp only [h]

theorem ofInput_of_decode (h : ReverseName.decode (Text.trim v) = .ok a.bytes) (hs : a.scope = none) :
    ofInput v =
      { input := v, direction := .fromReverseName, status := .ok
        output := some a.text
        reverseName := some (ReverseName.ofAddress a) } := by
  unfold ofInput
  simp only [ReverseName.read?_eq_none_of_decode h, ReverseName.toAddress_eq_ok_iff.mpr ⟨h, hs⟩]

/-- An entry is good if its input is an address or a reverse name. -/
theorem ofInput_cases (h : (ofInput v).isOk = true) :
    (∃ a, Address.read? (Text.trim v) = some a) ∨
      ∃ a : Address, a.scope = none ∧ ReverseName.decode (Text.trim v) = .ok a.bytes := by
  cases hr : Address.read? (Text.trim v) with
  | some a => exact Or.inl ⟨a, rfl⟩
  | none =>
    right
    cases ha : ReverseName.toAddress (Text.trim v) with
    | ok a =>
      obtain ⟨hd, hs⟩ := ReverseName.toAddress_eq_ok_iff.mp ha
      exact ⟨a, hs, hd⟩
    | error e =>
      unfold ofInput at h
      simp [hr, ha, isOk] at h

/-- A written name is converted to the address without its scope. -/
theorem ofInput_ofAddress (a : Address) : ofInput (ReverseName.ofAddress a) =
    { input := ReverseName.ofAddress a, direction := .fromReverseName, status := .ok
      output := some a.unscoped.text
      reverseName := some (ReverseName.ofAddress a) } := by
  have h : ReverseName.decode (Text.trim (ReverseName.ofAddress a)) = .ok a.unscoped.bytes := by
    rw [ReverseName.trim_ofAddress, ReverseName.decode_ofAddress]
    rfl
  exact ofInput_of_decode h rfl

/-- The text of an address without scope is converted to its name. -/
theorem ofInput_text (h : a.scope = none) : ofInput a.text =
    { input := a.text, direction := .toReverseName, status := .ok
      output := some (ReverseName.ofAddress a)
      reverseName := some (ReverseName.ofAddress a) } := by
  apply ofInput_of_read?
  rw [Address.trim_text h, Address.read?_text]

/-- An input, its output, their reverse name and the output of the output:
conversion goes there and back, in opposite directions and by the same name. -/
structure ThereAndBack (v there name back : Text) : Prop where
  output : (ofInput v).output = some there
  reverseName : (ofInput v).reverseName = some name
  there_isOk : (ofInput there).isOk = true
  there_direction : (ofInput there).direction ≠ (ofInput v).direction
  there_reverseName : (ofInput there).reverseName = some name
  there_output : (ofInput there).output = some back
  back_isOk : (ofInput back).isOk = true
  back_direction : (ofInput back).direction = (ofInput v).direction
  back_output : (ofInput back).output = some there
  back_reverseName : (ofInput back).reverseName = some name

theorem thereAndBack_of_read? (h : Address.read? (Text.trim v) = some a) :
    ThereAndBack v (ReverseName.ofAddress a) (ReverseName.ofAddress a) a.unscoped.text := by
  have hv := ofInput_of_read? h
  have hthere := ofInput_ofAddress a
  have hback := ofInput_text (rfl : a.unscoped.scope = none)
  constructor <;> simp only [hv, hthere, hback]
  · rfl
  · simp
  · rfl
  · rfl
  · rfl

theorem thereAndBack_of_decode (h : ReverseName.decode (Text.trim v) = .ok a.bytes)
    (hs : a.scope = none) :
    ThereAndBack v a.text (ReverseName.ofAddress a) (ReverseName.ofAddress a) := by
  have hv := ofInput_of_decode h hs
  have hthere := ofInput_text hs
  have hback := ofInput_ofAddress a
  rw [Address.unscoped_eq_self hs] at hback
  constructor <;> simp only [hv, hthere, hback]
  · rfl
  · simp
  · rfl

/-- **Converting back and forth is stable.** What an input is converted to is
converted back, to what gives it again; an address comes back without its scope,
and its name stays in the zone of its family. -/
theorem exists_thereAndBack (v : Text) (h : (ofInput v).isOk = true) :
    ∃ there name back, ThereAndBack v there name back ∧
      ∀ a, Address.read? (Text.trim v) = some a →
        back = a.unscoped.text ∧ a.family.suffix <:+ name := by
  rcases ofInput_cases h with ⟨a, ha⟩ | ⟨a, hs, ha⟩
  · refine ⟨_, _, _, thereAndBack_of_read? ha, fun b hb => ?_⟩
    rw [ha] at hb
    obtain rfl := Option.some.inj hb
    exact ⟨rfl, List.suffix_append _ _⟩
  · refine ⟨_, _, _, thereAndBack_of_decode ha hs, fun b hb => ?_⟩
    rw [ReverseName.read?_eq_none_of_decode ha] at hb
    simp at hb

theorem exists_thereAndBack_mapped : (ofInput " ::FFFF:1.2.3.4%eth0 ".toList).isOk = true ∧
    ∃ there name back, ThereAndBack " ::FFFF:1.2.3.4%eth0 ".toList there name back ∧
      ∀ a, Address.read? (Text.trim " ::FFFF:1.2.3.4%eth0 ".toList) = some a →
        back = a.unscoped.text ∧ a.family.suffix <:+ name := by
  have h : (ofInput " ::FFFF:1.2.3.4%eth0 ".toList).isOk = true := by decide +kernel
  exact ⟨h, exists_thereAndBack _ h⟩

end Entry
end ReverseDns
