/-
# The text of an address is read as the address

A dotted text is read exactly if it is the text of four bytes
(`Dotted.read?_eq_some_iff`), and a grouped one needs a colon
(`Grouped.read?_eq_none`); the two forms share no text, and the percent sign of
a scope stands in neither, so every address is read back from its text, with
its scope (`Address.read?_text`).

Key definition: `Address.unscoped`.
Key theorems: `Dotted.read?_eq_some_iff`, `Grouped.read?_eq_none`,
`Address.read?_text`, `Address.read?_eq_none`.
-/
import ReverseDns.Address.Text
import ReverseDns.Proofs.Address.Grouped

namespace ReverseDns

/-! ### Dotted text -/

namespace Dotted

variable {c : Char} {t : Text} {bs : List UInt8}

theorem read?_text (h : bs.length = 4) : read? (text bs) = some bs := by
  match bs, h with
  | [a, b, c, d], _ =>
    have hs := @Octet.splitOn_join_text [a, b, c, d] (by simp)
    unfold read? text
    rw [hs, Octet.map_read?_eq_iff.mpr rfl]
    rfl

/-- Each dotted text is that of the bytes that it is read as. -/
theorem read?_eq_some_iff : read? t = some bs ↔ bs.length = 4 ∧ t = text bs := by
  refine ⟨fun h => ?_, fun h => ?_⟩
  · unfold read? at h
    split at h
    · rename_i a b c d hm
      have hts : t.splitOn '.' = [a, b, c, d].map Octet.text := Octet.map_read?_eq_iff.mp hm
      rw [← Option.some.inj h]
      refine ⟨rfl, ?_⟩
      unfold text
      rw [← hts, Text.join_splitOn]
    · simp at h
  · obtain ⟨hl, rfl⟩ := h
    exact read?_text hl

theorem mem_text (h : c ∈ text bs) : c = '.' ∨ c.isDigit = true := by
  rcases Text.mem_join h with h | ⟨w, hw, hc⟩
  · exact Or.inl h
  · obtain ⟨b, -, rfl⟩ := List.mem_map.mp hw
    exact Or.inr (Octet.digits_text b c hc)

/-- A text with a character that is neither digit nor dot is not read. -/
theorem read?_eq_none (hc : c ∈ t) (hdot : c ≠ '.') (hd : c.isDigit = false) : read? t = none := by
  cases h : read? t with
  | none => rfl
  | some bs =>
    obtain ⟨-, rfl⟩ := read?_eq_some_iff.mp h
    rcases mem_text hc with h' | h'
    · exact absurd h' hdot
    · rw [hd] at h'
      simp at h'

end Dotted

/-! ### Grouped text -/

namespace Grouped

variable {c : Char} {t : Text} {gs : List Nat} {bs : List UInt8}

theorem mem_joined (h : c ∈ joined gs) : c = ':' ∨ ∃ d < 16, c = Nat.digitChar d := by
  rcases Text.mem_join h with h | ⟨w, hw, hc⟩
  · exact Or.inl h
  · obtain ⟨g, -, rfl⟩ := List.mem_map.mp hw
    exact Or.inr (mem_toDigits hc)

theorem mem_text (h : c ∈ text bs) : c = ':' ∨ ∃ d < 16, c = Nat.digitChar d := by
  unfold text compressed at h
  simp only at h
  split at h
  · exact mem_joined h
  · rcases List.mem_append.mp h with h | h
    · exact mem_joined h
    · rcases List.mem_cons.mp h with h | h
      · exact Or.inl h
      · rcases List.mem_cons.mp h with h | h
        · exact Or.inl h
        · exact mem_joined h

theorem colon_mem_text (h : bs.length = 16) : ':' ∈ text bs := by
  obtain ⟨-, hl⟩ := bytes_groups (k := 8) h
  unfold text compressed
  simp only
  split
  · match hg : groups bs with
    | [] => simp [hg] at hl
    | [_] => simp [hg] at hl
    | g :: k :: gs =>
      unfold joined
      rw [List.map_cons, List.map_cons, Text.join_cons_cons]
      simp
  · simp

theorem length_of_readParts?_singleton {tail : Bool} (h : readParts? tail [t] = some gs) :
    gs.length ≤ 2 := by
  rw [readParts?] at h
  split at h
  · obtain ⟨bs, hbs, rfl⟩ := Option.map_eq_some_iff.mp h
    obtain ⟨hl, -⟩ := Dotted.read?_eq_some_iff.mp hbs
    exact Nat.le_of_eq (bytes_groups (k := 2) hl).2
  · obtain ⟨g, -, rfl⟩ := Option.map_eq_some_iff.mp h
    simp

/-- A text without a colon is too short for eight groups. -/
theorem read?_eq_none (h : ':' ∉ t) : read? t = none := by
  have hsplit : splitElision t = none := by
    have := splitElision_append h []
    rwa [List.append_nil] at this
  unfold read?
  rw [hsplit]
  simp only
  cases hg : readGroups? true t with
  | none => rfl
  | some gs =>
    have hl : gs.length ≤ 2 := by
      unfold readGroups? at hg
      split at hg
      · obtain rfl := Option.some.inj hg
        simp
      · rw [List.splitOn_eq_singleton h] at hg
        exact length_of_readParts?_singleton hg
    have h8 : ¬ gs.length = 8 := by omega
    simp [h8]

end Grouped

namespace Address

variable {t : Text}

/-! ### Addresses and their bytes -/

/-- The address without its scope. -/
def unscoped (a : Address) : Address := ⟨a.family, a.bytes, none, a.length_bytes, by simp⟩

theorem unscoped_eq_self {a : Address} (h : a.scope = none) : a.unscoped = a := by
  obtain ⟨f, bs, scope, hl, hok⟩ := a
  simp only at h
  subst h
  rfl

/-- Bytes alone make the address that has them and no scope. -/
theorem ofBytes?_eq_some_iff {bs : List UInt8} {a : Address} :
    ofBytes? bs = some a ↔ a.bytes = bs ∧ a.scope = none := by
  unfold ofBytes?
  refine ⟨fun h => ?_, fun h => ?_⟩
  · split_ifs at h <;> obtain rfl := Option.some.inj h <;> exact ⟨rfl, rfl⟩
  · obtain ⟨rfl, hs⟩ := h
    obtain ⟨f, bs, scope, hl, hok⟩ := a
    simp only at hs
    subst hs
    cases f with
    | v4 => exact dif_pos hl
    | v6 =>
      have h4 : ¬ bs.length = 4 := by
        rw [hl]
        decide
      exact (dif_neg h4).trans (dif_pos hl)

theorem exists_of_length {bs : List UInt8} (h : bs.length = 4 ∨ bs.length = 16) :
    ∃ a : Address, a.bytes = bs ∧ a.scope = none := by
  rcases h with h | h
  · exact ⟨⟨.v4, bs, none, h, by simp⟩, rfl, rfl⟩
  · exact ⟨⟨.v6, bs, none, h, by simp⟩, rfl, rfl⟩

/-! ### The scope -/

/-- A text without percent sign is cut where the scope starts. -/
theorem splitScope_append (h : '%' ∉ t) (scope : Option Text) :
    splitScope (t ++ scopeText scope) = (t, scope) := by
  have hall : ∀ c ∈ t, (c != '%') = true := by
    intro c hc
    simp only [bne_iff_ne, ne_eq]
    rintro rfl
    exact h hc
  unfold splitScope
  cases scope with
  | none =>
    rw [scopeText, List.dropWhile_append_of_pos hall, List.append_nil]
    rfl
  | some s =>
    rw [scopeText, List.dropWhile_append_of_pos hall, List.dropWhile_cons_of_neg (by simp),
      List.takeWhile_append_of_pos hall, List.takeWhile_cons_of_neg (by simp)]
    simp

/-! ### Either text -/

theorem percent_not_mem_text (bs : List UInt8) : '%' ∉ Grouped.text bs := by
  intro h
  rcases Grouped.mem_text h with h | ⟨d, hd, h⟩
  · exact absurd h (by decide)
  · exact Text.ne_digitChar (by decide) hd h

theorem ofScoped?_eq_some {a : Address} (h : a.family = .v6) :
    ofScoped? a.bytes a.scope = some a := by
  obtain ⟨f, bs, scope, hl, hok⟩ := a
  simp only at h
  subst h
  exact dif_pos ⟨hl, fun s hs => (hok s hs).2⟩

/-- **Every address is read back from its text**, with its scope. -/
theorem read?_text (a : Address) : read? a.text = some a := by
  cases hf : a.family with
  | v4 =>
    have hl : a.bytes.length = 4 := by rw [a.length_bytes, hf]; rfl
    have hs : a.scope = none := by
      cases hs : a.scope with
      | none => rfl
      | some s =>
        have hok := (a.scope_ok s hs).1
        rw [hf] at hok
        exact absurd hok (by decide)
    unfold text read?
    rw [hf]
    simp only
    rw [Dotted.read?_text hl]
    exact ofBytes?_eq_some_iff.mpr ⟨rfl, hs⟩
  | v6 =>
    have hl : a.bytes.length = 16 := by rw [a.length_bytes, hf]; rfl
    have hcolon := List.mem_append_left (scopeText a.scope) (Grouped.colon_mem_text hl)
    unfold text read?
    rw [hf]
    simp only
    rw [Dotted.read?_eq_none hcolon (by decide) (by decide)]
    unfold readScoped?
    rw [splitScope_append (percent_not_mem_text a.bytes)]
    simp [Grouped.read?_text hl, ofScoped?_eq_some hf]

/-- A text without a colon that is not dotted is no address. -/
theorem read?_eq_none (hd : Dotted.read? t = none) (h : ':' ∉ t) : read? t = none := by
  have hbody : ':' ∉ (splitScope t).1 := by
    unfold splitScope
    split
    · exact h
    · intro hc
      exact h (List.takeWhile_subset _ hc)
  unfold read?
  rw [hd]
  simp only
  unfold readScoped?
  simp [Grouped.read?_eq_none hbody]

end Address
end ReverseDns
