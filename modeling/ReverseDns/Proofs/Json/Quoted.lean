/-
# Quoted strings are read back

A character is written as itself, by a short escape, or by its UTF-16 code units,
one or two of them. Reading gives the code units back, character by character
(`readUnits_escape`), and the units give the characters back, a high surrogate
being joined with the low one after it (`ofUnits?_units`). So a string is read
back from its quoted form, whatever follows (`readString_quoted`).

Key definition: `Json.units`.
Key theorems: `Json.readUnits_escape`, `Json.ofUnits?_units`, `Json.readString_quoted`.
-/
import ReverseDns.Json.Read
import ReverseDns.Json.Write
import ReverseDns.Proofs.Text.Printed

namespace ReverseDns
namespace Json

open Text (IsPrinted IsVisible)

/-- The code units of a character: itself, or a surrogate pair. -/
def units (c : Char) : List Nat :=
  if c.toNat < 0x10000 then [c.toNat]
  else [0xd800 + (c.toNat - 0x10000) / 0x400, 0xdc00 + (c.toNat - 0x10000) % 0x400]

variable {c : Char} {n : Nat} {ns : List Nat} {cs : Text}

/-- No character is a surrogate or lies beyond the last code point. -/
theorem toNat_cases (c : Char) : c.toNat < 0xd800 ∨ (0xe000 ≤ c.toNat ∧ c.toNat < 0x110000) := by
  have h : c.toNat.isValidChar := c.valid
  unfold Nat.isValidChar at h
  omega

/-! ### From the text to the units -/

theorem escapeUnit_eq (n : Nat) : escapeUnit n =
    ['\\', 'u', Nat.digitChar (n / 16 / 16 / 16 % 16), Nat.digitChar (n / 16 / 16 % 16),
      Nat.digitChar (n / 16 % 16), Nat.digitChar (n % 16)] := rfl

theorem hexNumber?_escapeUnit (h : n < 0x10000) :
    Text.hexNumber? [Nat.digitChar (n / 16 / 16 / 16 % 16), Nat.digitChar (n / 16 / 16 % 16),
      Nat.digitChar (n / 16 % 16), Nat.digitChar (n % 16)] = some n := by
  have hread := Text.hexNumber?_padded (f := id) Text.hexDigit?_digitChar 4 n
  have hlt : n < 16 ^ 4 := h
  rw [List.map_id, Nat.mod_eq_of_lt hlt] at hread
  exact hread

theorem readUnits_escapeUnit (h : n < 0x10000) (cs : Text) :
    readUnits (escapeUnit n ++ cs) = (readUnits cs).map fun (ns, rest) => (n :: ns, rest) := by
  rw [escapeUnit_eq]
  simp only [List.cons_append, List.nil_append]
  rw [readUnits, hexNumber?_escapeUnit h]
  cases readUnits cs <;> rfl

/-- A character that needs no escape stands for itself. -/
theorem readUnits_cons (hq : c ≠ '"') (hb : c ≠ '\\') (hc : ' ' ≤ c) (cs : Text) :
    readUnits (c :: cs) = (readUnits cs).map fun (ns, rest) => (c.toNat :: ns, rest) := by
  have hlt : ¬ c < ' ' := Char.not_lt.mpr hc
  rw [readUnits.eq_def]
  split
  · rename_i h
    exact absurd (List.cons.inj h).1 hq
  · rename_i h
    exact absurd (List.cons.inj h).1 hb
  · rename_i h
    exact absurd (List.cons.inj h).1 hb
  · rename_i h
    obtain ⟨rfl, rfl⟩ := List.cons.inj h
    rw [if_neg hlt]
    cases readUnits cs <;> rfl
  · rename_i h
    simp at h

/-- An escape of one letter stands for one character. -/
theorem readUnits_short {d : Char} (hu : d ≠ 'u') (hd : unescape? d = some c) (cs : Text) :
    readUnits ('\\' :: d :: cs) = (readUnits cs).map fun (ns, rest) => (c.toNat :: ns, rest) := by
  rw [readUnits.eq_def]
  split
  · rename_i h
    simp at h
  · rename_i h
    exact absurd (List.cons.inj (List.cons.inj h).2).1 hu
  · rename_i h
    obtain ⟨rfl, rfl⟩ := List.cons.inj (List.cons.inj h).2
    rw [hd]
    cases readUnits cs <;> rfl
  · rename_i hne h
    obtain ⟨rfl, rfl⟩ := List.cons.inj h
    exact (hne d cs rfl rfl).elim
  · rename_i h
    simp at h

/-- A message writes a character by an escape of one letter, by its code unit, or as
itself. -/
theorem escape_cases (c : Char) :
    (∃ d, d ≠ 'u' ∧ unescape? d = some c ∧ Text.escape c = ['\\', d]) ∨
      (c < ' ' ∧ Text.escape c = escapeUnit c.toNat) ∨
      (c ≠ '"' ∧ c ≠ '\\' ∧ ' ' ≤ c ∧ Text.escape c = [c]) := by
  unfold Text.escape
  split
  · exact .inl ⟨'"', by decide, by rw [‹c = _›]; rfl, rfl⟩
  split
  · exact .inl ⟨'\\', by decide, by rw [‹c = _›]; rfl, rfl⟩
  split
  · exact .inl ⟨'n', by decide, by rw [‹c = _›]; rfl, rfl⟩
  split
  · exact .inl ⟨'r', by decide, by rw [‹c = _›]; rfl, rfl⟩
  split
  · exact .inl ⟨'t', by decide, by rw [‹c = _›]; rfl, rfl⟩
  split
  · exact .inl ⟨'b', by decide, by rw [‹c = _›]; rfl, rfl⟩
  split
  · exact .inl ⟨'f', by decide, by rw [‹c = _›]; rfl, rfl⟩
  split
  · exact .inr (.inl ⟨‹_›, rfl⟩)
  · exact .inr (.inr ⟨‹_›, ‹_›, Char.not_lt.mp ‹_›, rfl⟩)

/-- What a message escapes is read back as one unit. -/
theorem readUnits_message (h : c.toNat < 0x10000) (cs : Text) :
    readUnits (Text.escape c ++ cs) =
      (readUnits cs).map fun (ns, rest) => (c.toNat :: ns, rest) := by
  rcases escape_cases c with ⟨d, hu, hd, he⟩ | ⟨-, he⟩ | ⟨hq, hb, hc, he⟩
  · rw [he]
    exact readUnits_short hu hd cs
  · rw [he]
    exact readUnits_escapeUnit h cs
  · rw [he]
    exact readUnits_cons hq hb hc cs

/-- **Each character is read back as its code units.** -/
theorem readUnits_escape (c : Char) (cs : Text) : readUnits (escape c ++ cs) =
    (readUnits cs).map fun (ns, rest) => (units c ++ ns, rest) := by
  have hc := toNat_cases c
  unfold escape units
  by_cases hascii : c.toNat < 0x7f
  · have hone : c.toNat < 0x10000 := by omega
    rw [if_pos hascii, if_pos hone]
    exact readUnits_message hone cs
  rw [if_neg hascii]
  by_cases hone : c.toNat < 0x10000
  · rw [if_pos hone, if_pos hone]
    exact readUnits_escapeUnit hone cs
  · rw [if_neg hone, if_neg hone, List.append_assoc, readUnits_escapeUnit (by omega),
      readUnits_escapeUnit (by omega), Option.map_map]
    rfl

theorem readUnits_flatMap_escape (rest : Text) : ∀ t : Text,
    readUnits (t.flatMap escape ++ '"' :: rest) = some (t.flatMap units, rest)
  | [] => by
    rw [List.flatMap_nil, List.nil_append, readUnits]
    rfl
  | c :: t => by
    rw [List.flatMap_cons, List.append_assoc, readUnits_escape, readUnits_flatMap_escape rest t]
    rfl

/-! ### From the units to the characters -/

theorem ofUnits?_cons (hhigh : isHighSurrogate n = false) (hlow : isLowSurrogate n = false) :
    ofUnits? (n :: ns) = (ofUnits? ns).map (Char.ofNat n :: ·) := by
  cases ns with
  | nil => simp [ofUnits?, hhigh, hlow]
  | cons m ns => simp [ofUnits?, hhigh, hlow]

theorem ofUnits?_pair {high low : Nat} (hhigh : isHighSurrogate high = true)
    (hlow : isLowSurrogate low = true) : ofUnits? (high :: low :: ns) =
      (ofUnits? ns).map (Char.ofNat (0x10000 + (high - 0xd800) * 0x400 + (low - 0xdc00)) :: ·) := by
  simp [ofUnits?, hhigh, hlow]

/-- **The code units of a character are read back as it.** -/
theorem ofUnits?_units (c : Char) (ns : List Nat) :
    ofUnits? (units c ++ ns) = (ofUnits? ns).map (c :: ·) := by
  have hc := toNat_cases c
  unfold units
  by_cases hone : c.toNat < 0x10000
  · have hhigh : isHighSurrogate c.toNat = false := by
      unfold isHighSurrogate
      simp
      omega
    have hlow : isLowSurrogate c.toNat = false := by
      unfold isLowSurrogate
      simp
      omega
    rw [if_pos hone, List.singleton_append, ofUnits?_cons hhigh hlow, Char.ofNat_toNat]
  · have hhigh : isHighSurrogate (0xd800 + (c.toNat - 0x10000) / 0x400) = true := by
      unfold isHighSurrogate
      simp
      omega
    have hlow : isLowSurrogate (0xdc00 + (c.toNat - 0x10000) % 0x400) = true := by
      unfold isLowSurrogate
      simp
      omega
    have hjoin : 0x10000 + (0xd800 + (c.toNat - 0x10000) / 0x400 - 0xd800) * 0x400
        + (0xdc00 + (c.toNat - 0x10000) % 0x400 - 0xdc00) = c.toNat := by omega
    rw [if_neg hone, List.cons_append, List.singleton_append, ofUnits?_pair hhigh hlow, hjoin,
      Char.ofNat_toNat]

theorem ofUnits?_flatMap_units : ∀ t : Text, ofUnits? (t.flatMap units) = some t
  | [] => rfl
  | c :: t => by
    rw [List.flatMap_cons, ofUnits?_units, ofUnits?_flatMap_units t]
    rfl

/-- **A string is read back from its quoted form**, whatever follows it. -/
theorem readString_quoted (t rest : Text) :
    readString (t.flatMap escape ++ '"' :: rest) = some (t, rest) := by
  unfold readString
  rw [readUnits_flatMap_escape]
  simp only [Option.bind_eq_bind, Option.bind_some, ofUnits?_flatMap_units]
  rfl

/-! ### Quoted strings are printed -/

theorem isVisible_escapeUnit (n : Nat) : ∀ c ∈ escapeUnit n, IsVisible c := by
  intro c hc
  unfold escapeUnit at hc
  rcases List.mem_cons.mp hc with rfl | hc
  · decide
  · rcases List.mem_cons.mp hc with rfl | hc
    · decide
    · exact Text.isVisible_padded (by omega) (by omega) c hc

theorem isVisible_message (h : c.toNat < 0x7f) : ∀ d ∈ Text.escape c, IsVisible d := by
  rcases escape_cases c with ⟨e, -, he, hc⟩ | ⟨-, hc⟩ | ⟨-, -, hlow, hc⟩
  · -- The letter of an escape is one that the reader knows.
    have hvisible : IsVisible e := by
      unfold unescape? at he
      split at he <;> first | decide | simp at he
    rw [hc]
    simp [hvisible, show IsVisible '\\' by decide]
  · rw [hc]
    exact isVisible_escapeUnit c.toNat
  · have hvisible : IsVisible c := by
      have h32 : 32 ≤ c.toNat := hlow
      exact Text.isVisible_iff.mpr (by omega)
    rw [hc]
    simp [hvisible]

/-- A quoted string has printable characters only, no line end among them. -/
theorem isVisible_quoted (t : Text) : ∀ c ∈ quoted t, IsVisible c := by
  have hescape : ∀ d, ∀ c ∈ escape d, IsVisible c := by
    intro d
    unfold escape
    split
    · exact isVisible_message ‹_›
    · split
      · exact isVisible_escapeUnit _
      · exact List.forall_mem_append.mpr ⟨isVisible_escapeUnit _, isVisible_escapeUnit _⟩
  intro c hc
  unfold quoted at hc
  rcases List.mem_cons.mp hc with rfl | hc
  · decide
  · rcases List.mem_append.mp hc with hc | hc
    · obtain ⟨d, -, hd⟩ := List.mem_flatMap.mp hc
      exact hescape d c hd
    · rw [List.mem_singleton.mp hc]
      decide

end Json
end ReverseDns
