/-
# Bytes as messages show them

Four and sixteen bytes are shown as the address that they make, and any other
bytes in hexadecimal after a question mark. Hexadecimal is read back
(`Bytes.ofHex?_hex`), and so is the text of an address; nothing that begins with a
question mark is an address, so the two forms never meet and no two byte strings
are shown alike (`Bytes.shown_inj`). The error of bytes that have no reverse name
quotes them as they are shown, so it tells them apart
(`ReverseName.shown_identifies`).

Key definitions: `Bytes.IsAddress`.
Key theorems: `Bytes.ofHex?_hex`, `Bytes.shown_inj`, `Bytes.isText_shown_iff`,
`ReverseName.encode_eq_error_iff`, `ReverseName.shown_identifies`.
-/
import ReverseDns.Proofs.Address.Canonical
import ReverseDns.Proofs.ReverseName.RoundTrip
import ReverseDns.Proofs.Text.Quoted

namespace ReverseDns
namespace Bytes

variable {bs bs' : List UInt8}

/-- As many bytes as an address of either family has. -/
def IsAddress (bs : List UInt8) : Prop := bs.length = 4 ∨ bs.length = 16

/-! ### Hexadecimal -/

theorem hex_cons (b : UInt8) (bs : List UInt8) : hex (b :: bs) =
    Nat.digitChar (b.toNat / 16) :: Nat.digitChar (b.toNat % 16) :: hex bs := by
  have hb := b.toNat_lt
  have hhigh : b.toNat / 16 % 16 = b.toNat / 16 := Nat.mod_eq_of_lt (by omega)
  have hfield : Text.padded 16 2 b.toNat =
      [Nat.digitChar (b.toNat / 16 % 16), Nat.digitChar (b.toNat % 16)] := rfl
  unfold hex
  rw [List.flatMap_cons, hfield, hhigh]
  rfl

/-- **Bytes are read back from their hexadecimal text.** -/
theorem ofHex?_hex : ∀ bs : List UInt8, ofHex? (hex bs) = some bs
  | [] => rfl
  | b :: bs => by
    have hb := b.toNat_lt
    have hhigh := Text.hexDigit?_digitChar (b.toNat / 16) (by omega)
    have hlow := Text.hexDigit?_digitChar (b.toNat % 16) (by omega)
    have hwhole : b.toNat / 16 * 16 + b.toNat % 16 = b.toNat := by omega
    rw [hex_cons, ofHex?, hhigh, hlow, ofHex?_hex bs]
    simp only [bind, Option.bind, pure, hwhole, UInt8.ofNat_toNat]

theorem hex_inj (h : hex bs = hex bs') : bs = bs' := by
  have hread := ofHex?_hex bs
  rw [h, ofHex?_hex bs'] at hread
  exact (Option.some.inj hread).symm

theorem colon_not_mem_hex (bs : List UInt8) : ':' ∉ hex bs := by
  intro h
  obtain ⟨b, -, hc⟩ := List.mem_flatMap.mp h
  obtain ⟨d, hd, hc⟩ := Text.mem_padded (by decide) hc
  exact Text.ne_digitChar (by decide) hd hc

/-! ### The two forms -/

/-- Four or sixteen bytes are shown as their address. -/
theorem exists_shown_eq_text (h : IsAddress bs) :
    ∃ a : Address, a.bytes = bs ∧ a.scope = none ∧ shown (some bs) = a.text := by
  obtain ⟨a, ha, hs⟩ := Address.exists_of_length h
  have hof : Address.ofBytes? bs = some a := Address.ofBytes?_eq_some_iff.mpr ⟨ha, hs⟩
  refine ⟨a, ha, hs, ?_⟩
  cases bs with
  | nil => exact absurd h (by simp [IsAddress])
  | cons b bs =>
    unfold shown
    simp only [hof]

theorem ofBytes?_eq_none (h : ¬ IsAddress bs) : Address.ofBytes? bs = none := by
  cases hof : Address.ofBytes? bs with
  | none => rfl
  | some a =>
    obtain ⟨rfl, -⟩ := Address.ofBytes?_eq_some_iff.mp hof
    refine absurd ?_ h
    unfold IsAddress
    rw [a.length_bytes]
    cases a.family <;> decide

/-- Other bytes are shown in hexadecimal. -/
theorem shown_eq_hex (hne : bs ≠ []) (h : ¬ IsAddress bs) : shown (some bs) = '?' :: hex bs := by
  have hof := ofBytes?_eq_none h
  cases bs with
  | nil => exact absurd rfl hne
  | cons b bs =>
    unfold shown
    simp only [hof]

/-- Nothing that begins with a question mark and has no colon is an address. -/
theorem read?_question {t : Text} (h : ':' ∉ t) : Address.read? ('?' :: t) = none := by
  have hdotted : Dotted.read? ('?' :: t) = none :=
    Dotted.read?_eq_none List.mem_cons_self (by decide) (by decide)
  have hcolon : ':' ∉ '?' :: t := by
    rw [List.mem_cons, not_or]
    exact ⟨by decide, h⟩
  exact Address.read?_eq_none hdotted hcolon

/-- **What is shown is an address if the bytes make one.** -/
theorem isText_shown_iff : Address.isText (shown (some bs)) = true ↔ IsAddress bs := by
  by_cases h : IsAddress bs
  · obtain ⟨a, -, -, hshown⟩ := exists_shown_eq_text h
    refine iff_of_true ?_ h
    rw [hshown, Address.isText, Address.read?_text]
    rfl
  · refine iff_of_false ?_ h
    by_cases hne : bs = []
    · subst hne
      decide
    · rw [shown_eq_hex hne h, Address.isText, read?_question (colon_not_mem_hex bs)]
      decide

/-- What is shown of four or sixteen bytes is read as them. -/
theorem exists_ofText_shown (h : IsAddress bs) :
    ∃ a, Address.ofText (shown (some bs)) = .ok a ∧ a.bytes = bs ∧ a.scope = none := by
  obtain ⟨a, ha, hs, hshown⟩ := exists_shown_eq_text h
  exact ⟨a, by rw [hshown, Address.ofText_text], ha, hs⟩

/-- **No two byte strings are shown alike**, but for the empty one, which is shown as
if it were absent. -/
theorem shown_inj (hne : bs ≠ []) (hne' : bs' ≠ []) (h : shown (some bs) = shown (some bs')) :
    bs = bs' := by
  -- Both are shown as addresses or both in hexadecimal, since only one of the forms is read.
  have hsame : IsAddress bs ↔ IsAddress bs' := by
    rw [← isText_shown_iff, h, isText_shown_iff]
  by_cases ha : IsAddress bs
  · obtain ⟨a, hread, rfl, -⟩ := exists_ofText_shown ha
    obtain ⟨a', hread', rfl, -⟩ := exists_ofText_shown (hsame.mp ha)
    rw [h, hread'] at hread
    rw [Except.ok.inj hread]
  · rw [shown_eq_hex hne ha, shown_eq_hex hne' (hsame.not.mp ha)] at h
    exact hex_inj (List.cons.inj h).2

end Bytes

namespace ReverseName

variable {given : Option (List UInt8)} {bs bs' : List UInt8} {e e' : Error}

/-- Bytes have no reverse name if they are absent or make no address. -/
theorem encode_eq_error_iff : encode given = .error e ↔
    (∀ bs ∈ given, ¬ Bytes.IsAddress bs) ∧ e = .malformed Subject.address (Bytes.shown given) := by
  unfold encode
  cases given with
  | none => simp [eq_comm]
  | some bs =>
    rw [Option.bind_some]
    by_cases h : Bytes.IsAddress bs
    · obtain ⟨a, ha, hs⟩ := Address.exists_of_length h
      rw [Address.ofBytes?_eq_some_iff.mpr ⟨ha, hs⟩]
      simp [h]
    · rw [Bytes.ofBytes?_eq_none h]
      simp [h, eq_comm]

theorem message_of_encode (h : encode given = .error e) :
    e.message = "bad ip address ".toList ++ Text.quote (Bytes.shown given) := by
  rw [(encode_eq_error_iff.mp h).2]
  rfl

/-- The message of bytes without a reverse name tells them from all others. -/
theorem eq_of_message_eq (hne : bs ≠ []) (hne' : bs' ≠ []) (h : encode (some bs) = .error e)
    (h' : encode (some bs') = .error e') (hmessage : e.message = e'.message) : bs = bs' := by
  rw [message_of_encode h, message_of_encode h'] at hmessage
  have hquote := List.append_cancel_left hmessage
  rw [← List.append_nil (Text.quote _), ← List.append_nil (Text.quote (Bytes.shown (some bs')))]
    at hquote
  exact Bytes.shown_inj hne hne' (Text.quote_append_inj.mp hquote).1

/-- **What is shown of bytes identifies them.** No two byte strings that are not empty
are shown alike; what is shown is an address exactly if there are four bytes or
sixteen, and is then read as them. All other bytes, and absent ones, are refused a
reverse name with an error that has no cause and a message that is different for
different bytes. -/
theorem shown_identifies :
    (∀ bs bs' : List UInt8, bs ≠ [] → bs' ≠ [] →
      Bytes.shown (some bs) = Bytes.shown (some bs') → bs = bs') ∧
    (∀ bs, Address.isText (Bytes.shown (some bs)) = true ↔ bs.length = 4 ∨ bs.length = 16) ∧
    (∀ bs : List UInt8, bs.length = 4 ∨ bs.length = 16 →
      ∃ a, Address.ofText (Bytes.shown (some bs)) = .ok a ∧ a.bytes = bs) ∧
    (∀ given e, encode given = .error e ↔
      (given = none ∨ ∃ bs, given = some bs ∧ ¬ (bs.length = 4 ∨ bs.length = 16)) ∧
        e = .malformed Subject.address (Bytes.shown given)) ∧
    (∀ given e, encode given = .error e → e.cause? = none ∧
      e.message = "bad ip address ".toList ++ Text.quote (Bytes.shown given)) ∧
    ∀ bs bs' e e', bs ≠ [] → bs' ≠ [] → bs ≠ bs' → encode (some bs) = .error e →
      encode (some bs') = .error e' → e.message ≠ e'.message := by
  refine ⟨fun _ _ => Bytes.shown_inj, fun _ => Bytes.isText_shown_iff, fun bs h => ?_,
    fun given e => ?_, fun given e h => ⟨?_, message_of_encode h⟩,
    fun _ _ _ _ hne hne' hdiff h h' hmessage => hdiff (eq_of_message_eq hne hne' h h' hmessage)⟩
  · obtain ⟨a, hread, ha, -⟩ := Bytes.exists_ofText_shown h
    exact ⟨a, hread, ha⟩
  · rw [encode_eq_error_iff]
    cases given <;> simp [Bytes.IsAddress]
  · rw [(encode_eq_error_iff.mp h).2]
    rfl

/-- An address of sixteen bytes with a dotted spelling, and five and six bytes, which
are no address. -/
theorem shown_identifies_five_bytes :
    let mapped : List UInt8 := [0, 0, 0, 0, 0, 0, 0, 0, 0, 0, 255, 255, 1, 2, 3, 4]
    let five : List UInt8 := [1, 2, 3, 4, 5]
    let six : List UInt8 := [1, 2, 3, 4, 5, 0]
    (mapped.length = 16 ∧ ∃ a, Address.ofText (Bytes.shown (some mapped)) = .ok a ∧
      a.bytes = mapped) ∧
    (five ≠ [] ∧ Bytes.shown (some five) = Bytes.shown (some ([1, 2] ++ [3, 4, 5])) ∧
      five = [1, 2] ++ [3, 4, 5]) ∧
    (six ≠ [] ∧ five ≠ six ∧ ∃ e e', encode (some five) = .error e ∧
      encode (some six) = .error e' ∧ e.cause? = none ∧ e.message ≠ e'.message) := by
  intro mapped five six
  obtain ⟨hinj, -, hread, -, hplain, hdiffer⟩ := shown_identifies
  have hfive : encode (some five) = .error (.malformed Subject.address (Bytes.shown (some five))) :=
    by decide +kernel
  have hsix : encode (some six) = .error (.malformed Subject.address (Bytes.shown (some six))) :=
    by decide +kernel
  have hsame : Bytes.shown (some five) = Bytes.shown (some ([1, 2] ++ [3, 4, 5])) := rfl
  exact ⟨⟨rfl, hread mapped (.inr rfl)⟩, ⟨by decide, hsame, hinj _ _ (by decide) (by decide) hsame⟩,
    by decide, by decide, _, _, hfive, hsix, (hplain _ _ hfive).1,
    hdiffer _ _ _ _ (by decide) (by decide) (by decide) hfive hsix⟩

end ReverseName
end ReverseDns
