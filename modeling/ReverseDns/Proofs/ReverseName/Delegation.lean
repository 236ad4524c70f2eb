/-
# Reverse names follow the delegation order

The bytes of an address are one number, the first byte the highest. Its octets and
its nibbles are the digits of that number in base 256 and in base 16
(`number_eq_ofDigits`), and a reverse name writes them down lowest first
(`labels_eq_map_range`). So the labels nearest the zone are the highest digits: two
names have as many of them in common as the addresses have digits in common in front
(`rtake_valueLabels_iff`), which is what delegating a zone of addresses with a common
prefix asks for.

Key definitions: `Bytes.number`, `ReverseName.digits`, `ReverseName.valueLabels`.
Key theorems: `Bytes.digits_eq_map_range`, `ReverseName.number_eq_ofDigits`,
`ReverseName.labels_eq_map_range`, `ReverseName.rtake_valueLabels_iff`,
`ReverseName.encode_delegates`.
-/
import ReverseDns.Proofs.ReverseName.RoundTrip
import Mathlib.Data.List.DropRight
import Mathlib.Data.Nat.Digits.Defs

namespace ReverseDns

/-! ### Bytes as one number -/

namespace Bytes

/-- The number that the bytes make, the first byte the highest. -/
def number (bs : List UInt8) : Nat := bs.foldl (fun n b => n * 256 + b.toNat) 0

theorem number_concat (bs : List UInt8) (b : UInt8) :
    number (bs ++ [b]) = number bs * 256 + b.toNat := by
  unfold number
  rw [List.foldl_append]
  rfl

theorem nibbles_concat (bs : List UInt8) (b : UInt8) :
    nibbles (bs ++ [b]) = nibbles bs ++ [b.toNat / 16, b.toNat % 16] := by
  unfold nibbles
  rw [List.flatMap_append]
  rfl

theorem number_eq_ofDigits_octets (bs : List UInt8) :
    number bs = Nat.ofDigits 256 (bs.map UInt8.toNat).reverse := by
  -- From the end: the last byte is the lowest digit.
  induction bs using List.reverseRecOn with
  | nil => rfl
  | append_singleton bs b ih =>
    have hdigits : ((bs ++ [b]).map UInt8.toNat).reverse =
        b.toNat :: (bs.map UInt8.toNat).reverse := by
      rw [List.map_append, List.reverse_append]
      rfl
    rw [number_concat, hdigits, Nat.ofDigits_cons, ← ih]
    omega

theorem number_eq_ofDigits_nibbles (bs : List UInt8) :
    number bs = Nat.ofDigits 16 (nibbles bs).reverse := by
  induction bs using List.reverseRecOn with
  | nil => rfl
  | append_singleton bs b ih =>
    have hdigits : (nibbles (bs ++ [b])).reverse =
        b.toNat % 16 :: b.toNat / 16 :: (nibbles bs).reverse := by
      rw [nibbles_concat, List.reverse_append]
      rfl
    rw [number_concat, hdigits, Nat.ofDigits_cons, Nat.ofDigits_cons, ← ih]
    omega

/-- Digits are told from their number by division, the lowest one first. -/
theorem digits_eq_map_range {base : Nat} {ds : List Nat} (hbase : 0 < base) (h : ∀ d ∈ ds, d < base) :
    ds = (List.range ds.length).map fun k => Nat.ofDigits base ds / base ^ k % base := by
  apply List.ext_getElem
  · simp
  · intro k hk _
    rw [List.getElem_map, List.getElem_range, Nat.ofDigits_div_pow_eq_ofDigits_drop k hbase ds h,
      List.drop_eq_getElem_cons hk, Nat.ofDigits_cons, Nat.add_mul_mod_self_left,
      Nat.mod_eq_of_lt (h _ (List.getElem_mem hk))]

end Bytes

namespace ReverseName

variable {f : Family} {bs bs' : List UInt8} {name name' : Text}

/-! ### The digits of an address -/

/-- What the labels stand for, highest first: the octets or the nibbles. -/
def digits : Family → List UInt8 → List Nat
  | .v4, bs => bs.map UInt8.toNat
  | .v6, bs => Bytes.nibbles bs

/-- The base of these digits. -/
def digitBase : Family → Nat
  | .v4 => 256
  | .v6 => 16

/-- The base in which each of them is written in its label. -/
def labelBase : Family → Nat
  | .v4 => 10
  | .v6 => 16

theorem digits_lt (f : Family) (bs : List UInt8) : ∀ d ∈ digits f bs, d < digitBase f := by
  cases f with
  | v4 =>
    intro d hd
    obtain ⟨b, -, rfl⟩ := List.mem_map.mp hd
    exact b.toNat_lt
  | v6 => exact Bytes.nibbles_lt bs

theorem length_digits (h : bs.length = f.size) : (digits f bs).length = f.labelCount := by
  cases f with
  | v4 => exact (List.length_map _).trans h
  | v6 => exact (Bytes.length_nibbles bs).trans (congrArg (2 * ·) h)

/-- In either base the digits make the same number. -/
theorem number_eq_ofDigits (f : Family) (bs : List UInt8) :
    Bytes.number bs = Nat.ofDigits (digitBase f) (digits f bs).reverse := by
  cases f with
  | v4 => exact Bytes.number_eq_ofDigits_octets bs
  | v6 => exact Bytes.number_eq_ofDigits_nibbles bs

/-! ### Digits and labels -/

theorem labels_eq_map_digits (f : Family) (bs : List UInt8) :
    labels f bs = (digits f bs).reverse.map (Nat.toDigits (labelBase f)) := by
  cases f with
  | v4 =>
    unfold labels digits
    rw [← List.map_reverse, List.map_map]
    rfl
  | v6 =>
    refine List.map_congr_left fun d hd => ?_
    exact (Nat.toDigits_of_lt_base (Bytes.nibbles_lt bs d (List.mem_reverse.mp hd))).symm

/-- **The labels are the digits of the number**, the lowest first. -/
theorem labels_eq_map_range (h : bs.length = f.size) : labels f bs =
    (List.range f.labelCount).map fun k =>
      Nat.toDigits (labelBase f) (Bytes.number bs / digitBase f ^ k % digitBase f) := by
  have hbase : 0 < digitBase f := by cases f <;> decide
  have hlt : ∀ d ∈ (digits f bs).reverse, d < digitBase f := fun d hd =>
    digits_lt f bs d (List.mem_reverse.mp hd)
  have hdigits := Bytes.digits_eq_map_range hbase hlt
  rw [List.length_reverse, length_digits h, ← number_eq_ofDigits f bs] at hdigits
  rw [labels_eq_map_digits, hdigits, List.map_map]
  rfl

theorem toDigits_labelBase_injective (f : Family) :
    Function.Injective (Nat.toDigits (labelBase f)) := by
  intro n m h
  cases f with
  | v4 =>
    have hnumber := congrArg (fun t => Nat.ofDigitChars 10 t 0) h
    simpa [labelBase] using hnumber
  | v6 =>
    have hnumber := congrArg Text.hexNumber? h
    simpa [labelBase, Grouped.hexNumber?_toDigits] using hnumber

theorem dot_not_mem_labels {l : Text} (h : l ∈ labels f bs) : '.' ∉ l := by
  cases f with
  | v4 =>
    obtain ⟨b, -, rfl⟩ := List.mem_map.mp h
    exact Octet.not_mem_text b (by decide)
  | v6 =>
    obtain ⟨n, hn, rfl⟩ := List.mem_map.mp h
    have hlt := Bytes.nibbles_lt bs n (List.mem_reverse.mp hn)
    exact fun hdot => Text.ne_digitChar (by decide) hlt (List.mem_singleton.mp hdot)

theorem length_labels (h : bs.length = f.size) : (labels f bs).length = f.labelCount := by
  rw [labels_eq_map_range h, List.length_map, List.length_range]

/-- The labels are what stands between the dots. -/
theorem splitOn_join_labels (h : bs.length = f.size) :
    (Text.join ['.'] (labels f bs)).splitOn '.' = labels f bs := by
  have hne : labels f bs ≠ [] := by
    apply List.ne_nil_of_length_pos
    rw [length_labels h]
    cases f <;> decide
  exact Text.splitOn_join (fun _ => dot_not_mem_labels) hne

/-! ### The labels of a name -/

/-- The labels before the zone of the family. -/
def valueLabels (f : Family) (name : Text) : List Text :=
  (name.take (name.length - f.suffix.length)).splitOn '.'

theorem encode_of_length (h : bs.length = f.size) :
    encode (some bs) = .ok (Text.join ['.'] (labels f bs) ++ f.suffix) :=
  encode_bytes ⟨f, bs, none, h, by simp⟩

/-- What is encoded is read back. -/
theorem decode_of_encode (h : encode (some bs) = .ok name) : decode name = .ok bs := by
  unfold encode at h
  split at h
  · rename_i a ha
    obtain ⟨rfl, -⟩ := Address.ofBytes?_eq_some_iff.mp (by simpa using ha)
    rw [← Except.ok.inj h]
    exact decode_ofAddress a
  · simp at h

theorem valueLabels_eq (h : bs.length = f.size) :
    valueLabels f (Text.join ['.'] (labels f bs) ++ f.suffix) = labels f bs := by
  unfold valueLabels
  rw [List.take_left' (by rw [List.length_append]; omega), splitOn_join_labels h]

/-- The labels nearest the zone are the digits in front, the first one nearest. -/
theorem rtake_labels (f : Family) (bs : List UInt8) (k : Nat) : (labels f bs).rtake k =
    (((digits f bs).take k).map (Nat.toDigits (labelBase f))).reverse := by
  rw [labels_eq_map_digits, List.rtake_eq_reverse_take_reverse, ← List.map_reverse,
    List.reverse_reverse, List.map_take]

/-- **Names agree near the zone as far as addresses agree in front.** -/
theorem rtake_valueLabels_iff (h : bs.length = f.size) (h' : bs'.length = f.size)
    (hname : encode (some bs) = .ok name) (hname' : encode (some bs') = .ok name') (k : Nat) :
    (valueLabels f name).rtake k = (valueLabels f name').rtake k ↔
      (digits f bs).take k = (digits f bs').take k := by
  rw [encode_of_length h] at hname
  rw [encode_of_length h'] at hname'
  rw [← Except.ok.inj hname, ← Except.ok.inj hname', valueLabels_eq h, valueLabels_eq h',
    rtake_labels, rtake_labels, List.reverse_inj]
  exact (List.map_injective_iff.mpr (toDigits_labelBase_injective f)).eq_iff

/-- **Encoding realises the delegation order.** The labels of the name of sixteen bytes
are the 32 digits in base 16 of the number that the bytes make, and those of four bytes
its four digits in base 256, in decimal; both lowest first and before the zone of the
family. So two names of the same family have their last `k` labels before the zone in
common exactly if the addresses have their first `k` nibbles or octets in common, and
the names of different addresses are different. -/
theorem encode_delegates :
    (∀ bs : List UInt8, bs.length = 16 → ∃ name, encode (some bs) = .ok name ∧
      name = Text.join ['.'] ((List.range 32).map fun k =>
        Nat.toDigits 16 (Bytes.number bs / 16 ^ k % 16)) ++ ".ip6.arpa".toList ∧
      name.length = 72) ∧
    (∀ bs : List UInt8, bs.length = 4 → ∃ name, encode (some bs) = .ok name ∧
      name = Text.join ['.'] ((List.range 4).map fun k =>
        Nat.toDigits 10 (Bytes.number bs / 256 ^ k % 256)) ++ ".in-addr.arpa".toList) ∧
    ∀ (bs bs' : List UInt8) (name name' : Text),
      encode (some bs) = .ok name → encode (some bs') = .ok name' →
      (bs.length = 16 → bs'.length = 16 → ∀ k,
        (valueLabels .v6 name).rtake k = (valueLabels .v6 name').rtake k ↔
          (Bytes.nibbles bs).take k = (Bytes.nibbles bs').take k) ∧
      (bs.length = 4 → bs'.length = 4 → ∀ k,
        (valueLabels .v4 name).rtake k = (valueLabels .v4 name').rtake k ↔
          bs.take k = bs'.take k) ∧
      (bs ≠ bs' → name ≠ name') := by
  refine ⟨fun bs h => ?_, fun bs h => ?_, fun bs bs' name name' hname hname' => ⟨?_, ?_, ?_⟩⟩
  · refine ⟨_, encode_of_length (f := .v6) h, ?_, ?_⟩
    · rw [labels_eq_map_range h]
      rfl
    · rw [List.length_append, (spelling_labels (f := .v6) h).length]
      rfl
  · refine ⟨_, encode_of_length (f := .v4) h, ?_⟩
    rw [labels_eq_map_range h]
    rfl
  · exact fun h h' k => rtake_valueLabels_iff (f := .v6) h h' hname hname' k
  · intro h h' k
    have htoNat : Function.Injective (List.map UInt8.toNat) :=
      List.map_injective_iff.mpr fun _ _ => UInt8.toNat_inj.mp
    have hdigits := rtake_valueLabels_iff (f := .v4) h h' hname hname' k
    simp only [digits, ← List.map_take, htoNat.eq_iff] at hdigits
    exact hdigits
  · rintro hne rfl
    have hread := decode_of_encode hname
    rw [decode_of_encode hname'] at hread
    exact hne (Except.ok.inj hread).symm

/-- Two addresses that have 28 nibbles in common, and two that have no octet in common in
front. -/
theorem encode_delegates_networks :
    let bs : List UInt8 := [0x20, 1, 0x0d, 0xb8] ++ List.replicate 10 0 ++ [0xab, 0x12]
    let bs' : List UInt8 := [0x20, 1, 0x0d, 0xb8] ++ List.replicate 10 0 ++ [0xcd, 0x12]
    (∃ name name', encode (some bs) = .ok name ∧ encode (some bs') = .ok name' ∧
      name.length = 72 ∧ name ≠ name' ∧
      (valueLabels .v6 name).rtake 28 = (valueLabels .v6 name').rtake 28 ∧
      (valueLabels .v6 name).rtake 29 ≠ (valueLabels .v6 name').rtake 29) ∧
    encode (some [127, 0, 0, 1]) = .ok "1.0.0.127.in-addr.arpa".toList ∧
    (valueLabels .v4 "1.0.0.127.in-addr.arpa".toList).rtake 1 ≠
      (valueLabels .v4 "1.0.0.10.in-addr.arpa".toList).rtake 1 := by
  intro bs bs'
  obtain ⟨hwide, hnarrow, hagree⟩ := encode_delegates
  obtain ⟨name, hname, -, hl⟩ := hwide bs rfl
  obtain ⟨name', hname', -, -⟩ := hwide bs' rfl
  obtain ⟨hnibbles, -, hdistinct⟩ := hagree bs bs' name name' hname hname'
  obtain ⟨loopback, hloopback, htext⟩ := hnarrow [127, 0, 0, 1] rfl
  obtain ⟨-, hoctets, -⟩ := hagree [127, 0, 0, 1] [10, 0, 0, 1] _ _ rfl rfl
  refine ⟨⟨name, name', hname, hname', hl, hdistinct (by decide), ?_, ?_⟩, ?_, ?_⟩
  · exact (hnibbles rfl rfl 28).mpr (by decide)
  · exact fun h => absurd ((hnibbles rfl rfl 29).mp h) (by decide)
  · exact hloopback.trans (congrArg Except.ok (htext.trans (by decide +kernel)))
  · exact fun h => absurd ((hoctets rfl rfl 1).mp h) (by decide)

end ReverseName
end ReverseDns
