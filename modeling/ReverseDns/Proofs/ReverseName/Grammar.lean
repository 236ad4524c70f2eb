/-
# The grammar of reverse names

A reverse name is a value, a zone and perhaps a final dot. `Spelling` says what
values are: four decimal numbers with dots between them before `in-addr.arpa`,
32 hexadecimal digits with dots between them before `ip6.arpa`, in both cases
the last one first. `IsNameOf` puts value, zone and dot together. Reading a name
accepts exactly this grammar and gives the bytes that the value spells
(`accepts_iff`). In lower case and without the dot, a name is written as
`ofAddress` writes it (`EndsIn.map_toLower`).

Key definitions: `ReverseName.Spelling`, `ReverseName.IsNameOf`.
Key theorems: `ReverseName.decodeName_eq_ok_iff`, `ReverseName.EndsIn.map_toLower`,
`ReverseName.accepts_iff`.
-/
import ReverseDns.Proofs.Label
import ReverseDns.Proofs.Octet
import ReverseDns.Proofs.ReverseName.Zone
import ReverseDns.ReverseName.Decode
import Mathlib.Data.List.Forall2

namespace ReverseDns
namespace ReverseName

/-- A character is the hexadecimal digit of a number, in either case. -/
def IsHexDigit (d : Char) (n : Nat) : Prop := n < 16 ∧ d.toLower = Nat.digitChar n

theorem nibble?_singleton {d : Char} {n : Nat} : nibble? [d] = some n ↔ IsHexDigit d n :=
  Text.hexDigit?_eq_some_iff

/-- What may stand before a zone, and the bytes that it spells. -/
inductive Spelling : Family → Text → List UInt8 → Prop
  /-- Four decimal numbers, the last octet first. -/
  | octets {ts : List Text} {bs : List UInt8} (size : bs.length = 4)
      (each : List.Forall₂ Octet.IsDecimal ts bs.reverse) :
      Spelling .v4 (Text.join ['.'] ts) bs
  /-- 32 hexadecimal digits, the low nibble of the last byte first. -/
  | nibbles {ds : List Char} {bs : List UInt8} (size : bs.length = 16)
      (each : List.Forall₂ IsHexDigit ds (Bytes.nibbles bs).reverse) :
      Spelling .v6 (Text.join ['.'] (ds.map fun d => [d])) bs

/-- The name is a value that spells the bytes, the zone of their family in any
letter case, and at most one dot. -/
def IsNameOf (name : Text) (bs : List UInt8) : Prop :=
  ∃ family value zone dot, name = value ++ zone ++ dot ∧
    zone.map Char.toLower = Family.suffix family ∧ (dot = [] ∨ dot = ['.']) ∧
    Spelling family value bs

variable {f : Family} {m v name : Text} {bs : List UInt8}

theorem Spelling.size (h : Spelling f v bs) : bs.length = f.size := by
  cases h with
  | octets size _ => exact size
  | nibbles size _ => exact size

/-! ### Values that spell bytes -/

theorem eq_map_text : ∀ {ts : List Text} {bs : List UInt8},
    List.Forall₂ Octet.IsDecimal ts bs → ts = bs.map Octet.text
  | _, _, .nil => rfl
  | _, _, .cons h hs => by rw [List.map_cons, ← Octet.isDecimal_iff.mp h, ← eq_map_text hs]

theorem forall₂_isDecimal_text : ∀ bs : List UInt8,
    List.Forall₂ Octet.IsDecimal (bs.map Octet.text) bs
  | [] => .nil
  | b :: bs => .cons (Octet.isDecimal_text b) (forall₂_isDecimal_text bs)

theorem map_toLower_of_forall₂ : ∀ {ds : List Char} {ns : List Nat},
    List.Forall₂ IsHexDigit ds ns → ds.map Char.toLower = ns.map Nat.digitChar
  | _, _, .nil => rfl
  | _, _, .cons h hs => by
    rw [List.map_cons, List.map_cons, h.2, map_toLower_of_forall₂ hs]

theorem forall₂_digitChar : ∀ {ns : List Nat}, (∀ n ∈ ns, n < 16) →
    List.Forall₂ IsHexDigit (ns.map Nat.digitChar) ns
  | [], _ => .nil
  | n :: _, h => .cons (nibble?_singleton.mp (Text.hexDigit?_digitChar n (h n (by simp))))
      (forall₂_digitChar fun k hk => h k (List.mem_cons_of_mem n hk))

theorem map_toLower_text (b : UInt8) : (Octet.text b).map Char.toLower = Octet.text b :=
  Text.map_toLower_eq_self fun c hc => Text.toLower_of_isDigit (Octet.digits_text b c hc)

/-- In lower case a value is written as the encoder writes it. -/
theorem Spelling.map_toLower (h : Spelling f v bs) :
    v.map Char.toLower = Text.join ['.'] (labels f bs) := by
  have hdot : ['.'].map Char.toLower = ['.'] := by decide
  cases h with
  | octets size each =>
    rw [eq_map_text each, Text.map_join, hdot, List.map_map]
    have ht : List.map Char.toLower ∘ Octet.text = Octet.text := funext map_toLower_text
    rw [ht]
    rfl
  | @nibbles ds _ size each =>
    have hd : (ds.map fun d => [d]).map (List.map Char.toLower) =
        (ds.map Char.toLower).map fun d => [d] := by
      rw [List.map_map, List.map_map]
      rfl
    rw [Text.map_join, hdot, hd, map_toLower_of_forall₂ each, List.map_map]
    rfl

/-- What the encoder writes before the zone spells the bytes. -/
theorem spelling_labels (h : bs.length = f.size) : Spelling f (Text.join ['.'] (labels f bs)) bs := by
  cases f with
  | v4 => exact .octets h (forall₂_isDecimal_text bs.reverse)
  | v6 =>
    have hlt : ∀ n ∈ (Bytes.nibbles bs).reverse, n < 16 := fun n hn =>
      Bytes.nibbles_lt bs n (List.mem_reverse.mp hn)
    have hs := Spelling.nibbles h (forall₂_digitChar hlt)
    rw [List.map_map] at hs
    exact hs

/-- A name that ends in a zone after a value is, in lower case, what the encoder
writes of the bytes. -/
theorem EndsIn.map_toLower (hm : EndsIn f m v) (hv : Spelling f v bs) :
    m.map Char.toLower = Text.join ['.'] (labels f bs) ++ f.suffix := by
  obtain ⟨zone, rfl, hz⟩ := hm
  rw [List.map_append, hv.map_toLower, hz]

/-! ### The labels of a value -/

/-- A hexadecimal digit is a letter or digit. -/
theorem IsHexDigit.isOuter {d : Char} {n : Nat} (h : IsHexDigit d n) : Label.isOuter d = true :=
  Text.forall_ascii (P := fun d => ∀ n ∈ Text.hexDigit? d, Label.isOuter d = true) (by decide)
    (Text.toNat_lt_of_hexDigit? (nibble?_singleton.mpr h)) n (nibble?_singleton.mpr h)

theorem exists_of_forall₂ : ∀ {ds : List Char} {ns : List Nat}, List.Forall₂ IsHexDigit ds ns →
    ∀ d ∈ ds, ∃ n, IsHexDigit d n
  | _, _, .nil, d, hd => by simp at hd
  | _, _, .cons (b := n) h hs, d, hd => by
    rcases List.mem_cons.mp hd with rfl | hd
    · exact ⟨n, h⟩
    · exact exists_of_forall₂ hs d hd

theorem length_of_forall₂ {ds : List Char} (size : bs.length = 16)
    (each : List.Forall₂ IsHexDigit ds (Bytes.nibbles bs).reverse) : ds.length = 32 := by
  rw [each.length_eq, List.length_reverse, Bytes.length_nibbles, size]

theorem splitOn_octets {ts : List Text} (size : bs.length = 4)
    (each : List.Forall₂ Octet.IsDecimal ts bs.reverse) :
    (Text.join ['.'] ts).splitOn '.' = bs.reverse.map Octet.text := by
  have hne : bs.reverse ≠ [] := by
    intro h
    rw [List.reverse_eq_nil_iff.mp h] at size
    simp at size
  rw [eq_map_text each, Octet.splitOn_join_text hne]

theorem splitOn_nibbles {ds : List Char} (size : bs.length = 16)
    (each : List.Forall₂ IsHexDigit ds (Bytes.nibbles bs).reverse) :
    (Text.join ['.'] (ds.map fun d => [d])).splitOn '.' = ds.map fun d => [d] := by
  have hl := length_of_forall₂ size each
  apply Text.splitOn_join
  · intro w hw hdot
    obtain ⟨d, hd, rfl⟩ := List.mem_map.mp hw
    obtain ⟨n, hn⟩ := exists_of_forall₂ each d hd
    have hout := hn.isOuter
    rw [← List.mem_singleton.mp hdot] at hout
    exact absurd hout (by decide)
  · intro h
    rw [List.map_eq_nil_iff.mp h] at hl
    simp at hl

theorem check_text (b : UInt8) : Label.check (Octet.text b) = .ok () := by
  have hl := Nat.le_trans (Octet.length_text_le b) (show 3 ≤ Label.maxLength by decide)
  refine Label.check_eq_ok_of_isOuter (Octet.text_ne_nil b) hl fun c hc => ?_
  simp [Label.isOuter, Char.isAlphanum, Octet.digits_text b c hc]

theorem IsHexDigit.check {d : Char} {n : Nat} (h : IsHexDigit d n) : Label.check [d] = .ok () := by
  refine Label.check_eq_ok_of_isOuter (by simp) (by simp [Label.maxLength]) fun c hc => ?_
  rw [List.mem_singleton.mp hc]
  exact h.isOuter

/-- The labels of a value that spells bytes are labels indeed. -/
theorem Spelling.check (h : Spelling f v bs) : ∀ t ∈ v.splitOn '.', Label.check t = .ok () := by
  intro t ht
  cases h with
  | octets size each =>
    rw [splitOn_octets size each] at ht
    obtain ⟨b, -, rfl⟩ := List.mem_map.mp ht
    exact check_text b
  | nibbles size each =>
    rw [splitOn_nibbles size each] at ht
    obtain ⟨d, hd, rfl⟩ := List.mem_map.mp ht
    obtain ⟨n, hn⟩ := exists_of_forall₂ each d hd
    exact hn.check

/-! ### Reading a value -/

theorem decodeOctets_eq_ok_iff : decodeOctets v = .ok bs ↔ Spelling .v4 v bs := by
  refine ⟨fun h => ?_, fun h => ?_⟩
  · unfold decodeOctets at h
    split at h
    · simp at h
    · split at h
      · rename_i a b c d hm
        have hts : v.splitOn '.' = [a, b, c, d].map Octet.text := Octet.map_read?_eq_iff.mp hm
        rw [← Except.ok.inj h, ← Text.join_splitOn '.' v, hts]
        exact .octets rfl (forall₂_isDecimal_text [a, b, c, d])
      · simp at h
  · have hcheck := Label.findSome?_fault?_eq_none_iff.mpr h.check
    cases h with
    | octets size each =>
      have hread := Octet.map_read?_eq_iff.mpr (rfl : bs.reverse.map Octet.text = _)
      rw [splitOn_octets size each] at hcheck
      unfold decodeOctets
      rw [splitOn_octets size each, hcheck, hread]
      match bs, size with
      | [d, c, b, a], _ => rfl

theorem filterMap_nibble? : ∀ {ds : List Char} {ns : List Nat}, List.Forall₂ IsHexDigit ds ns →
    (ds.map fun d => [d]).filterMap nibble? = ns
  | _, _, .nil => rfl
  | d :: _, n :: _, .cons h hs => by
    rw [List.map_cons, List.filterMap_cons_some (nibble?_singleton.mpr h),
      filterMap_nibble? hs]

/-- No label is found that is no digit: the labels are digits. -/
theorem find?_nibble?_eq_none_iff : ∀ {ls : List Text},
    (ls.find? fun l => (nibble? l).isNone) = none ↔
      ∃ ds ns, ls = (ds.map fun d => [d]) ∧ List.Forall₂ IsHexDigit ds ns
  | [] => ⟨fun _ => ⟨[], [], rfl, .nil⟩, fun _ => rfl⟩
  | l :: ls => by
    have ih := @find?_nibble?_eq_none_iff ls
    refine ⟨fun h => ?_, fun h => ?_⟩
    · rw [List.find?_cons] at h
      split at h
      · simp at h
      · rename_i hl
        obtain ⟨ds, ns, hds, hs⟩ := ih.mp h
        obtain ⟨n, hn⟩ := Option.isSome_iff_exists.mp (Option.isNone_eq_false_iff.mp hl)
        match l, hn with
        | [d], hn =>
          exact ⟨d :: ds, n :: ns, by rw [List.map_cons, ← hds], .cons (nibble?_singleton.mp hn) hs⟩
    · obtain ⟨ds, ns, hds, hs⟩ := h
      cases hs with
      | nil => simp at hds
      | @cons d n ds ns hd hs =>
        rw [List.map_cons, List.cons.injEq] at hds
        have hl : nibble? l = some n := by rw [hds.1]; exact nibble?_singleton.mpr hd
        rw [List.find?_cons, hl]
        exact ih.mpr ⟨ds, ns, hds.2, hs⟩

theorem lt_of_forall₂ : ∀ {ds : List Char} {ns : List Nat}, List.Forall₂ IsHexDigit ds ns →
    ∀ n ∈ ns, n < 16
  | _, _, .nil, n, hn => by simp at hn
  | _, _, .cons h hs, n, hn => by
    rcases List.mem_cons.mp hn with rfl | hn
    · exact h.1
    · exact lt_of_forall₂ hs n hn

/-- 32 digits, last one first, are the nibbles of the bytes that they make. -/
theorem forall₂_nibbles_ofNibbles {ds : List Char} {ns : List Nat} (h : List.Forall₂ IsHexDigit ds ns)
    (hl : ds.length = 32) : (Bytes.ofNibbles ns.reverse).length = 16 ∧
      List.Forall₂ IsHexDigit ds (Bytes.nibbles (Bytes.ofNibbles ns.reverse)).reverse := by
  have hlt : ∀ n ∈ ns.reverse, n < 16 := fun n hn => lt_of_forall₂ h n (List.mem_reverse.mp hn)
  have hlen : ns.reverse.length = 2 * 16 := by rw [List.length_reverse, ← h.length_eq, hl]
  obtain ⟨hnib, hsize⟩ := Bytes.nibbles_ofNibbles hlen hlt
  rw [hnib, List.reverse_reverse]
  exact ⟨hsize, h⟩

theorem Spelling.length (h : Spelling .v6 v bs) : v.length = 63 := by
  cases h with
  | @nibbles ds _ size each =>
    have hl := length_of_forall₂ size each
    rw [Text.length_join_singletons '.' ds (by rintro rfl; simp at hl), hl]

/-- The length of the whole name is right for every value that spells bytes. -/
theorem decodeNibbles_eq_ok_iff {n : Nat} (hn : n = v.length + (Family.suffix .v6).length) :
    decodeNibbles n v = .ok bs ↔ Spelling .v6 v bs := by
  refine ⟨fun h => ?_, fun h => ?_⟩
  · unfold decodeNibbles at h
    simp only at h
    split at h
    · simp at h
    · split_ifs at h with hlen hcount
      split at h
      · simp at h
      · rename_i hfind
        obtain ⟨ds, ns, hds, hs⟩ := find?_nibble?_eq_none_iff.mp hfind
        rw [hds, List.length_map] at hcount
        rw [hds, filterMap_nibble? hs] at h
        obtain ⟨hsize, heach⟩ := forall₂_nibbles_ofNibbles hs (Classical.not_not.mp hcount)
        rw [Except.ok.inj h] at hsize heach
        rw [← Text.join_splitOn '.' v, hds]
        exact .nibbles hsize heach
  · have hcheck := Label.findSome?_fault?_eq_none_iff.mpr h.check
    have hlen : ¬ n ≠ wideLength := by
      rw [hn, h.length]
      decide
    cases h with
    | @nibbles ds _ size each =>
      have hl := length_of_forall₂ size each
      have hsplit := splitOn_nibbles size each
      have hcount : ¬ (ds.map fun d => [d]).length ≠ Family.labelCount .v6 := by
        simp [hl, Family.labelCount]
      rw [hsplit] at hcheck
      unfold decodeNibbles
      simp only [hsplit, hcheck, if_neg hlen, if_neg hcount,
        find?_nibble?_eq_none_iff.mpr ⟨ds, _, rfl, each⟩, filterMap_nibble? each,
        List.reverse_reverse, Bytes.ofNibbles_nibbles]

/-! ### Reading a name -/

/-- A name ends in the wide zone, in the narrow one, or in none. -/
theorem endsIn_cases (m : Text) : (∃ v, EndsIn .v6 m v) ∨ (∃ v, EndsIn .v4 m v) ∨
    ∀ f v, ¬ EndsIn f m v := by
  by_cases h6 : ∃ v, EndsIn .v6 m v
  · exact Or.inl h6
  · by_cases h4 : ∃ v, EndsIn .v4 m v
    · exact Or.inr (Or.inl h4)
    · refine Or.inr (Or.inr fun f v h => ?_)
      cases f with
      | v4 => exact h4 ⟨v, h⟩
      | v6 => exact h6 ⟨v, h⟩

theorem decodeName_of_endsIn_v6 (h : EndsIn .v6 m v) : decodeName m = decodeNibbles m.length v := by
  unfold decodeName
  rw [beforeSuffix?_eq_some_iff.mpr h]

theorem decodeName_of_endsIn_v4 (h : EndsIn .v4 m v) : decodeName m = decodeOctets v := by
  have h6 : beforeSuffix? .v6 m = none := beforeSuffix?_eq_none_iff.mpr fun w hw =>
    absurd (hw.family_eq h) (by decide)
  unfold decodeName
  rw [h6, beforeSuffix?_eq_some_iff.mpr h]

theorem decodeName_of_not_endsIn (h : ∀ f v, ¬ EndsIn f m v) :
    decodeName m = .error (.notReversed Error.notReversedText) := by
  unfold decodeName
  rw [beforeSuffix?_eq_none_iff.mpr (h .v6), beforeSuffix?_eq_none_iff.mpr (h .v4)]

theorem decodeName_eq_ok_iff :
    decodeName m = .ok bs ↔ ∃ f v, EndsIn f m v ∧ Spelling f v bs := by
  refine ⟨fun h => ?_, fun h => ?_⟩
  · rcases endsIn_cases m with ⟨v, hv⟩ | ⟨v, hv⟩ | hno
    · rw [decodeName_of_endsIn_v6 hv, decodeNibbles_eq_ok_iff hv.length] at h
      exact ⟨.v6, v, hv, h⟩
    · rw [decodeName_of_endsIn_v4 hv, decodeOctets_eq_ok_iff] at h
      exact ⟨.v4, v, hv, h⟩
    · rw [decodeName_of_not_endsIn hno] at h
      simp at h
  · obtain ⟨f, v, hv, h⟩ := h
    cases f with
    | v4 => rw [decodeName_of_endsIn_v4 hv, decodeOctets_eq_ok_iff.mpr h]
    | v6 => rw [decodeName_of_endsIn_v6 hv, (decodeNibbles_eq_ok_iff hv.length).mpr h]

theorem decode_eq_ok_iff_decodeName : decode name = .ok bs ↔ decodeName (dropDot name) = .ok bs := by
  unfold decode
  split
  · rename_i h
    rw [h]
  · rename_i h
    rw [h]
    simp

/-- The error of a name holds the error of the name without its dot. -/
theorem decode_eq_error_iff_decodeName {e : Error} : decode name = .error e ↔
    ∃ cause, decodeName (dropDot name) = .error cause ∧
      e = .malformedBy Subject.reverseName name cause := by
  unfold decode
  split
  · rename_i h
    simp [h]
  · rename_i cause h
    rw [h]
    refine ⟨fun he => ?_, fun h => ?_⟩
    · exact ⟨cause, rfl, (Except.error.inj he).symm⟩
    · obtain ⟨c, hc, rfl⟩ := h
      rw [Except.error.inj hc]

theorem isReverseName_iff : isReverseName name = true ↔ ∃ bs, decode name = .ok bs := by
  unfold isReverseName
  split
  · rename_i bs h
    simp [h]
  · rename_i e h
    simp [h]

theorem isNameOf_iff : IsNameOf name bs ↔ ∃ f v, EndsIn f (dropDot name) v ∧ Spelling f v bs := by
  constructor
  · rintro ⟨f, v, zone, dot, rfl, hz, rfl | rfl, h⟩
    · exact ⟨f, v, endsIn_dropDot_iff.mpr (Or.inl ⟨zone, by simp, hz⟩), h⟩
    · exact ⟨f, v, endsIn_dropDot_iff.mpr (Or.inr ⟨v ++ zone, rfl, zone, rfl, hz⟩), h⟩
  · rintro ⟨f, v, hm, h⟩
    rcases endsIn_dropDot_iff.mp hm with ⟨zone, rfl, hz⟩ | ⟨m, rfl, zone, rfl, hz⟩
    · exact ⟨f, v, zone, [], by simp, hz, Or.inl rfl, h⟩
    · exact ⟨f, v, zone, ['.'], rfl, hz, Or.inr rfl, h⟩

theorem decode_eq_ok_iff : decode name = .ok bs ↔ ∃ f v, EndsIn f (dropDot name) v ∧ Spelling f v bs := by
  rw [decode_eq_ok_iff_decodeName, decodeName_eq_ok_iff]

/-! ### Characters of a name -/

/-- Before the zone the encoder writes hexadecimal digits, decimal ones among
them, and dots. -/
theorem mem_join_labels {c : Char} (h : c ∈ Text.join ['.'] (labels f bs)) :
    c = '.' ∨ ∃ d < 16, c = Nat.digitChar d := by
  rcases Text.mem_join h with h | ⟨w, hw, hc⟩
  · exact Or.inl h
  · right
    cases f with
    | v4 =>
      obtain ⟨b, -, rfl⟩ := List.mem_map.mp hw
      obtain ⟨hd, hlt⟩ := Octet.digitChar_of_isDigit (Octet.digits_text b c hc)
      exact ⟨c.toNat - 48, by omega, hd.symm⟩
    | v6 =>
      obtain ⟨n, hn, rfl⟩ := List.mem_map.mp hw
      exact ⟨n, Bytes.nibbles_lt bs n (List.mem_reverse.mp hn), List.mem_singleton.mp hc⟩

theorem EndsIn.isAscii (hm : EndsIn f m v) (hv : Spelling f v bs) : Text.IsAscii m := by
  apply Text.isAscii_of_map_toLower (hm.map_toLower hv)
  intro c hc
  rcases List.mem_append.mp hc with hc | hc
  · rcases mem_join_labels hc with rfl | ⟨d, hd, rfl⟩
    · decide
    · exact Text.toNat_digitChar_lt d hd
  · exact (f.isPlain_suffix c hc).2

theorem isAscii_of_dropDot (h : Text.IsAscii (dropDot name)) : Text.IsAscii name := by
  intro c hc
  rcases mem_dropDot_or hc with hc | rfl
  · exact h c hc
  · decide

/-- **Reading accepts exactly the grammar.** A name is read as the bytes that it
is a name of, and no name with a character outside ASCII is accepted. -/
theorem accepts_iff (name : Text) :
    (∀ bs, decode name = .ok bs ↔ IsNameOf name bs) ∧
      (isReverseName name = true ↔ ∃ bs, IsNameOf name bs) ∧
      (isReverseName name = true → Text.IsAscii name) := by
  have hok : ∀ bs, decode name = .ok bs ↔ IsNameOf name bs := fun bs => by
    rw [decode_eq_ok_iff, isNameOf_iff]
  refine ⟨hok, ?_, ?_⟩
  · rw [isReverseName_iff]
    exact exists_congr hok
  · intro h
    obtain ⟨bs, hbs⟩ := isReverseName_iff.mp h
    obtain ⟨f, v, hm, hv⟩ := decode_eq_ok_iff.mp hbs
    exact isAscii_of_dropDot (hm.isAscii hv)

theorem accepts_upper_case_with_dot : isReverseName "1.0.0.127.IN-ADDR.Arpa.".toList = true ∧
    Text.IsAscii "1.0.0.127.IN-ADDR.Arpa.".toList := by
  have h : isReverseName "1.0.0.127.IN-ADDR.Arpa.".toList = true := by decide +kernel
  exact ⟨h, (accepts_iff _).2.2 h⟩

end ReverseName
end ReverseDns
