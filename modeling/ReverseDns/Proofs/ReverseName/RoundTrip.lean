/-
# Encoding and decoding are inverse

The name that `ofAddress` writes is read back as the bytes of the address
(`decode_ofAddress`), and every name that is read is, in lower case and without
its final dot, the one that is written of its bytes (`ofAddress_eq_map_toLower`).

Key theorems: `ReverseName.decode_ofAddress`, `ReverseName.ofAddress_eq_map_toLower`,
`ReverseName.encode_decode_inverse`.
-/
import ReverseDns.Proofs.Address.Text
import ReverseDns.Proofs.ReverseName.Grammar

namespace ReverseDns

namespace ReverseName

variable {name : Text} {bs : List UInt8}

/-- The scope is no part of a reverse name, so the bytes fix it. -/
theorem encode_bytes (a : Address) : encode (some a.bytes) = .ok (ofAddress a) := by
  obtain ⟨f, bs, scope, hl, hok⟩ := a
  have h : Address.ofBytes? bs = some ⟨f, bs, none, hl, by simp⟩ :=
    Address.ofBytes?_eq_some_iff.mpr ⟨rfl, rfl⟩
  unfold encode
  rw [Option.bind_some, h]
  rfl

theorem endsIn_ofAddress (a : Address) :
    EndsIn a.family (ofAddress a) (Text.join ['.'] (labels a.family a.bytes)) :=
  ⟨a.family.suffix, rfl, by cases a.family <;> decide⟩

/-- **A written name is read back.** -/
theorem decode_ofAddress (a : Address) : decode (ofAddress a) = .ok a.bytes := by
  have hm := endsIn_ofAddress a
  rw [decode_eq_ok_iff, dropDot_of_getLast?_ne hm.getLast?_ne]
  exact ⟨a.family, _, hm, spelling_labels a.length_bytes⟩

theorem length_of_decode (h : decode name = .ok bs) : bs.length = 4 ∨ bs.length = 16 := by
  obtain ⟨f, v, -, hv⟩ := decode_eq_ok_iff.mp h
  cases f with
  | v4 => exact Or.inl hv.size
  | v6 => exact Or.inr hv.size

/-- **A name that is read is the written one**, but for case and a final dot. -/
theorem ofAddress_eq_map_toLower {a : Address} (h : decode name = .ok a.bytes) :
    ofAddress a = (dropDot name).map Char.toLower := by
  obtain ⟨f, v, hm, hv⟩ := decode_eq_ok_iff.mp h
  have hf : f = a.family := by
    have hs := hv.size.symm.trans a.length_bytes
    cases f <;> cases ha : a.family <;> first | rfl | (rw [ha] at hs; exact absurd hs (by decide))
  rw [hm.map_toLower hv, hf]
  rfl

/-- **Encoding and decoding are inverse over the whole format.** The bytes of
every address have a name that is read as them, and a name that is read gives
the bytes of an address whose name it is, in lower case without a final dot. -/
theorem encode_decode_inverse :
    (∀ bs : List UInt8, bs.length = 4 ∨ bs.length = 16 →
      ∃ name, encode (some bs) = .ok name ∧ decode name = .ok bs) ∧
    (∀ (name : Text) (bs : List UInt8), decode name = .ok bs →
      (bs.length = 4 ∨ bs.length = 16) ∧
        encode (some bs) = .ok ((dropDot name).map Char.toLower)) := by
  refine ⟨fun bs h => ?_, fun name bs h => ?_⟩
  · obtain ⟨a, rfl, -⟩ := Address.exists_of_length h
    exact ⟨ofAddress a, encode_bytes a, decode_ofAddress a⟩
  · have hl := length_of_decode h
    obtain ⟨a, rfl, -⟩ := Address.exists_of_length hl
    exact ⟨hl, by rw [encode_bytes, ofAddress_eq_map_toLower h]⟩

theorem encode_decode_inverse_loopback :
    (∃ name, encode (some (List.replicate 15 0 ++ [1])) = .ok name ∧
      decode name = .ok (List.replicate 15 0 ++ [1])) ∧
    decode "1.0.0.127.In-Addr.ARPA.".toList = .ok [127, 0, 0, 1] ∧
    encode (some [127, 0, 0, 1]) =
      .ok ((dropDot "1.0.0.127.In-Addr.ARPA.".toList).map Char.toLower) := by
  have h : decode "1.0.0.127.In-Addr.ARPA.".toList = .ok [127, 0, 0, 1] := by decide +kernel
  exact ⟨encode_decode_inverse.1 _ (Or.inr rfl), h, (encode_decode_inverse.2 _ _ h).2⟩

end ReverseName
end ReverseDns
