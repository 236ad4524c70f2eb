/-
# Names are read without regard to case and to one final dot

Reading commutes with lower case: a name in lower case is read as the name is,
and its error is the error of the name in lower case (`decode_map_toLower`),
because every check on the way does. So two names that differ in the case of
letters are read alike, with errors that differ in what they quote only, and
there only in case. A final dot is taken off before anything is checked.

Key theorems: `ReverseName.decodeName_map_toLower`, `ReverseName.decode_map_toLower`,
`ReverseName.decode_up_to_case_and_dot`.
-/
import ReverseDns.Proofs.Label.Position
import ReverseDns.Proofs.LetterCase

namespace ReverseDns

/-! ### Labels -/

namespace Label

theorem isOuter_toLower (c : Char) : isOuter c.toLower = isOuter c := by
  have hranges : ∀ d : Char, IsLetterOrDigit d ↔ (65 ≤ d.toNat ∧ d.toNat ≤ 90) ∨
      (97 ≤ d.toNat ∧ d.toNat ≤ 122) ∨ (48 ≤ d.toNat ∧ d.toNat ≤ 57) := fun _ => Iff.rfl
  rw [Bool.eq_iff_iff, isOuter_iff, isOuter_iff, hranges, hranges, Text.toNat_toLower]
  split <;> omega

theorem isInner_toLower (c : Char) : isInner c.toLower = isInner c := by
  have hhyphen : (c.toLower == '-') = (c == '-') := by
    rw [Bool.eq_iff_iff, beq_iff_eq, beq_iff_eq, Text.toLower_eq_iff (by decide)]
  unfold isInner
  rw [isOuter_toLower, hhyphen]

theorem firstIllegalLater_map_toLower : ∀ t : Text,
    firstIllegalLater (t.map Char.toLower) = (firstIllegalLater t).map Char.toLower
  | [] => rfl
  | [c] => by
    simp only [List.map_cons, List.map_nil, firstIllegalLater, isOuter_toLower]
    split <;> rfl
  | c :: d :: t => by
    have ih := firstIllegalLater_map_toLower (d :: t)
    simp only [List.map_cons] at ih ⊢
    rw [firstIllegalLater_cons_cons, firstIllegalLater_cons_cons, isInner_toLower, ih]
    split <;> rfl

theorem firstIllegal_map_toLower (t : Text) :
    firstIllegal (t.map Char.toLower) = (firstIllegal t).map Char.toLower := by
  cases t with
  | nil => rfl
  | cons c t =>
    rw [List.map_cons, firstIllegal, firstIllegal, isOuter_toLower, firstIllegalLater_map_toLower]
    split <;> rfl

theorem cause?_map_toLower (t : Text) : cause? (t.map Char.toLower) = (cause? t).map Error.lowered := by
  unfold cause?
  rw [List.length_map, firstIllegal_map_toLower]
  by_cases hlong : maxLength < t.length
  · rw [if_pos hlong, if_pos hlong]
    rfl
  · by_cases hne : t = []
    · subst hne
      rfl
    · rw [if_neg hlong, if_neg hlong, if_neg hne, if_neg (by simpa using hne), Option.map_map,
        Option.map_map]
      rfl

theorem fault?_map_toLower (t : Text) : fault? (t.map Char.toLower) = (fault? t).map Error.lowered := by
  unfold fault?
  rw [cause?_map_toLower, Option.map_map, Option.map_map]
  rfl

theorem findSome?_fault?_map_toLower (ts : List Text) :
    (ts.map (List.map Char.toLower)).findSome? fault? = (ts.findSome? fault?).map Error.lowered := by
  have hf : fault? ∘ List.map Char.toLower = fun t => (fault? t).map Error.lowered :=
    funext fault?_map_toLower
  rw [List.findSome?_map, hf, List.map_findSome?]
  rfl

end Label

/-! ### Digits -/

theorem Octet.read?_map_toLower (t : Text) : Octet.read? (t.map Char.toLower) = Octet.read? t := by
  by_cases hd : t.all Char.isDigit = true
  · have hself : t.map Char.toLower = t :=
      Text.map_toLower_eq_self fun c hc => Text.toLower_of_isDigit (List.all_eq_true.mp hd c hc)
    rw [hself]
  · have hall : (t.map Char.toLower).all Char.isDigit = t.all Char.isDigit := by
      rw [List.all_map]
      exact congrArg t.all (funext Text.isDigit_toLower)
    unfold Octet.read?
    rw [hall, if_pos (by simp [hd]), if_pos (by simp [hd])]

theorem Text.hexDigit?_toLower (c : Char) : Text.hexDigit? c.toLower = Text.hexDigit? c := by
  apply Option.ext
  intro n
  rw [Text.hexDigit?_eq_some_iff, Text.hexDigit?_eq_some_iff, Text.toLower_toLower]

namespace ReverseName

variable {f : Family} {m v name name' : Text}

theorem nibble?_map_toLower (l : Text) : nibble? (l.map Char.toLower) = nibble? l := by
  match l with
  | [] => rfl
  | [c] => exact Text.hexDigit?_toLower c
  | _ :: _ :: _ => rfl

theorem splitOn_map_toLower (v : Text) :
    (v.map Char.toLower).splitOn '.' = (v.splitOn '.').map (List.map Char.toLower) := by
  exact Text.splitOn_map Char.toLower (fun _ => Text.toLower_eq_iff (by decide)) v

/-! ### Names -/

theorem decodeOctets_map_toLower (v : Text) :
    decodeOctets (v.map Char.toLower) = (decodeOctets v).mapError Error.lowered := by
  have hread : Octet.read? ∘ List.map Char.toLower = Octet.read? := funext Octet.read?_map_toLower
  unfold decodeOctets
  rw [splitOn_map_toLower, Label.findSome?_fault?_map_toLower, List.map_map, hread]
  cases (v.splitOn '.').findSome? Label.fault? with
  | some e => rfl
  | none =>
    simp only [Option.map_none]
    generalize (v.splitOn '.').map Octet.read? = octets
    split <;> rfl

theorem decodeNibbles_map_toLower (n : Nat) (v : Text) :
    decodeNibbles n (v.map Char.toLower) = (decodeNibbles n v).mapError Error.lowered := by
  have hnibble : nibble? ∘ List.map Char.toLower = nibble? := funext nibble?_map_toLower
  have hnone : (fun l => (nibble? l).isNone) ∘ List.map Char.toLower = fun l => (nibble? l).isNone :=
    funext fun l => congrArg Option.isNone (nibble?_map_toLower l)
  unfold decodeNibbles
  simp only
  rw [splitOn_map_toLower, Label.findSome?_fault?_map_toLower, List.length_map, List.filterMap_map,
    hnibble, List.find?_map, hnone]
  cases (v.splitOn '.').findSome? Label.fault? with
  | some e => rfl
  | none =>
    simp only [Option.map_none]
    split
    · rfl
    · split
      · rfl
      · cases (v.splitOn '.').find? (fun l => (nibble? l).isNone) <;> rfl

theorem EndsIn.lowered (h : EndsIn f m v) : EndsIn f (m.map Char.toLower) (v.map Char.toLower) := by
  obtain ⟨zone, rfl, hz⟩ := h
  refine ⟨f.suffix, by rw [List.map_append, hz], ?_⟩
  rw [← hz, List.map_map]
  exact List.map_congr_left fun c _ => Text.toLower_toLower c

/-- A name whose lower case ends in a zone ends in the zone, too. -/
theorem exists_endsIn_of_lowered (h : EndsIn f (m.map Char.toLower) v) : ∃ w, EndsIn f m w := by
  obtain ⟨zone, hm, hz⟩ := h
  obtain ⟨w, zone', rfl, -, hzone⟩ := List.map_eq_append_iff.mp hm
  refine ⟨w, zone', rfl, ?_⟩
  rw [← hz, ← hzone, List.map_map]
  exact List.map_congr_left fun c _ => (Text.toLower_toLower c).symm

theorem decodeName_map_toLower (m : Text) :
    decodeName (m.map Char.toLower) = (decodeName m).mapError Error.lowered := by
  rcases endsIn_cases m with ⟨v, hv⟩ | ⟨v, hv⟩ | hno
  · rw [decodeName_of_endsIn_v6 hv, decodeName_of_endsIn_v6 hv.lowered, List.length_map,
      decodeNibbles_map_toLower]
  · rw [decodeName_of_endsIn_v4 hv, decodeName_of_endsIn_v4 hv.lowered, decodeOctets_map_toLower]
  · have hno' : ∀ f v, ¬ EndsIn f (m.map Char.toLower) v := by
      intro f v hv
      obtain ⟨w, hw⟩ := exists_endsIn_of_lowered hv
      exact hno f w hw
    rw [decodeName_of_not_endsIn hno, decodeName_of_not_endsIn hno']
    rfl

theorem dropDot_map_toLower (name : Text) :
    dropDot (name.map Char.toLower) = (dropDot name).map Char.toLower := by
  have hdot : (name.map Char.toLower).getLast? = some '.' ↔ name.getLast? = some '.' := by
    rw [List.getLast?_map]
    cases name.getLast? with
    | none => simp
    | some c => simp [Text.toLower_eq_iff]
  unfold dropDot
  by_cases h : name.getLast? = some '.'
  · rw [if_pos h, if_pos (hdot.mpr h), List.map_dropLast]
  · rw [if_neg h, if_neg (mt hdot.mp h)]

/-- **Reading commutes with lower case.** -/
theorem decode_map_toLower (name : Text) :
    decode (name.map Char.toLower) = (decode name).mapError Error.lowered := by
  unfold decode
  rw [dropDot_map_toLower, decodeName_map_toLower]
  cases decodeName (dropDot name) <;> rfl

/-- The final dot is gone before anything is read. -/
theorem decode_append_dot (h : name.getLast? ≠ some '.') :
    (∃ bs, decode (name ++ ['.']) = .ok bs ∧ decode name = .ok bs) ∨
    ∃ cause, decode (name ++ ['.']) = .error (.malformedBy Subject.reverseName (name ++ ['.']) cause) ∧
      decode name = .error (.malformedBy Subject.reverseName name cause) := by
  unfold decode
  rw [dropDot_append_dot, dropDot_of_getLast?_ne h]
  cases decodeName name with
  | ok bs => exact Or.inl ⟨bs, rfl, rfl⟩
  | error cause => exact Or.inr ⟨cause, rfl, rfl⟩

/-- Names that are the same in lower case are read alike. -/
theorem decode_of_map_toLower_eq (h : name.map Char.toLower = name'.map Char.toLower) :
    (∃ bs, decode name = .ok bs ∧ decode name' = .ok bs) ∨
    ∃ e e', decode name = .error e ∧ decode name' = .error e' ∧ e.lowered = e'.lowered := by
  have hlow := decode_map_toLower name
  rw [h, decode_map_toLower] at hlow
  cases hn : decode name <;> cases hn' : decode name' <;> rw [hn, hn'] at hlow
  · exact Or.inr ⟨_, _, rfl, rfl, (Except.error.inj hlow).symm⟩
  · cases hlow
  · cases hlow
  · exact Or.inl ⟨_, rfl, congrArg Except.ok (Except.ok.inj hlow)⟩

/-- **Neither the case of letters nor a final dot matters.** Two names that differ in
the case of letters are both read as the same bytes, or are both refused, with chains
of errors that are link by link alike but for the case of what they quote. A name and
the name with a dot behind it are read as the same bytes, or refused for the same
cause. -/
theorem decode_up_to_case_and_dot :
    (∀ name name' : Text, Text.Recased name name' →
      (∃ bs, decode name = .ok bs ∧ decode name' = .ok bs) ∨
      ∃ e e', decode name = .error e ∧ decode name' = .error e' ∧
        List.Forall₂ Error.AlikeButCase e.chain e'.chain) ∧
    (∀ name : Text, name.getLast? ≠ some '.' →
      (∃ bs, decode (name ++ ['.']) = .ok bs ∧ decode name = .ok bs) ∨
      ∃ cause,
        decode (name ++ ['.']) = .error (.malformedBy Subject.reverseName (name ++ ['.']) cause) ∧
        decode name = .error (.malformedBy Subject.reverseName name cause)) := by
  refine ⟨fun name name' h => ?_, fun name h => decode_append_dot h⟩
  rcases decode_of_map_toLower_eq (Text.recased_iff.mp h) with hok | ⟨e, e', he, he', hlow⟩
  · exact Or.inl hok
  · exact Or.inr ⟨e, e', he, he', Error.forall₂_chain_of_lowered_eq hlow⟩

theorem decode_up_to_case_and_dot_accent :
    let name := "1.Aé.256.127.in-addr.ARPA".toList
    let name' := "1.aé.256.127.In-Addr.arpa".toList
    Text.Recased name name' ∧ name.getLast? ≠ some '.' ∧
      (∃ e e', decode name = .error e ∧ decode name' = .error e' ∧
        List.Forall₂ Error.AlikeButCase e.chain e'.chain) ∧
      ∃ cause,
        decode (name ++ ['.']) = .error (.malformedBy Subject.reverseName (name ++ ['.']) cause) ∧
        decode name = .error (.malformedBy Subject.reverseName name cause) := by
  intro name name'
  have hcase : Text.Recased name name' := Text.recased_iff.mpr (by decide +kernel)
  have hlast : name.getLast? ≠ some '.' := by decide
  have hrefused : ¬ ∃ bs, decode name = .ok bs := by
    rw [← isReverseName_iff]
    decide +kernel
  obtain ⟨hrecased, hdot⟩ := decode_up_to_case_and_dot
  refine ⟨hcase, hlast, ?_, ?_⟩
  · rcases hrecased name name' hcase with ⟨bs, hbs, -⟩ | herror
    · exact absurd ⟨bs, hbs⟩ hrefused
    · exact herror
  · rcases hdot name hlast with ⟨bs, -, hbs⟩ | herror
    · exact absurd ⟨bs, hbs⟩ hrefused
    · exact herror

end ReverseName
end ReverseDns
