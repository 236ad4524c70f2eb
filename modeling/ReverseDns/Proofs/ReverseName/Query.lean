/-
# The domain name of an address

What a query asks for is read by a library of domain names from the reverse name of
an address. Of the library it is asked only that it takes host name labels apart at
the dots and writes them with dots between, as long as labels and name keep within
the limits (`NameLibrary.Lawful`). A reverse name is far within them
(`isValid_of_mem_splitOn`, `wireLengthOf_splitOn_le`), so every address has its
domain name, and a text is refused only if it is no address.

Key definitions: `NameLibrary.Lawful`, `ReverseName.Entrances`, `ReverseName.Asked`.
Key theorems: `DomainName.lawful_library`, `ReverseName.splitOn_ofAddress`,
`ReverseName.entrances`, `ReverseName.exists_asked`,
`ReverseName.texts_and_names_agree`.
-/
import ReverseDns.Proofs.Address.Canonical
import ReverseDns.Proofs.Conversion
import ReverseDns.Proofs.Label.Position
import ReverseDns.Proofs.ReverseName.Delegation

namespace ReverseDns

/-- With one more separator at the end there is one more word, an empty one. -/
theorem Text.splitOn_concat (sep : Char) (t : Text) :
    (t ++ [sep]).splitOn sep = t.splitOn sep ++ [[]] :=
  splitOn_append_cons sep t []

theorem Text.join_splitOn_concat (sep : Char) (t : Text) :
    join [sep] (t.splitOn sep ++ [[]]) = t ++ [sep] := by
  rw [← splitOn_concat, join_splitOn]

/-! ### Domain names -/

namespace DomainName

variable {ls ls' : List Text} {k : Nat}

theorem wireLengthOf_append : ∀ ls : List Text,
    wireLengthOf (ls ++ ls') = wireLengthOf ls + wireLengthOf ls'
  | [] => by simp [wireLengthOf]
  | l :: ls => by
    rw [List.cons_append, wireLengthOf, wireLengthOf, wireLengthOf_append ls]
    omega

theorem wireLengthOf_le : ∀ {ls : List Text}, (∀ l ∈ ls, l.length ≤ k) →
    wireLengthOf ls ≤ ls.length * (k + 1)
  | [], _ => Nat.zero_le _
  | l :: ls, h => by
    obtain ⟨hl, hls⟩ := List.forall_mem_cons.mp h
    have ih := wireLengthOf_le hls
    calc wireLengthOf (l :: ls) = l.length + 1 + wireLengthOf ls := rfl
      _ ≤ (k + 1) + ls.length * (k + 1) := by omega
      _ = (l :: ls).length * (k + 1) := by rw [List.length_cons, Nat.succ_mul, Nat.add_comm]

end DomainName

/-! ### Libraries of domain names -/

/-- What a library has to do for texts of host name labels, within the limits: it
takes the text apart at the dots, puts the root at the end, and writes such a name
with dots between its labels. Of other texts nothing is asked. -/
structure NameLibrary.Lawful (lib : NameLibrary) : Prop where
  read : ∀ t : Text, (∀ l ∈ t.splitOn '.', Label.IsValid l) →
    DomainName.wireLengthOf (t.splitOn '.' ++ [[]]) ≤ DomainName.maxWireLength →
    ∃ n, lib.read t = .ok n ∧ lib.labels n = t.splitOn '.' ++ [[]]
  text : ∀ (n : lib.Name) (ls : List Text), ls ≠ [] → (∀ l ∈ ls, Label.IsValid l) →
    lib.labels n = ls ++ [[]] → lib.text n = Text.join ['.'] (ls ++ [[]])

namespace DomainName

variable {t : Text}

theorem read_eq_ok (hlabels : ∀ l ∈ t.splitOn '.', Label.IsValid l)
    (hwire : wireLengthOf (t.splitOn '.' ++ [[]]) ≤ maxWireLength) : read t = .ok (absolute t) := by
  have hne : [] ∉ t.splitOn '.' := fun h => absurd (hlabels [] h).1 (by simp)
  have hshort : ¬ ∃ l ∈ t.splitOn '.', Label.maxLength < l.length := by
    rintro ⟨l, hl, hlong⟩
    exact absurd (hlabels l hl).2.1 (Nat.not_le.mpr hlong)
  unfold read
  rw [if_neg hne, if_neg hshort]
  exact if_neg (Nat.not_lt.mpr hwire)

theorem lawful_library : library.Lawful where
  read t hlabels hwire := ⟨absolute t, read_eq_ok hlabels hwire, rfl⟩
  text _ _ _ _ h := congrArg (Text.join ['.']) h

end DomainName

/-! ### The labels of a reverse name -/

/-- The labels of the family's zone. -/
def Family.zone : Family → List Text
  | .v4 => ["in-addr".toList, "arpa".toList]
  | .v6 => ["ip6".toList, "arpa".toList]

theorem Family.suffix_eq (f : Family) : f.suffix = '.' :: Text.join ['.'] f.zone := by
  cases f <;> decide

theorem Family.splitOn_zone (f : Family) : (Text.join ['.'] f.zone).splitOn '.' = f.zone := by
  cases f <;> decide

theorem Family.isValid_of_mem_zone (f : Family) : ∀ l ∈ f.zone, Label.IsValid l := by
  have h : ∀ l ∈ f.zone, Label.check l = .ok () := by cases f <;> decide
  exact fun l hl => Label.check_eq_ok_iff_isValid.mp (h l hl)

namespace ReverseName

variable {lib : NameLibrary} {f : Family} {bs : List UInt8} {l : Text} {a : Address}

theorem splitOn_ofAddress (a : Address) :
    (ofAddress a).splitOn '.' = labels a.family a.bytes ++ a.family.zone := by
  unfold ofAddress
  rw [a.family.suffix_eq, Text.splitOn_append_cons, splitOn_join_labels a.length_bytes,
    a.family.splitOn_zone]

theorem isValid_of_mem_splitOn (a : Address) : ∀ l ∈ (ofAddress a).splitOn '.', Label.IsValid l := by
  have hspelling := spelling_labels a.length_bytes
  intro l hl
  rw [splitOn_ofAddress] at hl
  rcases List.mem_append.mp hl with hl | hl
  · rw [← splitOn_join_labels a.length_bytes] at hl
    exact Label.check_eq_ok_iff_isValid.mp (hspelling.check l hl)
  · exact a.family.isValid_of_mem_zone l hl

/-- An octet has at most three digits, a nibble has one. -/
theorem length_le_of_mem_labels (h : l ∈ labels f bs) : l.length ≤ 3 := by
  cases f with
  | v4 =>
    obtain ⟨b, -, rfl⟩ := List.mem_map.mp h
    exact Octet.length_text_le b
  | v6 =>
    obtain ⟨n, -, rfl⟩ := List.mem_map.mp h
    simp

theorem wireLengthOf_splitOn_le (a : Address) :
    DomainName.wireLengthOf ((ofAddress a).splitOn '.' ++ [[]]) ≤ DomainName.maxWireLength := by
  have hlabels : DomainName.wireLengthOf (labels a.family a.bytes) ≤ a.family.labelCount * 4 := by
    rw [← length_labels a.length_bytes]
    exact DomainName.wireLengthOf_le fun l hl => length_le_of_mem_labels hl
  have hzone : a.family.labelCount * 4 + DomainName.wireLengthOf (a.family.zone ++ [[]]) ≤
      DomainName.maxWireLength := by
    cases a.family <;> decide
  rw [splitOn_ofAddress, List.append_assoc, DomainName.wireLengthOf_append]
  omega

/-! ### Addresses and their domain names -/

/-- A final dot does not change what a reverse name is read as. -/
theorem toAddress_ofAddress (a : Address) : toAddress (ofAddress a) = .ok a.unscoped ∧
    toAddress (ofAddress a ++ ['.']) = .ok a.unscoped := by
  have hread : decode (ofAddress a) = .ok a.bytes := decode_ofAddress a
  have hdot : decode (ofAddress a ++ ['.']) = .ok a.bytes := by
    rw [decode_eq_ok_iff_decodeName, dropDot_append_dot]
    rw [decode_eq_ok_iff_decodeName, dropDot_of_getLast?_ne (endsIn_ofAddress a).getLast?_ne] at hread
    exact hread
  exact ⟨toAddress_eq_ok_iff.mpr ⟨hread, rfl⟩, toAddress_eq_ok_iff.mpr ⟨hdot, rfl⟩⟩

/-- A name of the library is what a query for an address asks for. -/
structure Asked (lib : NameLibrary) (a : Address) (n : lib.Name) : Prop where
  encode : encode (some a.bytes) = .ok (ofAddress a)
  query : query lib a = .ok n
  absolute : lib.isAbsolute n = true
  text : lib.text n = ofAddress a ++ ['.']
  labels : lib.labels n = (ofAddress a).splitOn '.' ++ [[]]
  length_label : ∀ l ∈ lib.labels n, l.length ≤ 63
  length_wire : DomainName.wireLengthOf (lib.labels n) ≤ 255
  readBack : toAddress (ofAddress a) = .ok a.unscoped
  readBack_text : toAddress (lib.text n) = .ok a.unscoped

/-- **Every address has its domain name**, in whatever library. -/
theorem exists_asked (laws : lib.Lawful) (a : Address) : ∃ n, Asked lib a n := by
  have hvalid := isValid_of_mem_splitOn a
  have hwire := wireLengthOf_splitOn_le a
  obtain ⟨hback, hbackDot⟩ := toAddress_ofAddress a
  obtain ⟨n, hread, hlabels⟩ := laws.read (ofAddress a) hvalid hwire
  have htext : lib.text n = ofAddress a ++ ['.'] := by
    rw [laws.text n _ (List.splitOn_ne_nil '.' _) hvalid hlabels, Text.join_splitOn_concat]
  refine ⟨n, {
    encode := encode_bytes a
    query := hread
    absolute := by rw [NameLibrary.isAbsolute, hlabels, List.getLast?_concat]; rfl
    text := htext
    labels := hlabels
    length_label := fun l hl => ?_
    length_wire := hlabels ▸ hwire
    readBack := hback
    readBack_text := by rw [htext]; exact hbackDot }⟩
  rw [hlabels] at hl
  rcases List.mem_append.mp hl with hl | hl
  · exact (hvalid l hl).2.1
  · obtain rfl := List.mem_singleton.mp hl
    exact Nat.zero_le 63

/-! ### Texts -/

/-- The ways in that take a text all take it or all refuse it, and refuse it with the
error of a text that is no address; what is taken is taken for the same address. -/
structure Entrances (lib : NameLibrary) (t : Text) : Prop where
  toAddress : Address.isText t = true ↔ ∃ a, Address.ofText t = .ok a
  toName : Address.isText t = true ↔ ∃ name, ofText t = .ok name
  toQuery : Address.isText t = true ↔ ∃ n, queryOfText lib t = .ok n
  toAddress_error : ∀ e, Address.ofText t = .error e → e = .malformed Subject.address t
  toName_error : ∀ e, ofText t = .error e → e = .malformed Subject.address t
  toQuery_error : ∀ e, queryOfText lib t = .error e → e = .inl (.malformed Subject.address t)
  same : ∀ a, Address.ofText t = .ok a →
    ofText t = .ok (ofAddress a) ∧ queryOfText lib t = (query lib a).mapError .inr

theorem ofText_of_ok {t : Text} (h : Address.ofText t = .ok a) : ofText t = .ok (ofAddress a) := by
  unfold ofText
  rw [h]
  rfl

theorem queryOfText_of_ok {t : Text} (h : Address.ofText t = .ok a) :
    queryOfText lib t = (query lib a).mapError .inr := by
  unfold queryOfText
  rw [ofText_of_ok h]
  rfl

/-- Either a text is an address and every way in goes on with that, or every way in ends
where the text is read. -/
theorem entrances_cases (lib : NameLibrary) (t : Text) :
    (∃ a, Address.isText t = true ∧ Address.ofText t = .ok a ∧ ofText t = .ok (ofAddress a) ∧
      queryOfText lib t = (query lib a).mapError .inr) ∨
    (Address.isText t = false ∧ Address.ofText t = .error (.malformed Subject.address t) ∧
      ofText t = .error (.malformed Subject.address t) ∧
      queryOfText lib t = .error (.inl (.malformed Subject.address t))) := by
  cases hread : Address.read? t with
  | some a =>
    have hok : Address.ofText t = .ok a := Address.ofText_eq_ok_iff.mpr hread
    exact Or.inl ⟨a, by rw [Address.isText, hread]; rfl, hok, ofText_of_ok hok, queryOfText_of_ok hok⟩
  | none =>
    have herror : Address.ofText t = .error (.malformed Subject.address t) := by
      unfold Address.ofText
      rw [hread]
    have hname : ofText t = .error (.malformed Subject.address t) := by
      unfold ofText
      rw [herror]
      rfl
    refine Or.inr ⟨by rw [Address.isText, hread]; rfl, herror, hname, ?_⟩
    unfold queryOfText
    rw [hname]

/-- **All ways in take the same texts**: what is an address is not refused later. -/
theorem entrances (laws : lib.Lawful) (t : Text) : Entrances lib t := by
  rcases entrances_cases lib t with ⟨a, htext, haddress, hname, hquery⟩ |
    ⟨htext, haddress, hname, hquery⟩
  · obtain ⟨n, hn⟩ := exists_asked laws a
    have hasked : queryOfText lib t = .ok n := by
      rw [hquery, hn.query]
      rfl
    exact {
      toAddress := iff_of_true htext ⟨a, haddress⟩
      toName := iff_of_true htext ⟨_, hname⟩
      toQuery := iff_of_true htext ⟨n, hasked⟩
      toAddress_error := fun e he => nomatch haddress.symm.trans he
      toName_error := fun e he => nomatch hname.symm.trans he
      toQuery_error := fun e he => nomatch hasked.symm.trans he
      same := fun b hb => ⟨ofText_of_ok hb, queryOfText_of_ok hb⟩ }
  · have hno : ¬ Address.isText t = true := by simp [htext]
    exact {
      toAddress := iff_of_false hno fun ⟨_, h⟩ => nomatch haddress.symm.trans h
      toName := iff_of_false hno fun ⟨_, h⟩ => nomatch hname.symm.trans h
      toQuery := iff_of_false hno fun ⟨_, h⟩ => nomatch hquery.symm.trans h
      toAddress_error := fun e he => (Except.error.inj (haddress.symm.trans he)).symm
      toName_error := fun e he => (Except.error.inj (hname.symm.trans he)).symm
      toQuery_error := fun e he => (Except.error.inj (hquery.symm.trans he)).symm
      same := fun b hb => ⟨ofText_of_ok hb, queryOfText_of_ok hb⟩ }

/-! ### The names that are handed out -/

/-- Nothing is lost by handing out the name of an address without asking for limits. -/
theorem query_library (a : Address) : query DomainName.library a = .ok (absolute a) :=
  DomainName.read_eq_ok (isValid_of_mem_splitOn a) (wireLengthOf_splitOn_le a)

theorem queryOfText_library (t : Text) :
    queryOfText DomainName.library t = (absoluteOfText t).mapError .inl := by
  unfold absoluteOfText
  rcases entrances_cases DomainName.library t with ⟨a, -, haddress, -, hquery⟩ |
    ⟨-, haddress, -, hquery⟩
  · rw [hquery, query_library, haddress]
    rfl
  · rw [hquery, haddress]
    rfl

/-- **Texts and domain names agree on every address.** Telling whether a text is an
address, reading it as one, writing its reverse name and asking for that as a domain
name succeed on the same texts and fail with the same error. The domain name of an
address, with or without a scope, is the reverse name with a dot behind it; its labels
are those of the reverse name and the root, within the limits on labels and names; and
with or without the dot it is read back as the address without its scope. -/
theorem texts_and_names_agree (laws : lib.Lawful) :
    (∀ t : Text, Entrances lib t) ∧ ∀ a : Address, ∃ n, Asked lib a n :=
  ⟨entrances laws, exists_asked laws⟩

/-- An address with a scope, and the text of one whose scope is missing. -/
theorem texts_and_names_agree_scoped :
    DomainName.library.Lawful ∧
    (∃ a n, Address.ofText "fe80::1%eth0".toList = .ok a ∧ Asked DomainName.library a n ∧
      a.scope = some "eth0".toList) ∧
    queryOfText DomainName.library "fe80::1%".toList =
      .error (.inl (.malformed Subject.address "fe80::1%".toList)) := by
  obtain ⟨hentrances, hasked⟩ := texts_and_names_agree DomainName.lawful_library
  refine ⟨DomainName.lawful_library, ?_, ?_⟩
  · obtain ⟨a, ha⟩ := (hentrances "fe80::1%eth0".toList).toAddress.mp (by decide +kernel)
    obtain ⟨n, hn⟩ := hasked a
    have hscope : (Address.ofText "fe80::1%eth0".toList).map Address.scope =
        .ok (some "eth0".toList) := by decide +kernel
    rw [ha] at hscope
    exact ⟨a, n, ha, hn, Except.ok.inj hscope⟩
  · have hno : ¬ Address.isText "fe80::1%".toList = true := by decide +kernel
    have hways := hentrances "fe80::1%".toList
    cases h : queryOfText DomainName.library "fe80::1%".toList with
    | ok n => exact absurd (hways.toQuery.mpr ⟨n, h⟩) hno
    | error e => rw [hways.toQuery_error e h]

end ReverseName
end ReverseDns
