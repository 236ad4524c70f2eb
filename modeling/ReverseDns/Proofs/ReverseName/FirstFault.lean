/-
# The first fault of a name is its error

A name that is not accepted has one first fault: it ends in no zone; or else a
label before the zone is refused, the leftmost of them; or else, before
`ip6.arpa`, the name has the wrong length, or the wrong number of labels, or a
label that is no hexadecimal digit, the leftmost of them; or else, before
`in-addr.arpa`, the labels are not four octets. `FirstFault` says so with the
error that each fault makes. The error of a name is that of its first fault
(`decodeName_eq_error_iff`), no name has two (`FirstFault.unique`), and what an
error quotes stands in the name as received (`FirstFault.isInfix`).

Key definitions: `ReverseName.FirstFault`, `Error.fragment?`.
Key theorems: `ReverseName.decodeName_eq_error_iff`, `ReverseName.FirstFault.unique`,
`ReverseName.FirstFault.isInfix`, `ReverseName.error_is_first_fault`.
-/
import ReverseDns.Proofs.ReverseName.Grammar

namespace ReverseDns

/-- The part of an input that an error itself quotes. -/
def Error.fragment? : Error → Option Text
  | .malformed _ value | .malformedBy _ value _ => some value
  | .rune _ r => some r
  | _ => none

namespace ReverseName

/-- A label that is one hexadecimal digit. -/
def IsDigitLabel (l : Text) : Prop := ∃ d n, l = [d] ∧ IsHexDigit d n

/-- What can be wrong with a name. -/
inductive Reason
  | zone
  | label
  | length
  | count
  | digit
  | octets
deriving DecidableEq, Repr

/-- The first thing that is wrong with a name without its final dot, and the
error that it makes. -/
inductive FirstFault (m : Text) : Reason → Error → Prop
  /-- The name ends in neither zone. -/
  | zone (neither : ∀ f v, ¬ EndsIn f m v) :
      FirstFault m .zone (.notReversed Error.notReversedText)
  /-- The leftmost refused label, with what it is refused for. -/
  | label {f : Family} {v l : Text} {before after : List Text} {cause : Error}
      (ends : EndsIn f m v) (split : v.splitOn '.' = before ++ l :: after)
      (legal : ∀ x ∈ before, Label.check x = .ok ())
      (refused : Label.check l = .error (.malformedBy Subject.label l cause)) :
      FirstFault m .label (.malformedBy Subject.label l cause)
  /-- The length of a name before `ip6.arpa`. -/
  | length {v : Text} (ends : EndsIn .v6 m v)
      (legal : ∀ x ∈ v.splitOn '.', Label.check x = .ok ()) (wrong : m.length ≠ 72) :
      FirstFault m .length (.length Subject.reverseName m.length (some 72) none)
  /-- The number of labels before `ip6.arpa`. -/
  | count {v : Text} (ends : EndsIn .v6 m v)
      (legal : ∀ x ∈ v.splitOn '.', Label.check x = .ok ()) (length : m.length = 72)
      (wrong : (v.splitOn '.').length ≠ 32) :
      FirstFault m .count (.notReversed Error.notReversedText)
  /-- The leftmost label before `ip6.arpa` that is no digit. -/
  | digit {v l : Text} {before after : List Text} (ends : EndsIn .v6 m v)
      (legal : ∀ x ∈ v.splitOn '.', Label.check x = .ok ()) (length : m.length = 72)
      (count : (v.splitOn '.').length = 32) (split : v.splitOn '.' = before ++ l :: after)
      (digits : ∀ x ∈ before, IsDigitLabel x) (wrong : ¬ IsDigitLabel l) :
      FirstFault m .digit (.rune Subject.reverseName l)
  /-- The labels before `in-addr.arpa`, which are not four octets. -/
  | octets {v : Text} (ends : EndsIn .v4 m v)
      (legal : ∀ x ∈ v.splitOn '.', Label.check x = .ok ())
      (wrong : ∀ bs, ¬ Spelling .v4 v bs) :
      FirstFault m .octets (.malformed Subject.dottedAddress v)

variable {name m v l : Text} {e e' : Error} {r r' : Reason} {ls : List Text}

theorem isDigitLabel_iff : IsDigitLabel l ↔ (nibble? l).isSome = true := by
  constructor
  · rintro ⟨d, n, rfl, h⟩
    rw [nibble?_singleton.mpr h]
    rfl
  · intro h
    obtain ⟨n, hn⟩ := Option.isSome_iff_exists.mp h
    match l, hn with
    | [d], hn => exact ⟨d, n, rfl, nibble?_singleton.mp hn⟩

theorem find?_nibble?_eq_some_iff : (ls.find? fun l => (nibble? l).isNone) = some l ↔
    ∃ before after, ls = before ++ l :: after ∧ (∀ x ∈ before, IsDigitLabel x) ∧ ¬ IsDigitLabel l := by
  rw [List.find?_eq_some_iff_append]
  simp only [isDigitLabel_iff, Bool.not_eq_eq_eq_not, Bool.not_true, Option.isNone_eq_false_iff,
    Bool.not_eq_true, Option.isSome_eq_false_iff]
  constructor
  · rintro ⟨hl, before, after, hs, hb⟩
    exact ⟨before, after, hs, hb, hl⟩
  · rintro ⟨before, after, hs, hb, hl⟩
    exact ⟨hl, before, after, hs, hb⟩

/-! ### The error of a name -/

theorem decodeNibbles_of_refused {n : Nat} (h : (v.splitOn '.').findSome? Label.fault? = some e) :
    decodeNibbles n v = .error e := by
  unfold decodeNibbles
  simp only [h]

theorem decodeNibbles_of_legal {n : Nat} (legal : ∀ x ∈ v.splitOn '.', Label.check x = .ok ()) :
    decodeNibbles n v =
      if n ≠ 72 then .error (.length Subject.reverseName n (some 72) none)
      else if (v.splitOn '.').length ≠ 32 then .error (.notReversed Error.notReversedText)
      else match (v.splitOn '.').find? fun l => (nibble? l).isNone with
        | some l => .error (.rune Subject.reverseName l)
        | none => .ok (Bytes.ofNibbles ((v.splitOn '.').filterMap nibble?).reverse) := by
  unfold decodeNibbles
  simp only [Label.findSome?_fault?_eq_none_iff.mpr legal]
  rfl

theorem decodeOctets_of_refused (h : (v.splitOn '.').findSome? Label.fault? = some e) :
    decodeOctets v = .error e := by
  unfold decodeOctets
  simp only [h]

theorem decodeOctets_of_legal (legal : ∀ x ∈ v.splitOn '.', Label.check x = .ok ())
    (wrong : ∀ bs, ¬ Spelling .v4 v bs) :
    decodeOctets v = .error (.malformed Subject.dottedAddress v) := by
  -- Bytes that were read would be spelled by the value.
  have hno : ∀ bs, decodeOctets v ≠ .ok bs := fun bs h => wrong bs (decodeOctets_eq_ok_iff.mp h)
  unfold decodeOctets at hno ⊢
  simp only [Label.findSome?_fault?_eq_none_iff.mpr legal] at hno ⊢
  split
  · rename_i hm
    rw [hm] at hno
    exact absurd rfl (hno _)
  · rfl

theorem firstFault_of_refused {f : Family} (ends : EndsIn f m v)
    (h : (v.splitOn '.').findSome? Label.fault? = some e) : FirstFault m .label e := by
  obtain ⟨before, t, after, split, refused, legal⟩ := Label.findSome?_fault?_eq_some_iff.mp h
  obtain ⟨cause, -, rfl⟩ := Label.check_eq_error_iff.mp refused
  exact .label ends split legal refused

theorem firstFault_of_decodeNibbles (ends : EndsIn .v6 m v)
    (h : decodeNibbles m.length v = .error e) : ∃ r, FirstFault m r e := by
  cases hlabel : (v.splitOn '.').findSome? Label.fault? with
  | some e' =>
    rw [decodeNibbles_of_refused hlabel] at h
    rw [← Except.error.inj h]
    exact ⟨.label, firstFault_of_refused ends hlabel⟩
  | none =>
    have legal := Label.findSome?_fault?_eq_none_iff.mp hlabel
    rw [decodeNibbles_of_legal legal] at h
    split_ifs at h with hlen hcount
    · rw [← Except.error.inj h]
      exact ⟨.length, .length ends legal hlen⟩
    · rw [← Except.error.inj h]
      exact ⟨.count, .count ends legal (Classical.not_not.mp hlen) hcount⟩
    · split at h
      · rename_i l hfind
        obtain ⟨before, after, split, digits, wrong⟩ := find?_nibble?_eq_some_iff.mp hfind
        rw [← Except.error.inj h]
        exact ⟨.digit, .digit ends legal (Classical.not_not.mp hlen) (Classical.not_not.mp hcount)
          split digits wrong⟩
      · simp at h

theorem firstFault_of_decodeOctets (ends : EndsIn .v4 m v) (h : decodeOctets v = .error e) :
    ∃ r, FirstFault m r e := by
  have wrong : ∀ bs, ¬ Spelling .v4 v bs := by
    intro bs hv
    rw [decodeOctets_eq_ok_iff.mpr hv] at h
    simp at h
  cases hlabel : (v.splitOn '.').findSome? Label.fault? with
  | some e' =>
    rw [decodeOctets_of_refused hlabel] at h
    rw [← Except.error.inj h]
    exact ⟨.label, firstFault_of_refused ends hlabel⟩
  | none =>
    have legal := Label.findSome?_fault?_eq_none_iff.mp hlabel
    rw [decodeOctets_of_legal legal wrong] at h
    rw [← Except.error.inj h]
    exact ⟨.octets, .octets ends legal wrong⟩

/-- Some first fault explains every error. -/
theorem firstFault_of_decodeName (h : decodeName m = .error e) : ∃ r, FirstFault m r e := by
  rcases endsIn_cases m with ⟨v, ends⟩ | ⟨v, ends⟩ | neither
  · rw [decodeName_of_endsIn_v6 ends] at h
    exact firstFault_of_decodeNibbles ends h
  · rw [decodeName_of_endsIn_v4 ends] at h
    exact firstFault_of_decodeOctets ends h
  · rw [decodeName_of_not_endsIn neither] at h
    rw [← Except.error.inj h]
    exact ⟨.zone, .zone neither⟩

/-- The first fault of a name is its error. -/
theorem FirstFault.decodeName_eq (h : FirstFault m r e) : decodeName m = .error e := by
  cases h with
  | zone neither => exact decodeName_of_not_endsIn neither
  | @label f v l before after cause ends split legal refused =>
    have hlabel := Label.findSome?_fault?_eq_some_iff.mpr ⟨before, l, after, split, refused, legal⟩
    cases f with
    | v4 => rw [decodeName_of_endsIn_v4 ends, decodeOctets_of_refused hlabel]
    | v6 => rw [decodeName_of_endsIn_v6 ends, decodeNibbles_of_refused hlabel]
  | length ends legal wrong =>
    rw [decodeName_of_endsIn_v6 ends, decodeNibbles_of_legal legal, if_pos wrong]
  | count ends legal length wrong =>
    rw [decodeName_of_endsIn_v6 ends, decodeNibbles_of_legal legal, if_neg (not_not_intro length),
      if_pos wrong]
  | @digit v l before after ends legal length count split digits wrong =>
    rw [decodeName_of_endsIn_v6 ends, decodeNibbles_of_legal legal, if_neg (not_not_intro length),
      if_neg (not_not_intro count),
      find?_nibble?_eq_some_iff.mpr ⟨before, after, split, digits, wrong⟩]
  | octets ends legal wrong => rw [decodeName_of_endsIn_v4 ends, decodeOctets_of_legal legal wrong]

theorem decodeName_eq_error_iff : decodeName m = .error e ↔ ∃ r, FirstFault m r e :=
  ⟨firstFault_of_decodeName, fun ⟨_, h⟩ => h.decodeName_eq⟩

/-! ### One reason for each name -/

/-- The reason of an error can be read off it, once it is known whether the name
ends in a zone. -/
def reasonOf (ends : Bool) : Error → Reason
  | .notReversed _ => if ends then .count else .zone
  | .malformedBy .. => .label
  | .length .. => .length
  | .rune .. => .digit
  | _ => .octets

open Classical in
theorem FirstFault.reason_eq (h : FirstFault m r e) :
    r = reasonOf (decide (∃ f v, EndsIn f m v)) e := by
  cases h with
  | zone neither =>
    have hno : ¬ ∃ f v, EndsIn f m v := by
      rintro ⟨f, v, hv⟩
      exact neither f v hv
    simp [reasonOf, hno]
  | count ends _ _ _ =>
    have hyes : ∃ f v, EndsIn f m v := ⟨_, _, ends⟩
    simp [reasonOf, hyes]
  | label | length | digit | octets => rfl

/-- **No name has two first faults.** -/
theorem FirstFault.unique (h : FirstFault m r e) (h' : FirstFault m r' e') : r = r' ∧ e = e' := by
  have he : e = e' := Except.error.inj (h.decodeName_eq.symm.trans h'.decodeName_eq)
  refine ⟨?_, he⟩
  rw [h.reason_eq, h'.reason_eq, he]

/-! ### What an error quotes -/

theorem isInfix_singleton {c : Char} {t : Text} (h : c ∈ t) : [c] <:+: t := by
  obtain ⟨s, u, rfl⟩ := List.append_of_mem h
  exact ⟨s, u, by simp⟩

/-- What a label is refused for is one error, which quotes a part of the label if
anything. -/
theorem cause?_leaf (h : Label.cause? l = some e) :
    e.chain = [e] ∧ ∀ t ∈ e.fragment?, t <:+: l := by
  unfold Label.cause? at h
  split_ifs at h with hlong hnil
  · obtain rfl := Option.some.inj h
    exact ⟨rfl, by simp [Error.fragment?]⟩
  · obtain rfl := Option.some.inj h
    exact ⟨rfl, by simp [Error.fragment?]⟩
  · obtain ⟨c, hc, rfl⟩ := Option.map_eq_some_iff.mp h
    refine ⟨rfl, fun t ht => ?_⟩
    obtain rfl := Option.some.inj ht
    exact isInfix_singleton (Label.mem_of_firstIllegal hc)

theorem EndsIn.isPrefix {f : Family} (h : EndsIn f m v) : v <+: m := by
  obtain ⟨zone, rfl, -⟩ := h
  exact List.prefix_append v zone

/-- One error or two, and each quotes a part of the name if anything. -/
theorem FirstFault.isInfix (h : FirstFault m r e) : (e.chain.length = 1 ∨ e.chain.length = 2) ∧
    ∀ x ∈ e.chain, ∀ t ∈ x.fragment?, t <:+: m := by
  cases h with
  | zone | length | count => simp [Error.chain, Error.fragment?]
  | @label f v l before after cause ends split legal refused =>
    obtain ⟨cause', hc, he⟩ := Label.check_eq_error_iff.mp refused
    obtain ⟨-, -, rfl⟩ := Error.malformedBy.inj he
    obtain ⟨hchain, hpart⟩ := cause?_leaf hc
    have hl : l <:+: m :=
      (Text.isInfix_of_mem_splitOn (by rw [split]; simp)).trans ends.isPrefix.isInfix
    rw [Error.chain, hchain]
    refine ⟨Or.inr rfl, fun x hx t ht => ?_⟩
    rcases List.mem_cons.mp hx with rfl | hx
    · obtain rfl := Option.some.inj ht
      exact hl
    · rw [List.mem_singleton.mp hx] at ht
      exact (hpart t ht).trans hl
  | @digit v l before after ends _ _ _ split _ _ =>
    have hl : l <:+: m :=
      (Text.isInfix_of_mem_splitOn (by rw [split]; simp)).trans ends.isPrefix.isInfix
    simpa [Error.chain, Error.fragment?] using hl
  | octets ends _ _ => simpa [Error.chain, Error.fragment?] using ends.isPrefix.isInfix

/-- **The error of a name is that of its first fault.** The error of the whole
name holds that of the first fault, of which there is one, as its cause; so there
are two or three errors in the chain, and what they quote stands in the name as
received. -/
theorem error_is_first_fault (name : Text) :
    (∀ err, decode name = .error err ↔ ∃ reason cause, FirstFault (dropDot name) reason cause ∧
      err = .malformedBy Subject.reverseName name cause) ∧
    (∀ reason cause reason' cause', FirstFault (dropDot name) reason cause →
      FirstFault (dropDot name) reason' cause' → reason = reason' ∧ cause = cause') ∧
    (∀ err, decode name = .error err → (err.chain.length = 2 ∨ err.chain.length = 3) ∧
      ∀ e ∈ err.chain, ∀ t ∈ e.fragment?, t <:+: name) := by
  have herr : ∀ err, decode name = .error err ↔ ∃ reason cause,
      FirstFault (dropDot name) reason cause ∧ err = .malformedBy Subject.reverseName name cause := by
    intro err
    rw [decode_eq_error_iff_decodeName]
    simp only [decodeName_eq_error_iff]
    constructor
    · rintro ⟨cause, ⟨reason, h⟩, he⟩
      exact ⟨reason, cause, h, he⟩
    · rintro ⟨reason, cause, h, he⟩
      exact ⟨cause, ⟨reason, h⟩, he⟩
  refine ⟨herr, fun _ _ _ _ h h' => h.unique h', fun err h => ?_⟩
  obtain ⟨reason, cause, hf, rfl⟩ := (herr err).mp h
  obtain ⟨hlen, hpart⟩ := hf.isInfix
  rw [Error.chain]
  refine ⟨?_, fun x hx t ht => ?_⟩
  · rw [List.length_cons]
    omega
  · rcases List.mem_cons.mp hx with rfl | hx
    · obtain rfl := Option.some.inj ht
      exact List.infix_rfl
    · exact (hpart x hx t ht).trans (dropDot_isPrefix name).isInfix

theorem error_is_first_fault_hyphen :
    let name := "1.-.256.127.In-Addr.arpa.".toList
    let cause := Error.malformedBy Subject.label ['-'] (.rune Subject.label ['-'])
    let err := Error.malformedBy Subject.reverseName name cause
    decode name = .error err ∧ FirstFault (dropDot name) .label cause ∧
      (∀ reason cause', FirstFault (dropDot name) reason cause' → Reason.label = reason ∧ cause = cause') ∧
      (err.chain.length = 2 ∨ err.chain.length = 3) ∧
      ∀ e ∈ err.chain, ∀ t ∈ e.fragment?, t <:+: name := by
  intro name cause err
  obtain ⟨hiff, hone, hpart⟩ := error_is_first_fault name
  have h : decode name = .error err := by decide +kernel
  have ends : EndsIn .v4 (dropDot name) "1.-.256.127".toList :=
    ⟨".In-Addr.arpa".toList, by decide, by decide⟩
  have hf : FirstFault (dropDot name) .label cause :=
    @FirstFault.label _ _ _ ['-'] [['1']] ["256".toList, "127".toList] _ ends (by decide) (by decide)
      (by decide)
  exact ⟨h, hf, fun r c h' => hone .label cause r c hf h', hpart err h⟩

end ReverseName
end ReverseDns
