/-
# The checks before the nibbles suffice

What stands before `ip6.arpa` is read by steps that are not made for everything: a
label is taken for a digit if it is a single character, a number is read from one
hexadecimal digit, a nibble is fetched from a place in a list, and a byte holds a
number below 256. No check asks for just that. What is checked is each label by
itself, the length of the name and the number of labels, and that is enough because
32 labels and the dots between them have room in 63 characters only if each label
is a single one (`EndsIn.labels_of_length`).

`Stepwise.decodeNibbles` makes the same checks and then goes step by step, and it
halts where a step is made outside its bounds. It never does: it reads every value
before the zone as `decodeNibbles` reads it (`EndsIn.stepwise_eq`).

Key definitions: `ReverseName.Halt`, `ReverseName.Stepwise.decodeNibbles`.
Key theorems: `ReverseName.EndsIn.labels_of_length`, `ReverseName.EndsIn.stepwise_eq`,
`ReverseName.decodeNibbles_within_bounds`.
-/
import ReverseDns.Proofs.Label.Position
import ReverseDns.Proofs.ReverseName.FirstFault

namespace ReverseDns
namespace ReverseName

/-! ### Reading step by step -/

/-- Why a reading that goes step by step ends without bytes. -/
inductive Halt
  /-- The value is refused with an error. -/
  | refused (e : Error)
  /-- A label that is not a single character is taken for a digit. -/
  | label (l : Text)
  /-- A number is read from a text that is not one hexadecimal digit. -/
  | number (l : Text)
  /-- A nibble is fetched from a place where none is. -/
  | place (i : Nat)
  /-- A number above 255 is put into a byte. -/
  | byte (n : Nat)
deriving DecidableEq, Repr

namespace Stepwise

/-- The hexadecimal digits of either case. -/
def digits : List Char := "0123456789abcdefABCDEF".toList

/-- The texts that are one of them. -/
def digitLabels : List Text := digits.map fun c => [c]

/-- The number that one hexadecimal digit denotes. -/
def number (l : Text) : Except Halt Nat :=
  match nibble? l with
  | some n => .ok n
  | none => .error (.number l)

/-- The nibble that a label denotes, unless the label is no digit. -/
def nibble (l : Text) : Except Halt Nat :=
  if l.length ≠ 1 then .error (.label l)
  else if digitLabels.contains l then number l
  else .error (.refused (.rune Subject.reverseName l))

/-- The nibble at a place. -/
def fetch (ns : List Nat) (i : Nat) : Except Halt Nat :=
  match ns[i]? with
  | some n => .ok n
  | none => .error (.place i)

/-- A number as a byte. -/
def byte (n : Nat) : Except Halt UInt8 :=
  if n < 256 then .ok (UInt8.ofNat n) else .error (.byte n)

/-- The byte whose high nibble is at a place and whose low one is behind it. -/
def pair (ns : List Nat) (i : Nat) : Except Halt UInt8 := do
  let high ← fetch ns i
  let low ← fetch ns (i + 1)
  byte (high <<< 4 ||| low)

/-- Labels as digits, last one first, and every second place the beginning of a
byte. -/
def assemble (labels : List Text) : Except Halt (List UInt8) := do
  let nibbles ← labels.mapM nibble
  (List.range' 0 (Family.labelCount .v6 / 2) 2).mapM (pair nibbles.reverse)

/-- Reads what stands before `ip6.arpa`, as `ReverseName.decodeNibbles` does. -/
def decodeNibbles (length : Nat) (value : Text) : Except Halt (List UInt8) :=
  let labels := value.splitOn '.'
  match labels.findSome? Label.fault? with
  | some e => .error (.refused e)
  | none =>
    if length ≠ wideLength then
      .error (.refused (.length Subject.reverseName length (some wideLength) none))
    else if labels.length ≠ Family.labelCount .v6 then
      .error (.refused (.notReversed Error.notReversedText))
    else assemble labels

end Stepwise

variable {m v l : Text} {ls : List Text}

/-! ### Counting labels -/

/-- **32 labels at most**, and 32 exactly if each is a single character. -/
theorem EndsIn.labels_of_length (ends : EndsIn .v6 m v) (hlength : m.length = 72)
    (hne : ∀ l ∈ v.splitOn '.', l ≠ []) :
    (v.splitOn '.').length ≤ 32 ∧
      ((v.splitOn '.').length = 32 ↔ ∀ l ∈ v.splitOn '.', l.length = 1) := by
  have hzone : (Family.suffix .v6).length = 9 := rfl
  have hvalue : v.length = 63 := by
    have := ends.length
    omega
  obtain ⟨hle, heq⟩ := Text.two_mul_length_splitOn hne
  rw [hvalue] at hle heq
  rw [← heq]
  omega

/-- What has passed the checks is a list of single characters. -/
theorem EndsIn.length_label (ends : EndsIn .v6 m v)
    (legal : ∀ l ∈ v.splitOn '.', Label.check l = .ok ()) (hlength : m.length = 72)
    (hcount : (v.splitOn '.').length = 32) : ∀ l ∈ v.splitOn '.', l.length = 1 := by
  have hne : ∀ l ∈ v.splitOn '.', l ≠ [] := fun l hl =>
    List.ne_nil_of_length_pos (Label.check_eq_ok_iff_isValid.mp (legal l hl)).1
  exact (ends.labels_of_length hlength hne).2.mp hcount

/-! ### Labels to nibbles -/

namespace Stepwise

/-- The digits that a label is looked up in are those that denote a number. -/
theorem mem_digits_iff {c : Char} : c ∈ digits ↔ (Text.hexDigit? c).isSome = true := by
  have hdigits : ∀ d ∈ digits, (Text.hexDigit? d).isSome = true := List.all_eq_true.mp rfl
  have hascii : ∀ n < 128, (Text.hexDigit? (Char.ofNat n)).isSome = true → Char.ofNat n ∈ digits := by
    decide +kernel
  constructor
  · exact fun h => hdigits c h
  · intro h
    obtain ⟨n, hn⟩ := Option.isSome_iff_exists.mp h
    exact Text.forall_ascii (P := fun d => (Text.hexDigit? d).isSome = true → d ∈ digits)
      hascii (Text.toNat_lt_of_hexDigit? hn) h

theorem contains_digitLabels (c : Char) : digitLabels.contains [c] = (Text.hexDigit? c).isSome := by
  rw [Bool.eq_iff_iff, ← mem_digits_iff, List.contains_iff_mem]
  simp [digitLabels]

/-- A single character is read as a number if it is a digit, and refused if not. -/
theorem nibble_of_length (h : l.length = 1) : nibble l =
    match nibble? l with
    | some n => .ok n
    | none => .error (.refused (.rune Subject.reverseName l)) := by
  obtain ⟨c, rfl⟩ := List.length_eq_one_iff.mp h
  have hdigit : nibble? [c] = Text.hexDigit? c := rfl
  unfold nibble number
  rw [if_neg (not_not_intro h), contains_digitLabels, hdigit]
  cases Text.hexDigit? c <;> rfl

/-- The labels are read from the left, up to the first that is no digit. -/
theorem mapM_nibble : ∀ {ls : List Text}, (∀ l ∈ ls, l.length = 1) → ls.mapM nibble =
    match ls.find? fun l => (nibble? l).isNone with
    | some l => .error (.refused (.rune Subject.reverseName l))
    | none => .ok (ls.filterMap nibble?)
  | [], _ => rfl
  | l :: ls, h => by
    obtain ⟨hl, hls⟩ := List.forall_mem_cons.mp h
    rw [List.mapM_cons, mapM_nibble hls, nibble_of_length hl, List.find?_cons, List.filterMap_cons]
    cases nibble? l with
    | none => rfl
    | some n =>
      simp only [Option.isNone_some]
      cases ls.find? (fun l => (nibble? l).isNone) <;> rfl

/-! ### Nibbles to bytes -/

/-- Two nibbles fit in a byte. -/
theorem byte_of_lt {high low : Nat} (hhigh : high < 16) (hlow : low < 16) :
    byte (high <<< 4 ||| low) = .ok (UInt8.ofNat (high * 16 + low)) := by
  have hor : high <<< 4 ||| low = high * 16 + low := by
    rw [Nat.shiftLeft_eq, Nat.mul_comm, ← Nat.two_pow_add_eq_or_of_lt (i := 4) hlow]
  unfold byte
  rw [hor, if_pos (by omega)]

theorem pair_append (before ns : List Nat) {high low : Nat} (hhigh : high < 16) (hlow : low < 16) :
    pair (before ++ high :: low :: ns) before.length = .ok (UInt8.ofNat (high * 16 + low)) := by
  have hfirst : (before ++ high :: low :: ns)[before.length]? = some high := by simp
  have hsecond : (before ++ high :: low :: ns)[before.length + 1]? = some low := by simp
  unfold pair fetch
  rw [hfirst, hsecond]
  exact byte_of_lt hhigh hlow

/-- Pairs from every second place on make the bytes of the nibbles that are left
behind those that were taken. -/
theorem mapM_pair : ∀ {ns : List Nat} {k : Nat} (before : List Nat), ns.length = 2 * k →
    (∀ n ∈ ns, n < 16) →
    (List.range' before.length k 2).mapM (pair (before ++ ns)) = .ok (Bytes.ofNibbles ns)
  | [], k, _, hk, _ => by
    obtain rfl : k = 0 := by
      simp only [List.length_nil] at hk
      omega
    rfl
  | [n], k, _, hk, _ => by
    simp only [List.length_singleton] at hk
    omega
  | high :: low :: ns, k, before, hk, hlt => by
    obtain ⟨hhigh, hrest⟩ := List.forall_mem_cons.mp hlt
    obtain ⟨hlow, hns⟩ := List.forall_mem_cons.mp hrest
    cases k with
    | zero => simp at hk
    | succ k =>
      -- The two nibbles go over to those taken, and the places stay as they are.
      have ih := mapM_pair (before ++ [high, low]) (by simpa [Nat.mul_succ] using hk) hns
      have hlist : before ++ [high, low] ++ ns = before ++ high :: low :: ns := by simp
      have hplace : (before ++ [high, low]).length = before.length + 2 := by simp
      rw [hlist, hplace] at ih
      rw [List.range'_succ, List.mapM_cons, pair_append before ns hhigh hlow]
      simp only [bind, Except.bind, ih]
      rfl

/-- **No step from the labels to the bytes leaves its bounds** if there are 32 of one
character each. -/
theorem assemble_eq (hcount : ls.length = 32) (hlabels : ∀ l ∈ ls, l.length = 1) : assemble ls =
    match ls.find? fun l => (nibble? l).isNone with
    | some l => .error (.refused (.rune Subject.reverseName l))
    | none => .ok (Bytes.ofNibbles (ls.filterMap nibble?).reverse) := by
  unfold assemble
  rw [mapM_nibble hlabels]
  cases hfind : ls.find? fun l => (nibble? l).isNone with
  | some l => rfl
  | none =>
    obtain ⟨ds, ns, rfl, hds⟩ := find?_nibble?_eq_none_iff.mp hfind
    have hlength : ns.reverse.length = 2 * 16 := by
      rw [List.length_reverse, ← hds.length_eq]
      simpa using hcount
    rw [filterMap_nibble? hds]
    exact mapM_pair [] hlength fun n hn => lt_of_forall₂ hds n (List.mem_reverse.mp hn)

theorem decodeNibbles_of_refused {n : Nat} {e : Error}
    (h : (v.splitOn '.').findSome? Label.fault? = some e) :
    Stepwise.decodeNibbles n v = .error (.refused e) := by
  unfold Stepwise.decodeNibbles
  simp only [h]

theorem decodeNibbles_of_legal {n : Nat} (legal : ∀ l ∈ v.splitOn '.', Label.check l = .ok ()) :
    Stepwise.decodeNibbles n v =
      if n ≠ 72 then .error (.refused (.length Subject.reverseName n (some 72) none))
      else if (v.splitOn '.').length ≠ 32 then .error (.refused (.notReversed Error.notReversedText))
      else assemble (v.splitOn '.') := by
  unfold Stepwise.decodeNibbles
  simp only [Label.findSome?_fault?_eq_none_iff.mpr legal]
  rfl

end Stepwise

/-! ### Values before the zone -/

/-- **Step by step a value is read as it is at once**, so that no step halts for
anything but an error of the value. -/
theorem EndsIn.stepwise_eq (ends : EndsIn .v6 m v) :
    Stepwise.decodeNibbles m.length v = (decodeNibbles m.length v).mapError .refused := by
  cases hlabel : (v.splitOn '.').findSome? Label.fault? with
  | some e =>
    rw [Stepwise.decodeNibbles_of_refused hlabel, decodeNibbles_of_refused hlabel]
    rfl
  | none =>
    have legal := Label.findSome?_fault?_eq_none_iff.mp hlabel
    rw [Stepwise.decodeNibbles_of_legal legal, decodeNibbles_of_legal legal]
    split_ifs with hlength hcount
    · rfl
    · rfl
    · rw [ne_eq, Classical.not_not] at hlength hcount
      rw [Stepwise.assemble_eq hcount (ends.length_label legal hlength hcount)]
      cases (v.splitOn '.').find? (fun l => (nibble? l).isNone) <;> rfl

/-- Only a label before the zone is refused as a character. -/
theorem EndsIn.length_rune (ends : EndsIn .v6 m v) {subject r : Text}
    (h : decodeNibbles m.length v = .error (.rune subject r)) : r.length = 1 := by
  obtain ⟨reason, hfault⟩ := firstFault_of_decodeNibbles ends h
  cases hfault with
  | @digit w _ before after ends' legal hlength hcount split digits wrong =>
    exact ends'.length_label legal hlength hcount r (by rw [split]; simp)

/-- **The checks before the nibbles suffice.** In a name of 72 characters that ends in
`ip6.arpa` and has no empty label before it there are at most 32 labels, and 32 exactly
if each is a single character; so each label is one when the checks are passed. Step by
step every value before the zone is read as it is at once, and no step is made outside
its bounds: the reading ends with sixteen bytes or with an error, and a label that is
refused for not being a digit is a single character. -/
theorem decodeNibbles_within_bounds (m v : Text) (ends : EndsIn .v6 m v) :
    (m.length = 72 → (∀ l ∈ v.splitOn '.', l ≠ []) →
      (v.splitOn '.').length ≤ 32 ∧
        ((v.splitOn '.').length = 32 ↔ ∀ l ∈ v.splitOn '.', l.length = 1)) ∧
    ((∀ l ∈ v.splitOn '.', Label.check l = .ok ()) → m.length = 72 →
      (v.splitOn '.').length = 32 → ∀ l ∈ v.splitOn '.', l.length = 1) ∧
    Stepwise.decodeNibbles m.length v = (decodeNibbles m.length v).mapError .refused ∧
    ((∃ bs, Stepwise.decodeNibbles m.length v = .ok bs ∧ bs.length = 16) ∨
      ∃ e, Stepwise.decodeNibbles m.length v = .error (.refused e)) ∧
    ∀ subject r, decodeNibbles m.length v = .error (.rune subject r) → r.length = 1 := by
  refine ⟨ends.labels_of_length, ends.length_label, ends.stepwise_eq, ?_,
    fun _ _ => ends.length_rune⟩
  rw [ends.stepwise_eq]
  cases h : decodeNibbles m.length v with
  | ok bs => exact Or.inl ⟨bs, rfl, ((decodeNibbles_eq_ok_iff ends.length).mp h).size⟩
  | error e => exact Or.inr ⟨e, rfl⟩

/-- The loopback address, and the same name with a first label that is a letter but no
digit. -/
theorem decodeNibbles_within_bounds_letter :
    let zeros := (List.replicate 31 ".0".toList).flatten
    let bytes : List UInt8 := List.replicate 15 0 ++ [1]
    let value := '1' :: zeros
    let bad := 'g' :: zeros
    EndsIn .v6 (value ++ ".IP6.Arpa".toList) value ∧ EndsIn .v6 (bad ++ ".ip6.arpa".toList) bad ∧
      Stepwise.decodeNibbles 72 value = .ok bytes ∧ bytes.length = 16 ∧
      Stepwise.decodeNibbles 72 bad = .error (.refused (.rune Subject.reverseName ['g'])) ∧
      (bad.splitOn '.').length ≤ 32 ∧ ∀ l ∈ bad.splitOn '.', l.length = 1 := by
  intro zeros bytes value bad
  have ends : EndsIn .v6 (value ++ ".IP6.Arpa".toList) value := ⟨_, rfl, by decide⟩
  have ends' : EndsIn .v6 (bad ++ ".ip6.arpa".toList) bad := ⟨_, rfl, by decide⟩
  have hok : decodeNibbles 72 value = .ok bytes := by decide +kernel
  have herror : decodeNibbles 72 bad = .error (.rune Subject.reverseName ['g']) := by decide +kernel
  have hne : ∀ l ∈ bad.splitOn '.', l ≠ [] := by decide +kernel
  have hlegal : ∀ l ∈ bad.splitOn '.', Label.check l = .ok () := by decide +kernel
  have hcount : (bad.splitOn '.').length = 32 := by decide +kernel
  obtain ⟨-, -, heq, -, -⟩ := decodeNibbles_within_bounds _ _ ends
  obtain ⟨hmost, hsingle, heq', -, -⟩ := decodeNibbles_within_bounds _ _ ends'
  exact ⟨ends, ends', heq.trans (congrArg _ hok), rfl, heq'.trans (congrArg _ herror),
    (hmost rfl hne).1, hsingle hlegal rfl hcount⟩

end ReverseName
end ReverseDns
