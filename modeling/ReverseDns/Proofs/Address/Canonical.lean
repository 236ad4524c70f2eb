/-
# The text of an address is canonical

An address is read from many texts and written as one. A group is written as its
shortest lower-case digits (`Grouped.isGroup_toDigits`), and `::` stands for the
leftmost of the longest runs of zeros, if that run has two groups or more
(`Grouped.isLongest_longestRun`, `Grouped.canonical_compressed`); two colons meet
nowhere else (`Grouped.elidesOnce_compressed`). As an address is read back from its
text, two texts are written alike exactly if they are read as one address
(`Address.text_canonical`).

Key definitions: `Grouped.IsGroup`, `Grouped.IsRun`, `Grouped.IsLongest`,
`Grouped.Canonical`, `Grouped.ElidesOnce`.
Key theorems: `Grouped.isLongest_longestRun`, `Grouped.canonical_compressed`,
`Grouped.elidesOnce_compressed`, `Address.text_canonical`.
-/
import ReverseDns.Proofs.Address.Text
import ReverseDns.ReverseName.Query

namespace ReverseDns
namespace Grouped

variable {g : Nat} {gs : List Nat} {t x y x' y' : Text}

/-! ### One group -/

/-- A group as it is written: it is read as the group, its digits are in lower
case, and no zero stands in front of another digit. -/
structure IsGroup (g : Nat) (w : Text) : Prop where
  value : readGroup? w = some g
  digits : ∀ c ∈ w, ('0' ≤ c ∧ c ≤ '9') ∨ ('a' ≤ c ∧ c ≤ 'f')
  leading : w.head? = some '0' → w = ['0']

theorem isGroup_toDigits (h : g < 65536) : IsGroup g (Nat.toDigits 16 g) where
  value := readGroup?_toDigits h
  digits c hc := by
    have hlower : ∀ d < 16, ('0' ≤ Nat.digitChar d ∧ Nat.digitChar d ≤ '9') ∨
        ('a' ≤ Nat.digitChar d ∧ Nat.digitChar d ≤ 'f') := by decide
    obtain ⟨d, hd, rfl⟩ := mem_toDigits hc
    exact hlower d hd
  leading hzero := by
    rcases Nat.eq_zero_or_pos g with rfl | hpos
    · exact Nat.toDigits_zero 16
    · exact absurd hzero (Octet.head?_toDigits_ne_zero 16 (by decide) (by decide) g hpos)

theorem forall₂_isGroup : ∀ {gs : List Nat}, (∀ g ∈ gs, g < 65536) →
    List.Forall₂ IsGroup gs (gs.map (Nat.toDigits 16))
  | [], _ => .nil
  | _ :: _, h => .cons (isGroup_toDigits (h _ List.mem_cons_self))
      (forall₂_isGroup fun g hg => h g (List.mem_cons_of_mem _ hg))

/-! ### The leftmost of the longest runs of zeros -/

/-- The `length` groups from `start` on are zeros. -/
def IsRun (gs : List Nat) (start length : Nat) : Prop :=
  ∀ i, start ≤ i → i < start + length → gs[i]? = some 0

/-- No run of zeros is longer, and none as long begins further left. -/
structure IsLongest (gs : List Nat) (start length : Nat) : Prop where
  run : IsRun gs start length
  longest : ∀ s n, IsRun gs s n → n ≤ length
  leftmost : ∀ s, IsRun gs s length → start ≤ s

/-- A run at the beginning is as long as there are zeros in front. -/
theorem isRun_zero_iff : ∀ {gs : List Nat} {n : Nat},
    IsRun gs 0 n ↔ n ≤ (gs.takeWhile (· == 0)).length
  | _, 0 => by simp [IsRun]
  | [], n + 1 => by
    refine ⟨fun h => ?_, fun h => by simp at h⟩
    have hfirst := h 0 (Nat.le_refl 0) (by omega)
    simp at hfirst
  | g :: gs, n + 1 => by
    have ih := @isRun_zero_iff gs n
    constructor
    · intro h
      obtain rfl : g = 0 := by simpa using h 0 (Nat.le_refl 0) (by omega)
      have hrest : IsRun gs 0 n := fun i _ hi => by
        simpa using h (i + 1) (Nat.zero_le _) (by omega)
      simpa using ih.mp hrest
    · intro h i _ hi
      by_cases hg : g = 0
      · rw [List.takeWhile_cons_of_pos (by simp [hg]), List.length_cons] at h
        cases i with
        | zero => simp [hg]
        | succ i => simpa using ih.mpr (by omega) i (Nat.zero_le i) (by omega)
      · rw [List.takeWhile_cons_of_neg (by simp [hg])] at h
        simp at h

theorem isRun_cons_succ {start n : Nat} : IsRun (g :: gs) (start + 1) n ↔ IsRun gs start n := by
  constructor
  · intro h i hi hlt
    simpa using h (i + 1) (by omega) (by omega)
  · intro h i hi hlt
    obtain ⟨j, rfl⟩ : ∃ j, i = j + 1 := ⟨i - 1, by omega⟩
    simpa using h j (by omega) (by omega)

/-- **The run that is found is the leftmost of the longest.** -/
theorem isLongest_longestRun : ∀ gs : List Nat, IsLongest gs (longestRun gs).1 (longestRun gs).2
  | [] => by
    refine ⟨fun i _ hi => absurd hi (Nat.not_lt_zero i), fun s n h => ?_, fun s _ => Nat.zero_le s⟩
    by_contra hn
    have hfirst := h s (Nat.le_refl s) (by simp [longestRun] at hn; omega)
    simp at hfirst
  | g :: gs => by
    obtain ⟨hrun, hlongest, hleftmost⟩ := isLongest_longestRun gs
    rw [longestRun_cons]
    split
    · -- The zeros in front win, also against a later run of their length.
      rename_i hle
      refine ⟨isRun_zero_iff.mpr (Nat.le_refl _), fun s n h => ?_, fun s _ => Nat.zero_le s⟩
      cases s with
      | zero => exact isRun_zero_iff.mp h
      | succ s => exact Nat.le_trans (hlongest s n (isRun_cons_succ.mp h)) hle
    · rename_i hlt
      refine ⟨isRun_cons_succ.mpr hrun, fun s n h => ?_, fun s h => ?_⟩
      · cases s with
        | zero =>
          have hn := isRun_zero_iff.mp h
          omega
        | succ s => exact hlongest s n (isRun_cons_succ.mp h)
      · cases s with
        | zero => exact absurd (isRun_zero_iff.mp h) hlt
        | succ s => exact Nat.succ_le_succ (hleftmost s (isRun_cons_succ.mp h))

/-! ### The canonical text -/

/-- The canonical text of groups: all of them with colons between if no two zeros
stand side by side, else `::` for the leftmost of the longest runs of zeros between
those before it and those after it. -/
inductive Canonical (gs : List Nat) : Text → Prop
  | full {words : List Text} (short : ∀ s n, IsRun gs s n → n < 2)
      (written : List.Forall₂ IsGroup gs words) : Canonical gs (Text.join [':'] words)
  | elided {start length : Nat} {high low : List Text} (long : 2 ≤ length)
      (run : IsLongest gs start length)
      (before : List.Forall₂ IsGroup (gs.take start) high)
      (after : List.Forall₂ IsGroup (gs.drop (start + length)) low) :
      Canonical gs (Text.join [':'] high ++ ':' :: ':' :: Text.join [':'] low)

theorem canonical_compressed (h : ∀ g ∈ gs, g < 65536) : Canonical gs (compressed gs) := by
  have hrun := isLongest_longestRun gs
  unfold compressed
  simp only
  split
  · rename_i hshort
    exact .full (fun s n hs => Nat.lt_of_le_of_lt (hrun.longest s n hs) hshort) (forall₂_isGroup h)
  · rename_i hlong
    exact .elided (Nat.le_of_not_lt hlong) hrun
      (forall₂_isGroup fun g hg => h g (List.mem_of_mem_take hg))
      (forall₂_isGroup fun g hg => h g (List.mem_of_mem_drop hg))

/-! ### Where two colons meet -/

/-- Two colons meet in one place at most. -/
def ElidesOnce (t : Text) : Prop :=
  ∀ x y x' y' : Text, t = x ++ ':' :: ':' :: y → t = x' ++ ':' :: ':' :: y' → x = x' ∧ y = y'

theorem splitElision_append_ne_none : ∀ (x y : Text), splitElision (x ++ ':' :: ':' :: y) ≠ none
  | [], _ => by simp [splitElision]
  | [c], y => by
    by_cases hc : c = ':'
    · subst hc
      simp [splitElision]
    · rw [List.singleton_append, splitElision_cons hc]
      simp [splitElision]
  | c :: d :: x, y => by
    have ih := splitElision_append_ne_none (d :: x) y
    by_cases hc : c = ':'
    · subst hc
      by_cases hd : d = ':'
      · subst hd
        simp [splitElision]
      · rw [List.cons_append, List.cons_append, splitElision_colon hd]
        simpa using ih
    · rw [List.cons_append, splitElision_cons hc]
      simpa using ih

/-- The place where a text is cut is the only one if no two colons meet from the
second colon on. -/
theorem eq_of_splitElision {t : Text} : ∀ {x y x' y' : Text}, splitElision t = some (x, y) →
    splitElision (':' :: y) = none → t = x' ++ ':' :: ':' :: y' → x' = x ∧ y' = y := by
  fun_induction splitElision t with
  | case1 => simp
  | case2 rest =>
    intro x y x' y' hcut hrest ht
    obtain ⟨rfl, rfl⟩ := Prod.mk.inj (Option.some.inj hcut)
    cases x' with
    | nil => simpa using ht.symm
    | cons c x' =>
      obtain ⟨-, htail⟩ := List.cons.inj ht
      rw [htail] at hrest
      exact absurd hrest (splitElision_append_ne_none x' y')
  | case3 c rest hne ih =>
    intro x y x' y' hcut hrest ht
    obtain ⟨⟨high, low⟩, hnext, heq⟩ := Option.map_eq_some_iff.mp hcut
    obtain ⟨rfl, rfl⟩ := Prod.mk.inj heq
    cases x' with
    | nil =>
      obtain ⟨rfl, rfl⟩ := List.cons.inj ht
      exact (hne y' rfl rfl).elim
    | cons d x' =>
      obtain ⟨rfl, htail⟩ := List.cons.inj ht
      obtain ⟨rfl, rfl⟩ := ih hnext hrest htail
      exact ⟨rfl, rfl⟩

/-- Behind a single colon no two colons meet in the text of groups. -/
theorem splitElision_colon_joined (gs : List Nat) : splitElision (':' :: joined gs) = none := by
  have hjoined : splitElision (joined gs) = none := splitElision_join (forall_isWord gs)
  cases gs with
  | nil => rfl
  | cons g gs =>
    obtain ⟨c, r, hr, hc⟩ := exists_join_cons (isWord_toDigits g) (gs.map (Nat.toDigits 16))
    have hcons : joined (g :: gs) = c :: r := hr
    rw [hcons] at hjoined ⊢
    rw [splitElision_colon hc, hjoined]
    rfl

/-- **The text of groups has `::` once at most.** -/
theorem elidesOnce_compressed (gs : List Nat) : ElidesOnce (compressed gs) := by
  intro x y x' y' h h'
  unfold compressed at h h'
  simp only at h h'
  split at h
  · have hnone : splitElision (joined gs) = none := splitElision_join (forall_isWord gs)
    rw [h] at hnone
    exact absurd hnone (splitElision_append_ne_none x y)
  · rename_i hlong
    rw [if_neg hlong] at h'
    have hcut := splitElision_join_append (forall_isWord (gs.take (longestRun gs).1))
      (joined (gs.drop ((longestRun gs).1 + (longestRun gs).2)))
    have hrest := splitElision_colon_joined (gs.drop ((longestRun gs).1 + (longestRun gs).2))
    obtain ⟨rfl, rfl⟩ := eq_of_splitElision hcut hrest h
    obtain ⟨rfl, rfl⟩ := eq_of_splitElision hcut hrest h'
    exact ⟨rfl, rfl⟩

end Grouped

/-! ### Addresses -/

namespace Address

variable {t : Text} {a b : Address}

theorem ofText_eq_ok_iff : ofText t = .ok a ↔ read? t = some a := by
  unfold ofText
  cases read? t <;> simp

/-- Every address is read from its text. -/
theorem ofText_text (a : Address) : ofText a.text = .ok a := ofText_eq_ok_iff.mpr (read?_text a)

theorem text_inj : a.text = b.text ↔ a = b := by
  refine ⟨fun h => ?_, fun h => h ▸ rfl⟩
  have hread := read?_text a
  rw [h, read?_text, Option.some.injEq] at hread
  exact hread.symm

/-- The family of an address is told by how many bytes it has, so an address is its
bytes and its scope. -/
theorem eq_iff : a = b ↔
    a.family.version = b.family.version ∧ a.bytes = b.bytes ∧ a.scope = b.scope := by
  refine ⟨fun h => h ▸ ⟨rfl, rfl, rfl⟩, fun ⟨hversion, hbytes, hscope⟩ => ?_⟩
  obtain ⟨f, bs, scope, hl, hok⟩ := a
  obtain ⟨f', bs', scope', hl', hok'⟩ := b
  have hfamily : f = f' := by cases f <;> cases f' <;> simp [Family.version] at hversion ⊢
  simp only at hbytes hscope
  subst hfamily hbytes hscope
  rfl

/-- Four bytes, and sixteen with or without a scope, make an address. -/
theorem exists_of_bytes {bs : List UInt8} {scope : Option Text}
    (h : (bs.length = 4 ∧ scope = none) ∨ (bs.length = 16 ∧ ∀ s ∈ scope, IsScope s)) :
    ∃ a : Address, a.bytes = bs ∧ a.scope = scope := by
  rcases h with ⟨hl, rfl⟩ | ⟨hl, hs⟩
  · exact ⟨⟨.v4, bs, none, hl, by simp⟩, rfl, rfl⟩
  · exact ⟨⟨.v6, bs, scope, hl, fun s hmem => ⟨rfl, hs s hmem⟩⟩, rfl, rfl⟩

/-- The text of a sixteen-byte address is canonical up to its scope. -/
theorem canonical_text (h : a.family = .v6) : ∃ body, a.text = body ++ scopeText a.scope ∧
    Grouped.Canonical (Grouped.groups a.bytes) body ∧ Grouped.ElidesOnce body := by
  refine ⟨Grouped.text a.bytes, ?_, Grouped.canonical_compressed (Grouped.groups_lt a.bytes),
    Grouped.elidesOnce_compressed _⟩
  unfold text
  rw [h]

/-- **Every address is read back from its text, which is canonical.** Four bytes, and
sixteen with or without a scope, make an address that is read from its text; what is
read from any text is read again from the text it is written as; two texts are written
alike exactly if they have version, bytes and scope in common; and a sixteen-byte
address is written in the canonical form of its groups. -/
theorem text_canonical :
    (∀ bs scope,
      (bs.length = 4 ∧ scope = none) ∨ (bs.length = 16 ∧ ∀ s ∈ scope, IsScope s) →
        ∃ a : Address, a.bytes = bs ∧ a.scope = scope ∧ a.family.size = bs.length ∧
          ofText a.text = .ok a) ∧
    (∀ t a, ofText t = .ok a → ofText a.text = .ok a) ∧
    (∀ t u a b, ofText t = .ok a → ofText u = .ok b → (a.text = b.text ↔
      a.family.version = b.family.version ∧ a.bytes = b.bytes ∧ a.scope = b.scope)) ∧
    ∀ a : Address, a.family = .v6 → (Grouped.groups a.bytes).length = 8 ∧
      ∃ body, a.text = body ++ scopeText a.scope ∧
        Grouped.Canonical (Grouped.groups a.bytes) body ∧ Grouped.ElidesOnce body := by
  refine ⟨fun bs scope h => ?_, fun _ a _ => ofText_text a, fun _ _ _ _ _ _ => text_inj.trans eq_iff,
    fun a h => ⟨?_, canonical_text h⟩⟩
  · obtain ⟨a, rfl, rfl⟩ := exists_of_bytes h
    exact ⟨a, rfl, rfl, a.length_bytes.symm, ofText_text a⟩
  · exact (Grouped.bytes_groups (k := 8) (by rw [a.length_bytes, h]; rfl)).2

/-- Two runs of the same length, a dotted tail and a scope. -/
theorem text_canonical_two_runs :
    let t := "2001:DB8:0:0:1:0:0.0.0.1%eth0".toList
    let u := "2001:db8::1:0:0:1%eth0".toList
    ∃ a b, ofText t = .ok a ∧ ofText u = .ok b ∧ a.text = b.text ∧ a.text = u ∧
      ofText a.text = .ok a ∧ a.family = .v6 ∧ ∃ body, a.text = body ++ scopeText a.scope ∧
        Grouped.Canonical (Grouped.groups a.bytes) body ∧ Grouped.ElidesOnce body := by
  intro t u
  obtain ⟨-, hagain, halike, hcanonical⟩ := text_canonical
  have hread : ∃ b, ofText t = .ok b ∧ ofText u = .ok b ∧ b.text = u ∧ b.family = .v6 := by
    refine ⟨⟨.v6, [0x20, 1, 0x0d, 0xb8, 0, 0, 0, 0, 0, 1, 0, 0, 0, 0, 0, 1], some "eth0".toList, rfl,
      by decide⟩, ?_⟩
    decide +kernel
  obtain ⟨b, ht, hu, htext, hfamily⟩ := hread
  exact ⟨b, b, ht, hu, (halike t u b b ht hu).mpr ⟨rfl, rfl, rfl⟩, htext, hagain t b ht, hfamily,
    (hcanonical b hfamily).2⟩

end Address
end ReverseDns
