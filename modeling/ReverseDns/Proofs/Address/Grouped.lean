/-
# Grouped addresses are read as they are written

A group below `2 ^ 16` is read back from its digits (`readGroup?_toDigits`). The
text of eight groups is either all of them with colons between, in which no two
colons meet (`splitElision_join`), or the groups before and after the longest
run of zeros with `::` between, which is then the first place where two colons
meet (`splitElision_join_append`); the run is as long as what reading puts back
for the `::` (`take_replicate_drop`). So the bytes come back (`read?_text`).

Key theorems: `Grouped.take_replicate_drop`, `Grouped.splitElision_join_append`,
`Grouped.readGroups?_joined`, `Grouped.read?_text`.
-/
import ReverseDns.Address.Grouped
import ReverseDns.Proofs.Octet
import ReverseDns.Proofs.Text.Words

namespace ReverseDns
namespace Grouped

variable {c : Char} {g : Nat} {gs : List Nat} {t u v w : Text} {ws : List Text}

/-! ### One group -/

theorem mem_toDigits : ∀ {n : Nat}, c ∈ Nat.toDigits 16 n → ∃ d < 16, c = Nat.digitChar d := by
  intro n
  induction n using Nat.strongRecOn with
  | ind n ih =>
    intro h
    by_cases hn : n < 16
    · rw [Nat.toDigits_of_lt_base hn] at h
      exact ⟨n, hn, List.mem_singleton.mp h⟩
    · rw [Nat.toDigits_of_base_le (by omega) (by omega)] at h
      rcases List.mem_append.mp h with h | h
      · exact ih (n / 16) (by omega) h
      · exact ⟨n % 16, Nat.mod_lt n (by omega), List.mem_singleton.mp h⟩

/-- No character but a hexadecimal digit stands in a group. -/
theorem not_mem_toDigits (h : Text.hexDigit? c = none) (n : Nat) : c ∉ Nat.toDigits 16 n := by
  intro hc
  obtain ⟨d, hd, hcd⟩ := mem_toDigits hc
  exact Text.ne_digitChar h hd hcd

theorem hexNumber?_concat (t : Text) (c : Char) : Text.hexNumber? (t ++ [c]) =
    (Text.hexNumber? t).bind fun n => (Text.hexDigit? c).bind fun d => some (n * 16 + d) := by
  unfold Text.hexNumber?
  rw [List.foldl_append]
  rfl

theorem hexNumber?_toDigits : ∀ n : Nat, Text.hexNumber? (Nat.toDigits 16 n) = some n := by
  intro n
  induction n using Nat.strongRecOn with
  | ind n ih =>
    by_cases hn : n < 16
    · rw [Nat.toDigits_of_lt_base hn]
      have h := hexNumber?_concat [] (Nat.digitChar n)
      rw [Text.hexDigit?_digitChar n hn] at h
      simpa [Text.hexNumber?] using h
    · rw [Nat.toDigits_of_base_le (by omega) (by omega), hexNumber?_concat, ih (n / 16) (by omega),
        Text.hexDigit?_digitChar (n % 16) (Nat.mod_lt n (by omega))]
      simp only [Option.bind_some, Option.some.injEq]
      omega

/-- A group is read back from its digits. -/
theorem readGroup?_toDigits (h : g < 65536) : readGroup? (Nat.toDigits 16 g) = some g := by
  have hl : (Nat.toDigits 16 g).length ≤ 4 :=
    (Nat.length_toDigits_le_iff (by omega) (by omega)).mpr (by omega)
  unfold readGroup?
  rw [if_neg, hexNumber?_toDigits]
  rintro (h' | h')
  · exact Nat.toDigits_ne_nil h'
  · omega

/-! ### Bytes and groups -/

theorem groups_cons_cons (high low : UInt8) (bs : List UInt8) :
    groups (high :: low :: bs) = (high.toNat * 256 + low.toNat) :: groups bs := rfl

theorem groups_lt : ∀ bs : List UInt8, ∀ g ∈ groups bs, g < 65536
  | [], g, h => by simp [groups] at h
  | [_], g, h => by simp [groups] at h
  | high :: low :: bs, g, h => by
    have h1 := high.toNat_lt
    have h2 := low.toNat_lt
    rw [groups_cons_cons] at h
    rcases List.mem_cons.mp h with rfl | h
    · omega
    · exact groups_lt bs g h

/-- An even number of bytes is what its groups are made of. -/
theorem bytes_groups : ∀ {bs : List UInt8} {k : Nat}, bs.length = 2 * k →
    bytes (groups bs) = bs ∧ (groups bs).length = k
  | [], k, hl => ⟨rfl, by simp [groups] at hl ⊢; omega⟩
  | [_], k, hl => by simp at hl; omega
  | high :: low :: bs, k, hl => by
    cases k with
    | zero => simp at hl
    | succ k =>
      have ih := @bytes_groups bs k (by simp at hl; omega)
      have h1 := high.toNat_lt
      have h2 := low.toNat_lt
      have hh : (high.toNat * 256 + low.toNat) / 256 = high.toNat := by omega
      have hlow : (high.toNat * 256 + low.toNat) % 256 = low.toNat := by omega
      have hb : bytes (groups (high :: low :: bs)) = high :: low :: bytes (groups bs) := by
        rw [groups_cons_cons]
        unfold bytes
        rw [List.flatMap_cons, hh, hlow, UInt8.ofNat_toNat, UInt8.ofNat_toNat]
        rfl
      exact ⟨by rw [hb, ih.1], by rw [groups_cons_cons, List.length_cons, ih.2]⟩

/-! ### The longest run of zeros -/

theorem longestRun_cons (g : Nat) (gs : List Nat) : longestRun (g :: gs) =
    if (longestRun gs).2 ≤ ((g :: gs).takeWhile (· == 0)).length
    then (0, ((g :: gs).takeWhile (· == 0)).length)
    else ((longestRun gs).1 + 1, (longestRun gs).2) := rfl

/-- The zeros in front and what follows them. -/
theorem replicate_append_drop : ∀ gs : List Nat, List.replicate (gs.takeWhile (· == 0)).length 0 ++
    gs.drop (gs.takeWhile (· == 0)).length = gs
  | [] => rfl
  | g :: gs => by
    by_cases hg : g = 0
    · have ih := replicate_append_drop gs
      rw [List.takeWhile_cons_of_pos (by simp [hg]), List.length_cons, List.replicate_succ,
        List.drop_succ_cons, List.cons_append, ih, hg]
    · rw [List.takeWhile_cons_of_neg (by simp [hg])]
      rfl

/-- What stands at the longest run are zeros, as many as it is long. -/
theorem take_replicate_drop : ∀ gs : List Nat,
    gs.take (longestRun gs).1 ++ (List.replicate (longestRun gs).2 0 ++
      gs.drop ((longestRun gs).1 + (longestRun gs).2)) = gs
  | [] => rfl
  | g :: gs => by
    rw [longestRun_cons]
    split
    · rw [List.take_zero, List.nil_append, Nat.zero_add, replicate_append_drop]
    · have hd : (longestRun gs).1 + 1 + (longestRun gs).2 =
          (longestRun gs).1 + (longestRun gs).2 + 1 := by omega
      rw [List.take_succ_cons, hd, List.drop_succ_cons, List.cons_append, take_replicate_drop gs]

/-! ### Where two colons meet -/

theorem splitElision_cons (h : c ≠ ':') (t : Text) : splitElision (c :: t) =
    (splitElision t).map fun p => (c :: p.1, p.2) := by
  rw [splitElision]
  intro r hc _
  exact h hc

theorem splitElision_colon (h : c ≠ ':') (t : Text) : splitElision (':' :: c :: t) =
    (splitElision (c :: t)).map fun p => (':' :: p.1, p.2) := by
  rw [splitElision]
  intro r _ hr
  exact h (List.cons.inj hr).1

/-- A word without colons is no part of where they meet. -/
theorem splitElision_append : ∀ {w : Text}, ':' ∉ w → ∀ t : Text, splitElision (w ++ t) =
    (splitElision t).map fun p => (w ++ p.1, p.2)
  | [], _, t => by simp
  | c :: w, h, t => by
    have hc : c ≠ ':' := by
      rintro rfl
      simp at h
    rw [List.cons_append, splitElision_cons hc, splitElision_append (List.not_mem_of_not_mem_cons h),
      Option.map_map]
    rfl

/-- A word between colons is not empty and has no colon in it. -/
def IsWord (w : Text) : Prop := w ≠ [] ∧ ':' ∉ w

/-- Joined words begin with no colon. -/
theorem exists_join_cons (hw : IsWord w) (ws : List Text) :
    ∃ c r, Text.join [':'] (w :: ws) = c :: r ∧ c ≠ ':' := by
  obtain ⟨hne, hno⟩ := hw
  cases w with
  | nil => exact absurd rfl hne
  | cons c w =>
    refine ⟨c, w ++ (Text.join [':'] ([] :: ws)), ?_, ?_⟩
    · cases ws with
      | nil => simp
      | cons x ws =>
        rw [Text.join_cons_cons, Text.join_cons_cons]
        simp
    · rintro rfl
      simp at hno

theorem splitElision_join_cons_cons (hw : IsWord w) (hv : IsWord v) :
    splitElision (Text.join [':'] (w :: v :: ws) ++ u) =
      (splitElision (Text.join [':'] (v :: ws) ++ u)).map fun p => (w ++ ':' :: p.1, p.2) := by
  obtain ⟨c, r, hr⟩ := exists_join_cons hv ws
  have hj : Text.join [':'] (w :: v :: ws) ++ u = w ++ ':' :: c :: (r ++ u) := by
    rw [Text.join_cons_cons, hr.1]
    simp
  rw [hj, hr.1, splitElision_append hw.2, splitElision_colon hr.2, Option.map_map]
  rfl

/-- In words with single colons between them no two colons meet. -/
theorem splitElision_join : ∀ {ws : List Text}, (∀ w ∈ ws, IsWord w) →
    splitElision (Text.join [':'] ws) = none
  | [], _ => rfl
  | [w], h => by
    have := splitElision_append (h w (by simp)).2 []
    rw [List.append_nil] at this
    rw [Text.join_singleton, this]
    rfl
  | w :: v :: ws, h => by
    have hs := @splitElision_join_cons_cons [] v w ws (h w (by simp)) (h v (by simp))
    rw [List.append_nil, List.append_nil] at hs
    rw [hs, splitElision_join fun x hx => h x (List.mem_cons_of_mem w hx)]
    rfl

/-- After such words `::` is the first place where two colons meet. -/
theorem splitElision_join_append : ∀ {ws : List Text}, (∀ w ∈ ws, IsWord w) → ∀ t : Text,
    splitElision (Text.join [':'] ws ++ ':' :: ':' :: t) = some (Text.join [':'] ws, t)
  | [], _, t => rfl
  | [w], h, t => by
    rw [Text.join_singleton, splitElision_append (h w (by simp)).2]
    simp [splitElision]
  | w :: v :: ws, h, t => by
    rw [splitElision_join_cons_cons (h w (by simp)) (h v (by simp)),
      splitElision_join_append fun x hx => h x (List.mem_cons_of_mem w hx)]
    rw [Option.map_some, Text.join_cons_cons]
    simp

/-! ### Groups with colons between them -/

theorem isWord_toDigits (g : Nat) : IsWord (Nat.toDigits 16 g) :=
  ⟨Nat.toDigits_ne_nil, not_mem_toDigits (by decide) g⟩

theorem forall_isWord (gs : List Nat) : ∀ w ∈ gs.map (Nat.toDigits 16), IsWord w := by
  intro w hw
  obtain ⟨g, -, rfl⟩ := List.mem_map.mp hw
  exact isWord_toDigits g

theorem readParts?_map (tail : Bool) : ∀ {gs : List Nat}, (∀ g ∈ gs, g < 65536) →
    readParts? tail (gs.map (Nat.toDigits 16)) = some gs
  | [], _ => rfl
  | [g], h => by
    have hdot : (Nat.toDigits 16 g).contains '.' = false := by
      simpa using not_mem_toDigits (by decide) g
    simp only [List.map_cons, List.map_nil, readParts?]
    rw [hdot, Bool.and_false, readGroup?_toDigits (h g (by simp))]
    rfl
  | g :: k :: gs, h => by
    have ih := readParts?_map tail fun x hx => h x (List.mem_cons_of_mem g hx)
    simp only [List.map_cons] at ih ⊢
    rw [readParts?, readGroup?_toDigits (h g (by simp)), ih]
    · rfl
    · simp

theorem joined_ne_nil (h : gs ≠ []) : joined gs ≠ [] := by
  intro hj
  have hs := Text.splitOn_join (fun w hw => (forall_isWord gs w hw).2) (by simpa using h)
  rw [show Text.join [':'] (gs.map (Nat.toDigits 16)) = [] from hj, List.splitOn_nil] at hs
  have hmem : [] ∈ gs.map (Nat.toDigits 16) := by rw [← hs]; simp
  exact (forall_isWord gs [] hmem).1 rfl

/-- Groups are read back from their text, also where a dotted tail may stand. -/
theorem readGroups?_joined (tail : Bool) (h : ∀ g ∈ gs, g < 65536) :
    readGroups? tail (joined gs) = some gs := by
  by_cases hgs : gs = []
  · subst hgs
    rfl
  · unfold readGroups?
    rw [if_neg (joined_ne_nil hgs)]
    unfold joined
    rw [Text.splitOn_join (fun w hw => (forall_isWord gs w hw).2) (by simpa using hgs)]
    exact readParts?_map tail h

/-! ### Sixteen bytes -/

theorem read?_joined (hl : gs.length = 8) (h : ∀ g ∈ gs, g < 65536) :
    read? (joined gs) = some (bytes gs) := by
  unfold read?
  rw [show splitElision (joined gs) = none from splitElision_join (forall_isWord gs)]
  simp [readGroups?_joined true h, hl]

/-- Groups with `::` for zeros between them are read as those with the zeros. -/
theorem read?_elided {hs ls : List Nat} {n : Nat} (hl : hs.length + n + ls.length = 8) (hn : 1 ≤ n)
    (hhs : ∀ g ∈ hs, g < 65536) (hls : ∀ g ∈ ls, g < 65536) :
    read? (joined hs ++ ':' :: ':' :: joined ls) =
      some (bytes (hs ++ (List.replicate n 0 ++ ls))) := by
  have hsplit : splitElision (joined hs ++ ':' :: ':' :: joined ls) = some (joined hs, joined ls) :=
    splitElision_join_append (forall_isWord hs) (joined ls)
  have hfill : 8 - (hs.length + ls.length) = n := by omega
  have hle : hs.length + ls.length ≤ 7 := by omega
  unfold read?
  rw [hsplit]
  simp [readGroups?_joined _ hhs, readGroups?_joined _ hls, hfill, hle]

theorem read?_compressed (hl : gs.length = 8) (h : ∀ g ∈ gs, g < 65536) :
    read? (compressed gs) = some (bytes gs) := by
  have hrun := take_replicate_drop gs
  unfold compressed
  simp only
  split
  · exact read?_joined hl h
  · rename_i hlong
    have hlen := congrArg List.length hrun
    rw [List.length_append, List.length_append, List.length_replicate, hl] at hlen
    rw [read?_elided (n := (longestRun gs).2) (by omega) (by omega)
      (fun g hg => h g (List.mem_of_mem_take hg)) (fun g hg => h g (List.mem_of_mem_drop hg)), hrun]

/-- **Sixteen bytes are read back from their text.** -/
theorem read?_text {bs : List UInt8} (h : bs.length = 16) : read? (text bs) = some bs := by
  obtain ⟨hb, hl⟩ := bytes_groups (k := 8) h
  unfold text
  rw [read?_compressed hl (groups_lt bs), hb]

end Grouped
end ReverseDns
