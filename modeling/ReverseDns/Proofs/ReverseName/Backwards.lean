/-
# A value before a zone is an address text read backwards

What stands before `in-addr.arpa` is the dotted text of an address with the
octets in reverse order: labels without dots are read as a reverse name exactly
if, last one first, they are read as the text of a four-byte address. What stands
before `ip6.arpa` is the text of an address with its digits in reverse order: 32
letters or digits are read as labels of a reverse name exactly if, last one first
and four to a group, they are read as the text of an address. Either way the
bytes are the same (`decode_backwards`).

Key definition: `Grouped.fours`.
Key theorems: `ReverseName.decode_append_suffix`, `Address.exists_v4_iff`,
`Grouped.read?_fours_iff`, `ReverseName.decode_backwards`.
-/
import ReverseDns.Proofs.Address.Canonical
import ReverseDns.Proofs.ReverseName.Grammar

namespace ReverseDns

/-! ### Four digits to a group -/

namespace Grouped

open ReverseName (IsHexDigit)

variable {tail : Bool} {g : Nat} {ws : List Text} {ds : List Char} {bs : List UInt8}

/-- The characters four at a time; what is left over at the end is dropped. -/
def fours : List Char → List Text
  | a :: b :: c :: d :: rest => [a, b, c, d] :: fours rest
  | _ => []

theorem mem_of_mem_fours {w : Text} {x : Char} : ∀ {ds : List Char}, w ∈ fours ds →
    x ∈ w → x ∈ ds
  | a :: b :: c :: d :: rest, hw, hx => by
    rw [fours] at hw
    rcases List.mem_cons.mp hw with rfl | hw
    · exact List.mem_append_left rest hx
    · exact List.mem_append_right [a, b, c, d] (mem_of_mem_fours hw hx)

theorem length_of_mem_fours {w : Text} : ∀ {ds : List Char}, w ∈ fours ds → w.length = 4
  | a :: b :: c :: d :: rest, hw => by
    rw [fours] at hw
    rcases List.mem_cons.mp hw with rfl | hw
    · rfl
    · exact length_of_mem_fours hw

theorem bytes_cons (g : Nat) (gs : List Nat) :
    bytes (g :: gs) = UInt8.ofNat (g / 256) :: UInt8.ofNat (g % 256) :: bytes gs := rfl

theorem length_bytes : ∀ gs : List Nat, (bytes gs).length = 2 * gs.length
  | [] => rfl
  | g :: gs => by
    rw [bytes_cons, List.length_cons, List.length_cons, length_bytes gs, List.length_cons]
    omega

/-- The nibbles of a group's bytes are its four digits in base sixteen. -/
theorem nibbles_bytes_cons (hg : g < 65536) (gs : List Nat) :
    Bytes.nibbles (bytes (g :: gs)) =
      g / 4096 :: g / 256 % 16 :: g / 16 % 16 :: g % 16 :: Bytes.nibbles (bytes gs) := by
  have hhigh : (UInt8.ofNat (g / 256)).toNat = g / 256 :=
    UInt8.toNat_ofNat_of_lt' (show g / 256 < 256 by omega)
  have hlow : (UInt8.ofNat (g % 256)).toNat = g % 256 :=
    UInt8.toNat_ofNat_of_lt' (show g % 256 < 256 by omega)
  have hfirst : g / 256 / 16 = g / 4096 := by omega
  have hthird : g % 256 / 16 = g / 16 % 16 := by omega
  have hlast : g % 256 % 16 = g % 16 := by omega
  rw [bytes_cons, Bytes.nibbles_cons, Bytes.nibbles_cons, hhigh, hlow, hfirst, hthird, hlast]

/-- Four characters are a group exactly if they are its digits, of either case. -/
theorem readGroup?_four_iff {a b c d : Char} : readGroup? [a, b, c, d] = some g ↔
    g < 65536 ∧ IsHexDigit a (g / 4096) ∧ IsHexDigit b (g / 256 % 16) ∧
      IsHexDigit c (g / 16 % 16) ∧ IsHexDigit d (g % 16) := by
  have hread : readGroup? [a, b, c, d] = (Text.hexDigit? a).bind fun i =>
      (Text.hexDigit? b).bind fun j => (Text.hexDigit? c).bind fun k =>
        (Text.hexDigit? d).bind fun l => some (((i * 16 + j) * 16 + k) * 16 + l) := by
    simp [readGroup?, Text.hexNumber?, Option.bind_assoc]
  rw [hread]
  simp only [Option.bind_eq_some_iff, Option.some.injEq, Text.hexDigit?_eq_some_iff]
  constructor
  · rintro ⟨i, ⟨hi, ha⟩, j, ⟨hj, hb⟩, k, ⟨hk, hc⟩, l, ⟨hl, hd⟩, rfl⟩
    have h1 : (((i * 16 + j) * 16 + k) * 16 + l) / 4096 = i := by omega
    have h2 : (((i * 16 + j) * 16 + k) * 16 + l) / 256 % 16 = j := by omega
    have h3 : (((i * 16 + j) * 16 + k) * 16 + l) / 16 % 16 = k := by omega
    have h4 : (((i * 16 + j) * 16 + k) * 16 + l) % 16 = l := by omega
    rw [h1, h2, h3, h4]
    exact ⟨by omega, ⟨hi, ha⟩, ⟨hj, hb⟩, ⟨hk, hc⟩, ⟨hl, hd⟩⟩
  · rintro ⟨-, ha, hb, hc, hd⟩
    exact ⟨_, ha, _, hb, _, hc, _, hd, by omega⟩

/-! ### Eight groups -/

/-- Groups without a dot are read one by one, wherever a dotted tail may stand. -/
theorem readParts?_eq_some_iff : ∀ {ws : List Text} {gs : List Nat}, (∀ w ∈ ws, '.' ∉ w) →
    (readParts? tail ws = some gs ↔ List.Forall₂ (fun w g => readGroup? w = some g) ws gs)
  | [], gs, _ => by
    rw [readParts?, List.forall₂_nil_left_iff, Option.some.injEq, eq_comm]
  | [w], gs, h => by
    -- The last one could be a dotted tail, but for its lack of a dot.
    have hdot : w.contains '.' = false := by simpa using h w (by simp)
    rw [readParts?, hdot, Bool.and_false, if_neg Bool.false_ne_true, Option.map_eq_some_iff]
    constructor
    · rintro ⟨g, hg, rfl⟩
      exact .cons hg .nil
    · rintro (_ | ⟨hg, ⟨⟩⟩)
      exact ⟨_, hg, rfl⟩
  | w :: v :: ws, gs, h => by
    have ih := fun gs => @readParts?_eq_some_iff (v :: ws) gs
      fun x hx => h x (List.mem_cons_of_mem w hx)
    have hread : readParts? tail (w :: v :: ws) = (readGroup? w).bind fun g =>
        (readParts? tail (v :: ws)).bind fun gs => some (g :: gs) := by
      rw [readParts?]
      · rfl
      · simp
    rw [hread]
    constructor
    · intro hsome
      obtain ⟨g, hg, hrest⟩ := Option.bind_eq_some_iff.mp hsome
      obtain ⟨gs', hgs, heq⟩ := Option.bind_eq_some_iff.mp hrest
      rw [← Option.some.inj heq]
      exact .cons hg ((ih gs').mp hgs)
    · rintro (_ | ⟨hg, hgs⟩)
      rw [hg, (ih _).mpr hgs]
      rfl

/-- Four times as many digits as groups are read as the groups that they are the digits of. -/
theorem forall₂_fours_iff : ∀ {ds : List Char} {gs : List Nat}, ds.length = 4 * gs.length →
    (List.Forall₂ (fun w g => readGroup? w = some g) (fours ds) gs ↔
      (∀ g ∈ gs, g < 65536) ∧ List.Forall₂ IsHexDigit ds (Bytes.nibbles (bytes gs)))
  | ds, [], hl => by
    obtain rfl := List.length_eq_zero_iff.mp hl
    simp [fours, bytes]
  | a :: b :: c :: d :: ds, g :: gs, hl => by
    have ih := @forall₂_fours_iff ds gs (by simp at hl; omega)
    rw [fours, List.forall₂_cons, ih, readGroup?_four_iff, List.forall_mem_cons]
    constructor
    · rintro ⟨⟨hg, ha, hb, hc, hd⟩, hgs, hds⟩
      rw [nibbles_bytes_cons hg]
      exact ⟨⟨hg, hgs⟩, .cons ha (.cons hb (.cons hc (.cons hd hds)))⟩
    · rintro ⟨⟨hg, hgs⟩, hds⟩
      rw [nibbles_bytes_cons hg] at hds
      simp only [List.forall₂_cons] at hds
      obtain ⟨ha, hb, hc, hd, hds⟩ := hds
      exact ⟨⟨hg, ha, hb, hc, hd⟩, hgs, hds⟩

theorem length_fours : ∀ {ds : List Char} {k : Nat}, ds.length = 4 * k → (fours ds).length = k
  | ds, 0, hl => by
    obtain rfl := List.length_eq_zero_iff.mp hl
    rfl
  | a :: b :: c :: d :: ds, k + 1, hl => by
    rw [fours, List.length_cons, length_fours (k := k) (by simp at hl; omega)]

/-- Letters and digits four to a group have nothing else in a group. -/
theorem not_mem_of_mem_fours {w : Text} {x : Char} (hds : ∀ d ∈ ds, d.isAlphanum = true)
    (hx : x.isAlphanum = false) (hw : w ∈ fours ds) : x ∉ w := by
  intro hmem
  rw [hds x (mem_of_mem_fours hw hmem)] at hx
  simp at hx

theorem percent_not_mem_join_fours (hds : ∀ d ∈ ds, d.isAlphanum = true) :
    '%' ∉ Text.join [':'] (fours ds) := by
  intro h
  rcases Text.mem_join h with h | ⟨w, hw, hmem⟩
  · exact absurd h (by decide)
  · exact not_mem_of_mem_fours hds (by decide) hw hmem

theorem colon_mem_join_fours (hl : ds.length = 32) : ':' ∈ Text.join [':'] (fours ds) := by
  have hcount : (fours ds).length = 8 := length_fours hl
  match fours ds, hcount with
  | w :: v :: ws, _ =>
    rw [Text.join_cons_cons]
    simp

/-- Eight words without a dot are the text of the bytes of the groups that they are. -/
theorem read?_join_iff (h8 : ws.length = 8) (hwords : ∀ w ∈ ws, IsWord w)
    (hdot : ∀ w ∈ ws, '.' ∉ w) : read? (Text.join [':'] ws) = some bs ↔
      ∃ gs, List.Forall₂ (fun w g => readGroup? w = some g) ws gs ∧ bytes gs = bs := by
  have hne : ws ≠ [] := List.ne_nil_of_length_pos (by omega)
  have htext : Text.join [':'] ws ≠ [] := by
    obtain ⟨w, ws', rfl⟩ := List.exists_cons_of_ne_nil hne
    obtain ⟨c, r, hr, -⟩ := exists_join_cons (hwords w List.mem_cons_self) ws'
    rw [hr]
    exact List.cons_ne_nil c r
  unfold read? readGroups?
  rw [splitElision_join hwords]
  simp only [if_neg htext, Text.splitOn_join (fun w hw => (hwords w hw).2) hne,
    Option.bind_eq_bind, Option.bind_eq_some_iff, readParts?_eq_some_iff hdot]
  refine exists_congr fun gs => and_congr_right fun hgs => ?_
  rw [if_pos (hgs.length_eq.symm.trans h8)]
  exact Option.some_inj

/-- **Digits four to a group** are the text of sixteen bytes exactly if they are the
nibbles of the bytes, in order. -/
theorem read?_fours_iff (hl : ds.length = 32) (hds : ∀ d ∈ ds, d.isAlphanum = true) :
    read? (Text.join [':'] (fours ds)) = some bs ↔
      bs.length = 16 ∧ List.Forall₂ IsHexDigit ds (Bytes.nibbles bs) := by
  have hcount : (fours ds).length = 8 := length_fours hl
  have hdot : ∀ w ∈ fours ds, '.' ∉ w := fun w => not_mem_of_mem_fours hds (by decide)
  have hwords : ∀ w ∈ fours ds, IsWord w := fun w hw =>
    ⟨List.ne_nil_of_length_pos (by rw [length_of_mem_fours hw]; decide),
      not_mem_of_mem_fours hds (by decide) hw⟩
  rw [read?_join_iff hcount hwords hdot]
  constructor
  · rintro ⟨gs, hgs, rfl⟩
    have h8 : gs.length = 8 := hgs.length_eq.symm.trans hcount
    exact ⟨by rw [length_bytes, h8], ((forall₂_fours_iff (by omega)).mp hgs).2⟩
  · rintro ⟨hsize, hnibbles⟩
    obtain ⟨hbytes, h8⟩ := bytes_groups (k := 8) hsize
    refine ⟨groups bs, (forall₂_fours_iff (by omega)).mpr ⟨groups_lt bs, ?_⟩, hbytes⟩
    rw [hbytes]
    exact hnibbles

end Grouped

/-! ### Dotted texts -/

namespace Address

variable {t : Text} {a : Address} {bs : List UInt8}

theorem family_of_readScoped? (h : readScoped? t = some a) : a.family = .v6 := by
  unfold readScoped? at h
  simp only at h
  obtain ⟨bs, -, hscoped⟩ := Option.bind_eq_some_iff.mp h
  unfold ofScoped? at hscoped
  split at hscoped
  · rw [← Option.some.inj hscoped]
  · simp at hscoped

/-- The texts of four-byte addresses are the dotted ones. -/
theorem exists_v4_iff : (∃ a, ofText t = .ok a ∧ a.family = .v4 ∧ a.bytes = bs) ↔
    Dotted.read? t = some bs := by
  simp only [ofText_eq_ok_iff]
  constructor
  · rintro ⟨a, ha, hfamily, rfl⟩
    unfold read? at ha
    split at ha
    · rename_i bs hbs
      rw [hbs, (ofBytes?_eq_some_iff.mp ha).1]
    · rw [family_of_readScoped? ha] at hfamily
      exact absurd hfamily (by decide)
  · intro h
    have hl := (Dotted.read?_eq_some_iff.mp h).1
    refine ⟨⟨.v4, bs, none, hl, by simp⟩, ?_, rfl, rfl⟩
    unfold read?
    rw [h]
    exact ofBytes?_eq_some_iff.mpr ⟨rfl, rfl⟩

/-- A text with a colon and without a percent sign is read in groups. -/
theorem exists_iff_of_colon (hcolon : ':' ∈ t) (hpercent : '%' ∉ t) :
    (∃ a, ofText t = .ok a ∧ a.bytes = bs) ↔ Grouped.read? t = some bs ∧ bs.length = 16 := by
  have hsplit := splitScope_append hpercent none
  rw [scopeText, List.append_nil] at hsplit
  have hread : read? t = (Grouped.read? t).bind fun bs => ofScoped? bs none := by
    unfold read?
    rw [Dotted.read?_eq_none hcolon (by decide) (by decide)]
    unfold readScoped?
    rw [hsplit]
    rfl
  simp only [ofText_eq_ok_iff, hread, Option.bind_eq_some_iff]
  constructor
  · rintro ⟨a, ⟨bs', hbs, hscoped⟩, rfl⟩
    unfold ofScoped? at hscoped
    split at hscoped
    · rename_i hok
      rw [← Option.some.inj hscoped]
      exact ⟨hbs, hok.1⟩
    · simp at hscoped
  · rintro ⟨hbs, hl⟩
    exact ⟨⟨.v6, bs, none, hl, by simp⟩, ⟨bs, hbs, dif_pos ⟨hl, by simp⟩⟩, rfl⟩

end Address

namespace ReverseName

variable {f : Family} {v : Text} {ts : List Text} {bs : List UInt8}

/-- A name in a zone is read as its value is. -/
theorem decode_append_suffix : decode (v ++ f.suffix) = .ok bs ↔ Spelling f v bs := by
  have hends : EndsIn f (v ++ f.suffix) v := ⟨f.suffix, rfl, by cases f <;> decide⟩
  rw [decode_eq_ok_iff, dropDot_of_getLast?_ne hends.getLast?_ne]
  constructor
  · rintro ⟨g, w, hw, h⟩
    obtain ⟨rfl, rfl⟩ := hends.unique hw
    exact h
  · intro h
    exact ⟨f, v, hends, h⟩

/-! ### Octets before the zone -/

theorem forall₂_isDecimal_iff : List.Forall₂ Octet.IsDecimal ts bs ↔ ts = bs.map Octet.text :=
  ⟨eq_map_text, fun h => h ▸ forall₂_isDecimal_text bs⟩

/-- Labels spell four bytes if they are their decimal numbers, last one first. -/
theorem spelling_join_iff (hts : ∀ t ∈ ts, '.' ∉ t) (hne : ts ≠ []) :
    Spelling .v4 (Text.join ['.'] ts) bs ↔
      bs.length = 4 ∧ List.Forall₂ Octet.IsDecimal ts bs.reverse := by
  refine ⟨fun h => ?_, fun ⟨size, each⟩ => .octets size each⟩
  generalize hv : Text.join ['.'] ts = v at h
  cases h with
  | octets size each =>
    have hsplit := splitOn_octets size each
    rw [← hv, Text.splitOn_join hts hne] at hsplit
    exact ⟨size, forall₂_isDecimal_iff.mpr hsplit⟩

/-- The same labels, last one first, are the dotted text of the bytes. -/
theorem read?_join_reverse_iff (hts : ∀ t ∈ ts, '.' ∉ t) (hne : ts ≠ []) :
    Dotted.read? (Text.join ['.'] ts.reverse) = some bs ↔
      bs.length = 4 ∧ List.Forall₂ Octet.IsDecimal ts bs.reverse := by
  have hdots : ∀ t ∈ bs.map Octet.text, '.' ∉ t := by
    intro t ht
    obtain ⟨b, -, rfl⟩ := List.mem_map.mp ht
    exact Octet.not_mem_text b (by decide)
  rw [Dotted.read?_eq_some_iff, forall₂_isDecimal_iff, List.map_reverse]
  refine and_congr_right fun hl => ?_
  have hbs : bs.map Octet.text ≠ [] := List.ne_nil_of_length_pos (by rw [List.length_map, hl]; decide)
  have hjoin : Text.join ['.'] ts.reverse = Dotted.text bs ↔ ts.reverse = bs.map Octet.text :=
    Text.join_inj (fun t ht => hts t (List.mem_reverse.mp ht)) (by simpa using hne) hdots hbs
  rw [hjoin, List.reverse_eq_iff]

/-! ### Digits before the zone -/

/-- Labels of one character spell sixteen bytes if they are their nibbles, last one first. -/
theorem spelling_singletons_iff {cs : List Char} (hcs : '.' ∉ cs) (hne : cs ≠ []) :
    Spelling .v6 (Text.join ['.'] (cs.map fun c => [c])) bs ↔
      bs.length = 16 ∧ List.Forall₂ IsHexDigit cs (Bytes.nibbles bs).reverse := by
  refine ⟨fun h => ?_, fun ⟨size, each⟩ => .nibbles size each⟩
  have hdots : ∀ t ∈ cs.map fun c => [c], '.' ∉ t := by
    intro t ht hdot
    obtain ⟨c, hc, rfl⟩ := List.mem_map.mp ht
    exact hcs (List.mem_singleton.mp hdot ▸ hc)
  generalize hv : Text.join ['.'] (cs.map fun c => [c]) = v at h
  cases h with
  | @nibbles ds _ size each =>
    have hsplit := splitOn_nibbles size each
    rw [← hv, Text.splitOn_join hdots (by simpa using hne)] at hsplit
    rw [List.map_injective_iff.mpr List.singleton_injective hsplit]
    exact ⟨size, each⟩

/-- **A value before a zone is an address text read backwards.** Labels without dots
before `in-addr.arpa` are read exactly if, last one first, they are the dotted text of
a four-byte address; 32 letters or digits before `ip6.arpa` are read exactly if, last
one first and four to a group, they are the text of an address. The bytes are those of
the address, and what is read are their decimal numbers and their hexadecimal digits. -/
theorem decode_backwards :
    (∀ (ls : List Text) (bs : List UInt8), ls ≠ [] → (∀ l ∈ ls, '.' ∉ l) →
      (decode (Text.join ['.'] ls ++ Family.suffix .v4) = .ok bs ↔
        ∃ a, Address.ofText (Text.join ['.'] ls.reverse) = .ok a ∧ a.family = .v4 ∧
          a.bytes = bs) ∧
      (decode (Text.join ['.'] ls ++ Family.suffix .v4) = .ok bs ↔
        bs.length = 4 ∧ List.Forall₂ Octet.IsDecimal ls bs.reverse)) ∧
    ∀ (cs : List Char) (bs : List UInt8), cs.length = 32 → (∀ c ∈ cs, c.isAlphanum = true) →
      (decode (Text.join ['.'] (cs.map fun c => [c]) ++ Family.suffix .v6) = .ok bs ↔
        ∃ a, Address.ofText (Text.join [':'] (Grouped.fours cs.reverse)) = .ok a ∧
          a.bytes = bs) ∧
      (decode (Text.join ['.'] (cs.map fun c => [c]) ++ Family.suffix .v6) = .ok bs ↔
        bs.length = 16 ∧ List.Forall₂ IsHexDigit cs (Bytes.nibbles bs).reverse) := by
  refine ⟨fun ls bs hne hls => ?_, fun cs bs hl hcs => ?_⟩
  · -- Both readers come down to the same words, one octet each.
    rw [decode_append_suffix, spelling_join_iff hls hne, Address.exists_v4_iff,
      read?_join_reverse_iff hls hne]
    exact ⟨Iff.rfl, Iff.rfl⟩
  · have hdot : '.' ∉ cs := fun h => absurd (hcs '.' h) (by decide)
    have hne : cs ≠ [] := List.ne_nil_of_length_pos (by omega)
    have hrev : ∀ c ∈ cs.reverse, c.isAlphanum = true := fun c hc => hcs c (List.mem_reverse.mp hc)
    have hlen : cs.reverse.length = 32 := by rw [List.length_reverse, hl]
    have hcolon := Grouped.colon_mem_join_fours hlen
    have hpercent := Grouped.percent_not_mem_join_fours hrev
    rw [decode_append_suffix, spelling_singletons_iff hdot hne,
      Address.exists_iff_of_colon hcolon hpercent, Grouped.read?_fours_iff hlen hrev,
      ← List.forall₂_reverse_iff, List.reverse_reverse]
    exact ⟨(and_iff_left_of_imp And.left).symm, Iff.rfl⟩

/-- Leading zeros stand in a group of digits and not in an octet. -/
theorem decode_backwards_leading_zeros :
    let cs := '1' :: (List.replicate 23 '0' ++ "8Bd01002".toList)
    let bs := [0x20, 1, 0x0d, 0xb8] ++ List.replicate 11 0 ++ [1]
    (∃ a, Address.ofText "127.0.0.1".toList = .ok a ∧ a.family = .v4 ∧ a.bytes = [127, 0, 0, 1]) ∧
      (¬ ∃ a, Address.ofText "127.0.0.01".toList = .ok a ∧ a.family = .v4 ∧
        a.bytes = [127, 0, 0, 1]) ∧
      (∃ a, Address.ofText "2001:0dB8:0000:0000:0000:0000:0000:0001".toList = .ok a ∧
        a.bytes = bs) ∧
      List.Forall₂ IsHexDigit cs (Bytes.nibbles bs).reverse := by
  intro cs bs
  have hwide : decode (Text.join ['.'] (cs.map fun c => [c]) ++ Family.suffix .v6) = .ok bs := by
    decide +kernel
  have hdigits := decode_backwards.2 cs bs rfl (List.all_eq_true.mp rfl)
  refine ⟨?_, ?_, hdigits.1.mp hwide, (hdigits.2.mp hwide).2⟩
  · exact (decode_backwards.1 [['1'], ['0'], ['0'], "127".toList] [127, 0, 0, 1] (by decide)
      (by decide)).1.mp (by decide +kernel)
  · have h := (decode_backwards.1 ["01".toList, ['0'], ['0'], "127".toList] [127, 0, 0, 1]
      (by decide) (by decide)).1
    exact fun ha => absurd (h.mpr ha) (by decide +kernel)

end ReverseName
end ReverseDns
