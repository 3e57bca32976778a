import OpenELB.GoNet

/-! # Reading back the text of an address

`ParseIP` undoes `IP.String`: the text of a four- or sixteen-byte address parses
to its sixteen-byte form (`parseIP_ipString`).  So two addresses with one text are
one address (`ipString_inj`), which is what lets a map keyed by address text be
counted by addresses.

For IPv4 the text is four decimal fields, and each of the 256 fields reads back.
For IPv6 it is a list of hexadecimal groups with at most one run of zeros cut
out; what has to be seen is that the first `::` of the text is the cut
(`cutEllipsis_colonHex`), and that the groups on its two sides read back. -/
namespace Go

/-! ## Digits -/

theorem hexVal_digitChar {d : Nat} (h : d < 16) : hexVal (Nat.digitChar d) = some d := by
  have key : ∀ d : Fin 16, hexVal (Nat.digitChar d.val) = some d.val := by decide
  exact key ⟨d, h⟩

/-- The characters that separate the parts of an address are no digits. -/
theorem digitChar_ne_sep {d : Nat} (h : d < 16) :
    Nat.digitChar d ≠ '.' ∧ Nat.digitChar d ≠ ':' ∧ Nat.digitChar d ≠ '%' := by
  have key : ∀ d : Fin 16, Nat.digitChar d.val ≠ '.' ∧ Nat.digitChar d.val ≠ ':' ∧
      Nat.digitChar d.val ≠ '%' := by decide
  exact key ⟨d, h⟩

theorem mem_appendDecimal {x : Nat} {c : Char} (hc : c ∈ appendDecimal x) (hx : x < 256) :
    ∃ d, d < 16 ∧ c = Nat.digitChar d := by
  simp only [appendDecimal, List.mem_append] at hc
  rcases hc with (hc | hc) | hc
  · split at hc
    · exact ⟨x / 100, by omega, List.mem_singleton.mp hc⟩
    · cases hc
  · split at hc
    · exact ⟨x / 10 % 10, by omega, List.mem_singleton.mp hc⟩
    · cases hc
  · exact ⟨x % 10, by omega, List.mem_singleton.mp hc⟩

theorem mem_appendHex {x : Nat} {c : Char} (hc : c ∈ appendHex x) :
    ∃ d, d < 16 ∧ c = Nat.digitChar d := by
  simp only [appendHex, List.mem_append] at hc
  rcases hc with ((hc | hc) | hc) | hc
  · split at hc
    · exact ⟨x / 0x1000 % 16, by omega, List.mem_singleton.mp hc⟩
    · cases hc
  · split at hc
    · exact ⟨x / 0x100 % 16, by omega, List.mem_singleton.mp hc⟩
    · cases hc
  · split at hc
    · exact ⟨x / 0x10 % 16, by omega, List.mem_singleton.mp hc⟩
    · cases hc
  · exact ⟨x % 16, by omega, List.mem_singleton.mp hc⟩

theorem appendHex_ne_nil (x : Nat) : appendHex x ≠ [] := by
  simp [appendHex]

theorem colon_notMem_appendHex (x : Nat) : ':' ∉ appendHex x := by
  intro h
  obtain ⟨d, hd, he⟩ := mem_appendHex h
  exact (digitChar_ne_sep hd).2.1 he.symm

/-! ## Dotted quads -/

theorem parseOctet_appendDecimal (b : UInt8) : parseOctet (appendDecimal b.toNat) = some b := by
  have key : ∀ x : Fin 256, parseOctet (appendDecimal x.val) = some (UInt8.ofNat x.val) := by
    decide +kernel
  have h := key ⟨b.toNat, b.toNat_lt⟩
  rwa [UInt8.ofNat_toNat] at h

theorem dot_notMem_appendDecimal (b : UInt8) : '.' ∉ appendDecimal b.toNat := by
  intro h
  obtain ⟨d, hd, he⟩ := mem_appendDecimal h b.toNat_lt
  exact (digitChar_ne_sep hd).1 he.symm

theorem parseIPv4_formatIPv4 {p : IP} (hp : p.length = 4) : parseIPv4 (formatIPv4 p) = some p := by
  obtain ⟨a, b, c, d, rfl⟩ := List.length_eq_four.mp hp
  have hsplit : (formatIPv4 [a, b, c, d]).splitOn '.' =
      [a, b, c, d].map fun x => appendDecimal x.toNat := by
    refine List.splitOn_intercalate '.' ?_ (by simp)
    intro l hl
    obtain ⟨x, -, rfl⟩ := List.mem_map.mp hl
    exact dot_notMem_appendDecimal x
  rw [parseIPv4, hsplit]
  simp [parseOctet_appendDecimal]

/-- The first separator of a dotted quad is a dot. -/
theorem find_formatIPv4 {p : IP} (hp : p.length = 4) :
    (formatIPv4 p).find? (fun c => c = '.' ∨ c = ':' ∨ c = '%') = some '.' := by
  obtain ⟨a, b, c, d, rfl⟩ := List.length_eq_four.mp hp
  have hnone : ∀ x ∈ appendDecimal a.toNat,
      ¬ (decide (x = '.' ∨ x = ':' ∨ x = '%')) = true := by
    intro x hx
    obtain ⟨e, he, rfl⟩ := mem_appendDecimal hx a.toNat_lt
    obtain ⟨h1, h2, h3⟩ := digitChar_ne_sep he
    simp [h1, h2, h3]
  have hfmt : formatIPv4 [a, b, c, d] = appendDecimal a.toNat ++
      '.' :: formatIPv4 [b, c, d] := by
    simp [formatIPv4]
  rw [hfmt, List.find?_append, List.find?_eq_none.mpr hnone]
  simp

/-! ## Groups -/

/-- A group of at most four hexadecimal digits reads back. -/
theorem parseGroup_appendHex {x : Nat} (hx : x < 65536) : parseGroup (appendHex x) = some x := by
  have h0 := hexVal_digitChar (Nat.mod_lt x (show 0 < 16 by omega))
  have h1 := hexVal_digitChar (Nat.mod_lt (x / 0x10) (show 0 < 16 by omega))
  have h2 := hexVal_digitChar (Nat.mod_lt (x / 0x100) (show 0 < 16 by omega))
  have h3 := hexVal_digitChar (Nat.mod_lt (x / 0x1000) (show 0 < 16 by omega))
  -- one case for each number of digits
  rcases Nat.lt_or_ge x 0x10 with c1 | c1
  · rw [appendHex, if_neg (by omega), if_neg (by omega), if_neg (by omega)]
    simp [parseGroup, h0, digitsVal]
    omega
  · rcases Nat.lt_or_ge x 0x100 with c2 | c2
    · rw [appendHex, if_neg (by omega), if_neg (by omega), if_pos c1]
      simp [parseGroup, h0, h1, digitsVal]
      omega
    · rcases Nat.lt_or_ge x 0x1000 with c3 | c3
      · rw [appendHex, if_neg (by omega), if_pos c2, if_pos c1]
        simp [parseGroup, h0, h1, h2, digitsVal]
        omega
      · rw [appendHex, if_pos c3, if_pos c2, if_pos c1]
        simp [parseGroup, h0, h1, h2, h3, digitsVal]
        omega

theorem mapM_parseGroup {gs : List Nat} (h : ∀ g ∈ gs, g < 65536) :
    (gs.map appendHex).mapM parseGroup = some gs := by
  induction gs with
  | nil => rfl
  | cons g gs ih =>
    have hg := parseGroup_appendHex (h g List.mem_cons_self)
    have hgs := ih fun x hx => h x (List.mem_cons_of_mem _ hx)
    simp [List.mapM_cons, hg, hgs]

theorem splitOn_colonHex {gs : List Nat} (hne : gs ≠ []) :
    (colonHex gs).splitOn ':' = gs.map appendHex := by
  refine List.splitOn_intercalate ':' ?_ (by simpa using hne)
  intro l hl
  obtain ⟨x, -, rfl⟩ := List.mem_map.mp hl
  exact colon_notMem_appendHex x

theorem colonHex_cons_cons (g g' : Nat) (gs : List Nat) :
    colonHex (g :: g' :: gs) = appendHex g ++ ':' :: colonHex (g' :: gs) := by
  simp [colonHex]

theorem colonHex_ne_nil {gs : List Nat} (hne : gs ≠ []) : colonHex gs ≠ [] := by
  cases gs with
  | nil => exact absurd rfl hne
  | cons g gs =>
    cases gs with
    | nil => simpa [colonHex] using appendHex_ne_nil g
    | cons g' gs => rw [colonHex_cons_cons]; simp

/-- Every character of a list of groups is a digit or a colon. -/
theorem mem_colonHex {gs : List Nat} {c : Char} (hc : c ∈ colonHex gs) :
    c = ':' ∨ ∃ d, d < 16 ∧ c = Nat.digitChar d := by
  induction gs with
  | nil => simp [colonHex] at hc
  | cons g gs ih =>
    cases gs with
    | nil =>
      simp only [colonHex, List.map_cons, List.map_nil, List.intercalate_singleton] at hc
      exact Or.inr (mem_appendHex hc)
    | cons g' gs =>
      rw [colonHex_cons_cons] at hc
      rcases List.mem_append.mp hc with hc | hc
      · exact Or.inr (mem_appendHex hc)
      · rcases List.mem_cons.mp hc with rfl | hc
        · exact Or.inl rfl
        · exact ih hc

theorem parseGroups_colonHex {gs : List Nat} (h : ∀ g ∈ gs, g < 65536) :
    parseGroups (colonHex gs) = some gs := by
  by_cases hne : gs = []
  · subst hne; rfl
  · rw [parseGroups, if_neg (colonHex_ne_nil hne), splitOn_colonHex hne, mapM_parseGroup h]

/-- The last part of a list of groups is no dotted quad. -/
theorem parseTail_colonHex {gs : List Nat} (h : ∀ g ∈ gs, g < 65536) :
    parseTail (colonHex gs) = some gs := by
  have hdot : ∀ l ∈ (colonHex gs).splitOn ':', '.' ∉ l := by
    by_cases hne : gs = []
    · subst hne; simp [colonHex]
    · rw [splitOn_colonHex hne]
      intro l hl hd
      obtain ⟨x, -, rfl⟩ := List.mem_map.mp hl
      obtain ⟨d, hlt, he⟩ := mem_appendHex hd
      exact (digitChar_ne_sep hlt).1 he.symm
  rw [parseTail]
  split
  · rename_i last hlast
    rw [if_neg (hdot last (List.mem_of_getLast? hlast)), parseGroups_colonHex h]
  · rename_i hlast
    simp at hlast

/-! ## The cut -/

theorem cutEllipsis_cons {a b : Char} (cs : List Char) (h : ¬ (a = ':' ∧ b = ':')) :
    cutEllipsis (a :: b :: cs) = (cutEllipsis (b :: cs)).map fun p => (a :: p.1, p.2) := by
  rw [cutEllipsis, if_neg h]

/-- Text without colons in front of more text only moves the cut. -/
theorem cutEllipsis_append {l cs : List Char} (hl : ':' ∉ l) (hcs : cs ≠ []) :
    cutEllipsis (l ++ cs) = (cutEllipsis cs).map fun p => (l ++ p.1, p.2) := by
  induction l with
  | nil => simp
  | cons a l ih =>
    obtain ⟨ha, hl⟩ : a ≠ ':' ∧ ':' ∉ l :=
      ⟨fun he => hl (he ▸ List.mem_cons_self), fun he => hl (List.mem_cons_of_mem _ he)⟩
    obtain ⟨b, bs, hb⟩ : ∃ b bs, l ++ cs = b :: bs := by
      cases hlc : l ++ cs with
      | nil => exact absurd (List.append_eq_nil_iff.mp hlc).2 hcs
      | cons b bs => exact ⟨b, bs, rfl⟩
    rw [List.cons_append, hb, cutEllipsis_cons bs (fun h => ha h.1), ← hb, ih hl]
    simp [Option.map_map, Function.comp_def]

theorem cutEllipsis_nil_of_notMem {l : List Char} (hl : ':' ∉ l) : cutEllipsis l = none := by
  induction l with
  | nil => rfl
  | cons a l ih =>
    have hl' : ':' ∉ l := fun he => hl (List.mem_cons_of_mem _ he)
    cases l with
    | nil => rfl
    | cons b l =>
      have ha : a ≠ ':' := fun he => hl (he ▸ List.mem_cons_self)
      rw [cutEllipsis_cons l (fun h => ha h.1), ih hl']
      rfl

/-- A colon in front of a group is no cut. -/
theorem cutEllipsis_colon {g : Nat} (cs : List Char) :
    cutEllipsis (':' :: (appendHex g ++ cs)) =
      (cutEllipsis (appendHex g ++ cs)).map fun p => (':' :: p.1, p.2) := by
  cases hg : appendHex g with
  | nil => exact absurd hg (appendHex_ne_nil g)
  | cons b bs =>
    have hb : b ≠ ':' := fun he => colon_notMem_appendHex g (by rw [hg, he]; exact List.mem_cons_self)
    rw [List.cons_append, cutEllipsis_cons _ (fun h => hb h.2)]

/-- A list of groups has no cut. -/
theorem cutEllipsis_colonHex_none (gs : List Nat) : cutEllipsis (colonHex gs) = none := by
  induction gs with
  | nil => rfl
  | cons g gs ih =>
    cases gs with
    | nil =>
      refine cutEllipsis_nil_of_notMem ?_
      simpa [colonHex] using colon_notMem_appendHex g
    | cons g' gs =>
      rw [colonHex_cons_cons, cutEllipsis_append (colon_notMem_appendHex g) (by simp)]
      -- the group after the colon starts with a digit
      obtain ⟨cs, hcs⟩ : ∃ cs, colonHex (g' :: gs) = appendHex g' ++ cs := by
        cases gs with
        | nil => exact ⟨[], by simp [colonHex]⟩
        | cons g'' gs => exact ⟨_, colonHex_cons_cons g' g'' gs⟩
      rw [hcs, cutEllipsis_colon, ← hcs, ih]
      rfl

/-- The first `::` of two lists of groups with `::` between them is the one
between them. -/
theorem cutEllipsis_colonHex (ls : List Nat) (r : List Char) :
    cutEllipsis (colonHex ls ++ ':' :: ':' :: r) = some (colonHex ls, r) := by
  induction ls with
  | nil => simp [colonHex, cutEllipsis]
  | cons g ls ih =>
    cases ls with
    | nil =>
      have hg : colonHex [g] = appendHex g := by simp [colonHex]
      rw [hg, cutEllipsis_append (colon_notMem_appendHex g) (by simp)]
      simp [cutEllipsis]
    | cons g' ls =>
      obtain ⟨cs, hcs⟩ : ∃ cs, colonHex (g' :: ls) = appendHex g' ++ cs := by
        cases ls with
        | nil => exact ⟨[], by simp [colonHex]⟩
        | cons g'' ls => exact ⟨_, colonHex_cons_cons g' g'' ls⟩
      rw [colonHex_cons_cons, List.append_assoc,
        cutEllipsis_append (colon_notMem_appendHex g) (by simp), List.cons_append, hcs,
        List.append_assoc, cutEllipsis_colon, ← List.append_assoc, ← hcs, ih]
      rfl

/-! ## IPv6 addresses -/

theorem leadingZeros_spec (gs : List Nat) :
    gs = List.replicate (leadingZeros gs) 0 ++ gs.drop (leadingZeros gs) := by
  induction gs with
  | nil => rfl
  | cons g gs ih =>
    by_cases hg : g = 0
    · subst hg
      have hz : leadingZeros (0 :: gs) = leadingZeros gs + 1 := by simp [leadingZeros]
      rw [hz, List.replicate_succ, List.cons_append, List.drop_succ_cons, ← ih]
    · have hz : leadingZeros (g :: gs) = 0 := by simp [leadingZeros, hg]
      rw [hz]
      rfl

/-- What the scan for zeros finds is a run of zeros. -/
theorem zeroRun_spec (gs : List Nat) :
    (zeroRun gs).2 = 0 ∨ (zeroRun gs).2 = leadingZeros (gs.drop (zeroRun gs).1) := by
  unfold zeroRun
  generalize List.range gs.length = is
  suffices h : ∀ best : Nat × Nat, (best.2 = 0 ∨ best.2 = leadingZeros (gs.drop best.1)) →
      let r := is.foldl (fun best i =>
        if 2 ≤ leadingZeros (gs.drop i) ∧ best.2 < leadingZeros (gs.drop i)
        then (i, leadingZeros (gs.drop i)) else best) best
      r.2 = 0 ∨ r.2 = leadingZeros (gs.drop r.1) from h (0, 0) (Or.inl rfl)
  induction is with
  | nil => exact fun best h => h
  | cons i is ih =>
    intro best h
    rw [List.foldl_cons]
    apply ih
    split
    · exact Or.inr rfl
    · exact h

theorem length_groups (bs : List UInt8) : (groups bs).length = bs.length / 2 := by
  fun_induction groups bs with
  | case1 a b bs ih => rw [List.length_cons, ih, List.length_cons, List.length_cons]; omega
  | case2 bs h =>
    match bs, h with
    | [], _ => rfl
    | [_], _ => simp
    | a :: b :: bs, h => exact absurd rfl (h a b bs)

theorem groups_lt {bs : List UInt8} {g : Nat} (hg : g ∈ groups bs) : g < 65536 := by
  fun_induction groups bs with
  | case1 a b bs ih =>
    have ha := a.toNat_lt
    have hb := b.toNat_lt
    rcases List.mem_cons.mp hg with rfl | hg
    · omega
    · exact ih hg
  | case2 bs h => cases hg

theorem ofGroups_groups {k : Nat} {bs : List UInt8} (h : bs.length = 2 * k) :
    ofGroups (groups bs) = bs := by
  induction k generalizing bs with
  | zero => rw [List.length_eq_zero_iff.mp h]; rfl
  | succ k ih =>
    match bs, h with
    | a :: b :: bs, h =>
      have ha := a.toNat_lt
      have hb := b.toNat_lt
      have h1 : (a.toNat * 256 + b.toNat) / 256 = a.toNat := by omega
      have h2 : (a.toNat * 256 + b.toNat) % 256 = b.toNat := by omega
      rw [groups, ofGroups, h1, h2, UInt8.ofNat_toNat, UInt8.ofNat_toNat,
        ih (by simp only [List.length_cons] at h; omega)]

/-- **Eight groups read back**, whether or not a run of zeros is cut out. -/
theorem parseIPv6_formatIPv6 {gs : List Nat} (hlen : gs.length = 8) (h : ∀ g ∈ gs, g < 65536) :
    parseIPv6 (formatIPv6 gs) = some (ofGroups gs) := by
  rw [formatIPv6]
  split
  · rw [parseIPv6, cutEllipsis_colonHex_none]
    simp [parseTail_colonHex h, hlen]
  · rename_i hrun
    rcases hz : zeroRun gs with ⟨i, l⟩
    simp only [hz] at hrun ⊢
    have hl : l = leadingZeros (gs.drop i) := by
      have := zeroRun_spec gs
      simp only [hz] at this
      exact this.resolve_left hrun
    -- the groups are those before the run, the run, and those after it
    have hsplit : gs = gs.take i ++ List.replicate l 0 ++ gs.drop (i + l) := by
      have hd := leadingZeros_spec (gs.drop i)
      rw [← hl, List.drop_drop] at hd
      rw [List.append_assoc, ← hd, List.take_append_drop]
    have hlens : (gs.take i).length + l + (gs.drop (i + l)).length = 8 := by
      have := congrArg List.length hsplit
      simp only [List.length_append, List.length_replicate, hlen] at this
      omega
    have hls : parseGroups (colonHex (gs.take i)) = some (gs.take i) :=
      parseGroups_colonHex fun g hg => h g (List.mem_of_mem_take hg)
    have hrs : parseTail (colonHex (gs.drop (i + l))) = some (gs.drop (i + l)) :=
      parseTail_colonHex fun g hg => h g (List.mem_of_mem_drop hg)
    have hfill : 8 - ((gs.take i).length + (gs.drop (i + l)).length) = l := by omega
    rw [parseIPv6, List.append_assoc, List.cons_append, List.cons_append, List.nil_append,
      cutEllipsis_colonHex]
    simp only [hls, hrs]
    rw [if_pos (by omega), hfill, ← hsplit]

/-- The text of an IPv6 address has a colon, and no dot. -/
theorem find_formatIPv6 {gs : List Nat} (hlen : gs.length = 8) :
    (formatIPv6 gs).find? (fun c => c = '.' ∨ c = ':' ∨ c = '%') = some ':' := by
  have hmem : ∀ c ∈ formatIPv6 gs, c = ':' ∨ ∃ d, d < 16 ∧ c = Nat.digitChar d := by
    intro c hc
    rw [formatIPv6] at hc
    split at hc
    · exact mem_colonHex hc
    · rcases List.mem_append.mp hc with hc | hc
      · rcases List.mem_append.mp hc with hc | hc
        · exact mem_colonHex hc
        · left; simpa using hc
      · exact mem_colonHex hc
  have hcolon : ':' ∈ formatIPv6 gs := by
    rw [formatIPv6]
    split
    · match gs, hlen with
      | g :: g' :: gs, _ => rw [colonHex_cons_cons]; simp
    · simp
  cases hf : (formatIPv6 gs).find? (fun c => c = '.' ∨ c = ':' ∨ c = '%') with
  | none => simpa using List.find?_eq_none.mp hf ':' hcolon
  | some c =>
    rcases hmem c (List.mem_of_find?_eq_some hf) with rfl | ⟨d, hd, rfl⟩
    · rfl
    · have hp := List.find?_some hf
      obtain ⟨h1, h2, h3⟩ := digitChar_ne_sep hd
      simp [h1, h2, h3] at hp

/-! ## The round trip -/

/-- An address: four or sixteen bytes. -/
def IsAddr (ip : IP) : Prop := ip.length = 4 ∨ ip.length = 16

instance (ip : IP) : Decidable (IsAddr ip) := inferInstanceAs (Decidable (_ ∨ _))

theorem parseAddr_ipString {ip : IP} (h : IsAddr ip) :
    ∃ form, parseAddr (ipString ip).toList = some (form, to16 ip) := by
  cases hv : to4 ip with
  | some p =>
    refine ⟨.v4, ?_⟩
    have hp := to4_length hv
    rw [ipString, hv, parseAddr]
    simp only [String.toList_ofList, find_formatIPv4 hp, parseIPv4_formatIPv4 hp, Option.map_some]
    rw [to16_of_to4 hv]
  | none =>
    have h16 : ip.length = 16 := by
      rcases h with h | h
      · rw [to4_of_length_four h] at hv; cases hv
      · exact h
    have hg : (groups ip).length = 8 := by rw [length_groups, h16]
    refine ⟨.v6, ?_⟩
    rw [ipString, hv, parseAddr]
    simp only [h16, if_true, String.toList_ofList, find_formatIPv6 hg,
      parseIPv6_formatIPv6 hg (fun _ => groups_lt), Option.map_some,
      ofGroups_groups (show ip.length = 2 * 8 from h16), to16_of_to4_none h16]

/-- **The text of an address parses to its sixteen-byte form.** -/
theorem parseIP_ipString {ip : IP} (h : IsAddr ip) : parseIP (ipString ip) = some (to16 ip) := by
  obtain ⟨form, hf⟩ := parseAddr_ipString h
  rw [parseIP, hf]
  rfl

/-- The sixteen-byte form has the same text. -/
theorem ipString_to16 {ip : IP} (h : IsAddr ip) : ipString (to16 ip) = ipString ip := by
  rcases h with h4 | h16
  · have hto : to16 ip = v4InV6Prefix ++ ip := to16_of_to4 (to4_of_length_four h4)
    rw [hto, ipString, ipString, to4_prefix h4, to4_of_length_four h4]
  · rw [to16_of_to4_none h16]

/-- The text of bytes that are no address is not read back. -/
theorem parseAddr_ipString_none {ip : IP} (h : ¬ IsAddr ip) : parseAddr (ipString ip).toList = none := by
  have hto : to4 ip = none := by
    cases hv : to4 ip with
    | none => rfl
    | some p =>
      refine absurd ?_ h
      by_contra hlen
      rw [IsAddr, not_or] at hlen
      rw [to4, if_neg hlen.1, if_neg fun h16 => hlen.2 h16.1] at hv
      cases hv
  rw [ipString, hto]
  dsimp only
  rw [if_neg fun h16 => h (.inr h16)]
  by_cases hnil : ip = []
  · rw [if_pos hnil]
    decide
  · -- a question mark and hexadecimal digits have no separator
    rw [if_neg hnil, parseAddr, List.find?_eq_none.mpr]
    intro c hc
    simp only [String.toList_append, String.toList_ofList, List.mem_append, List.mem_flatMap] at hc
    rcases hc with hc | ⟨b, -, hc⟩
    · rw [List.mem_singleton.mp hc]
      decide
    · have hb := b.toNat_lt
      have hdigit : ∀ d < 16, ¬ (decide (Nat.digitChar d = '.' ∨ Nat.digitChar d = ':' ∨
          Nat.digitChar d = '%')) = true := by
        intro d hd
        obtain ⟨h1, h2, h3⟩ := digitChar_ne_sep hd
        simp [h1, h2, h3]
      rcases List.mem_pair.mp hc with rfl | rfl
      · exact hdigit _ (by omega)
      · exact hdigit _ (by omega)

/-- **Addresses with one text are one address.** -/
theorem ipString_inj {ip ip' : IP} (h : IsAddr ip) (h' : IsAddr ip')
    (he : ipString ip = ipString ip') : to16 ip = to16 ip' := by
  have h1 := parseIP_ipString h
  rw [he, parseIP_ipString h'] at h1
  exact (Option.some.inj h1).symm

end Go
