import OpenELB.Admission
import OpenELB.GoAddrText
import OpenELB.IpRange

/-! # The two readers of an address text

`Eip.GetSize` reads the address of a pool for the webhook and the bookkeeping, and
`iprange.ParseRange` for the allocation and the speakers.  `parsers_agree_iff` says for
which texts they find the same pool.

Both read the three forms of `readPool`.  `ParseRange` first makes all letters small,
which the parsers do not see, and then chooses by patterns: so a prefix length with more
than three digits, which `GetSize` accepts, is no block for it.  It wants both ends of a
range, and the first and the last address of a block, in one family, which `GetSize` does
not look at.  And it counts without a limit, where `GetSize` counts in 64 bits. -/
namespace OpenELB
open Go IpRange

/-! ## Ranges of two addresses -/

section Ends
variable {x y : IP}

/-- `New` makes a range of two addresses of one family in order. -/
theorem IpRange.new_eq (hx : x.length = 16) (hy : y.length = 16) :
    new x y = if (to4 x).isSome = (to4 y).isSome ∧ beNat x ≤ beNat y then
      some ⟨if (to4 x).isSome then .v4Family else .v6Family, x, y⟩ else none := by
  have hle := le_iff_beNat_le (hx.trans hy.symm)
  have hx16 : to16 x ≠ [] := by
    rw [to16_of_to4_none hx]
    rintro rfl
    cases hx
  have hy16 : to16 y ≠ [] := by
    rw [to16_of_to4_none hy]
    rintro rfl
    cases hy
  rw [new]
  simp only [isV4RangeValid, isV6RangeValid, isV6IP, isV4IP, hle]
  by_cases hx4 : (to4 x).isSome <;> by_cases hy4 : (to4 y).isSome <;> simp [hx4, hy4, hx16, hy16]

/-- `Size` counts the addresses. -/
theorem IpRange.size_eq (hx : x.length = 16) (hy : y.length = 16)
    (hfam : (to4 x).isSome = (to4 y).isSome) :
    (Range.mk (if (to4 x).isSome then .v4Family else .v6Family) x y).size =
      (beNat y : Int) - beNat x + 1 := by
  have hsub := ipToBigInt_sub hy hx hfam.symm
  rw [← hsub]
  cases hx4 : to4 x with
  | some p =>
    cases hy4 : to4 y with
    | some q =>
      show v4ToInt y - v4ToInt x + 1 = _
      rw [v4ToInt, v4ToInt, hx4, hy4, ipToBigInt, ipToBigInt, hx4, hy4]
      rfl
    | none =>
      rw [hx4, hy4] at hfam
      cases hfam
  | none =>
    cases hy4 : to4 y with
    | some q =>
      rw [hx4, hy4] at hfam
      cases hfam
    | none =>
      show (beNat y : Int) - beNat x + 1 = _
      rw [ipToBigInt, ipToBigInt, hx4, hy4, to16_of_to4_none hx, to16_of_to4_none hy]

/-- What `New` makes of the two ends is the pool with this base and size. -/
theorem IpRange.exists_new_iff (hx : x.length = 16) (hy : y.length = 16) {base : IP} {size : Int}
    (hbase : to16 base = x) :
    (∃ r, new x y = some r ∧ to16 r.start = to16 base ∧ r.size = size) ↔
      (to4 x).isSome = (to4 y).isSome ∧ beNat x ≤ beNat y ∧ (beNat y : Int) - beNat x + 1 = size := by
  rw [new_eq hx hy]
  constructor
  · rintro ⟨r, hr, -, hsize⟩
    split at hr
    · rename_i h
      cases hr
      rw [size_eq hx hy h.1] at hsize
      exact ⟨h.1, h.2, hsize⟩
    · cases hr
  · rintro ⟨hfam, hle, hsize⟩
    refine ⟨_, if_pos ⟨hfam, hle⟩, ?_, (size_eq hx hy hfam).trans hsize⟩
    rw [hbase]
    exact to16_of_to4_none hx

end Ends

/-! ## The choice of the form -/

/-- The range that the patterns choose, before the error is made. -/
def IpRange.chosen (s : String) : Option Range :=
  if reRange s then parseAddrs s
  else if reCIDR s then parseNetwork s
  else if reSubnetMask s then parseSubnetMask s
  else none

theorem IpRange.parseRange_ok {s : String} (hs : toLower s ≠ "") {r : Range} :
    parseRange s = .ok (some r) ↔ chosen (toLower s) = some r := by
  rw [parseRange]
  dsimp only
  rw [if_neg hs, ← chosen]
  cases chosen (toLower s) <;> simp

theorem toList_toLower (s : String) : (toLower s).toList = s.toList.map Char.toLower := by
  rw [toLower, String.toList_ofList]

/-- The letters of an address, made small, are those of the patterns. -/
theorem isAddrChar_toLower {c : Char} : IsAddrLetter c → isAddrChar c.toLower = true := by
  refine toLower_rule (P := fun c d => IsAddrLetter c → isAddrChar d = true) ?_ ?_ c
  · intro c hupper hc
    rw [isAddrChar, decide_eq_true_iff]
    rcases hc with hhex | hsep
    · rw [hexVal] at hhex
      split at hhex
      · rename_i h
        exact .inl (by rw [isDigit, decide_eq_true_iff]; exact h)
      · split at hhex
        · rename_i h
          exact .inr (.inl h)
        · split at hhex
          · rename_i h
            exact absurd ⟨h.1, UInt32.le_trans h.2 (show 'F'.val ≤ 'Z'.val by decide)⟩ hupper
          · cases hhex
    · exact .inr (.inr hsep)
  · show ∀ n < 26, ((hexVal (Char.ofNat (65 + n))).isSome = true ∨ _ ∨ _) → _
    decide

theorem not_isAddrLetter_dash : ¬ IsAddrLetter '-' := by
  show ¬ ((hexVal '-').isSome = true ∨ '-' = '.' ∨ '-' = ':')
  decide

/-- An address or two with a dash. -/
theorem chosen_of_letters {s : String} (hne : s.toList ≠ [])
    (h : ∀ c ∈ s.toList, IsAddrLetter c ∨ c = '-') : chosen (toLower s) = parseAddrs (toLower s) := by
  refine if_pos ?_
  rw [reRange, decide_eq_true_iff]
  constructor
  · intro he
    have hnil : (toLower s).toList = [] := by rw [he]; rfl
    rw [toList_toLower, List.map_eq_nil_iff] at hnil
    exact hne hnil
  · rw [toList_toLower, List.all_map, List.all_eq_true]
    intro c hc
    rw [Function.comp_apply, Bool.or_eq_true, beq_iff_eq]
    exact (h c hc).imp isAddrChar_toLower fun hd => (isSep_dash c).mpr hd

/-! ### Two addresses around a dash -/

theorem splitTwo_toLower {sep : Char} (hsep : IsSep sep) (s : String) :
    splitTwo sep (toLower s) = (splitTwo sep s).map toLower := by
  rw [splitTwo, splitTwo, toList_toLower, hsep.span]
  generalize s.toList.span (· != sep) = p
  obtain ⟨before, rest⟩ := p
  cases rest with
  | nil => rfl
  | cons c after =>
    rw [List.map_cons]
    simp only [List.map_cons, List.map_nil, toLower, String.toList_ofList]

/-- Reading back what the ends are printed as. -/
theorem parseAddrs_ipString {a b : IP} (ha : IsAddr a) (hb : IsAddr b) :
    parseAddrs (ipString a ++ "-" ++ ipString b) = new (to16 a) (to16 b) := by
  have hdash : '-' ∉ (ipString a).toList := by
    intro hmem
    obtain ⟨⟨form, ip⟩, hp, -⟩ := Option.map_eq_some_iff.mp (parseIP_ipString ha)
    exact not_isAddrLetter_dash ((mem_of_parseAddr hp).2 _ hmem)
  rw [parseAddrs, show "-" = String.ofList ['-'] from rfl, splitTwo_append hdash]
  dsimp only
  rw [parseIP_ipString ha, parseIP_ipString hb, Option.getD_some, Option.getD_some]

/-! ### A block -/

section Block
variable {s : String} {addr mask : List Char}

theorem isDigit_toLower {c : Char} (h : (decVal c).isSome) : isDigit c.toLower = true := by
  rw [← decVal_toLower, decVal] at h
  split at h
  · rename_i hc
    rw [isDigit, decide_eq_true_iff]
    exact hc
  · cases h

/-- Digits alone are no address. -/
theorem parseIP_digits {cs : List Char} (h : ∀ c ∈ cs, isDigit c = true) :
    parseIP (String.ofList cs) = none := by
  have hfind : cs.find? (fun c => c = '.' ∨ c = ':' ∨ c = '%') = none := by
    rw [List.find?_eq_none]
    intro c hc hsep
    rw [decide_eq_true_iff] at hsep
    have hdigit := h c hc
    rcases hsep with rfl | rfl | rfl <;> cases hdigit
  rw [parseIP, String.toList_ofList, parseAddr, hfind]
  rfl

theorem slash_notMem_of_letters (h : ∀ c ∈ addr, IsAddrLetter c) : '/' ∉ addr.map Char.toLower := by
  rw [isSep_slash.mem_map]
  intro hmem
  have hslash : ¬ ((hexVal '/').isSome = true ∨ '/' = '.' ∨ '/' = ':') := by decide
  exact hslash (h _ hmem)

theorem slash_notMem_of_digits (h : ∀ c ∈ mask, (decVal c).isSome) :
    '/' ∉ mask.map Char.toLower := by
  rw [isSep_slash.mem_map]
  intro hmem
  have hslash : ¬ (decVal '/').isSome = true := by decide
  exact hslash (h _ hmem)

theorem split_slash (hs : s.toList = addr ++ '/' :: mask) (haddr : '/' ∉ addr) (hmask : '/' ∉ mask) :
    split '/' s = [String.ofList addr, String.ofList mask] := by
  have hjoin : s = join '/' [String.ofList addr, String.ofList mask] := by
    rw [← String.toList_inj, hs]
    simp [join]
  rw [hjoin]
  refine split_join (by simp) fun x hx => ?_
  rcases List.mem_pair.mp hx with rfl | rfl
  · rwa [String.toList_ofList]
  · rwa [String.toList_ofList]

theorem cutLastSlash_eq (hs : s.toList = addr ++ '/' :: mask) (hmask : '/' ∉ mask) :
    cutLastSlash s = some (String.ofList addr, String.ofList mask) := by
  have hrev : s.toList.reverse = mask.reverse ++ '/' :: addr.reverse := by
    rw [hs]
    simp
  have hall := ne_of_notMem (show '/' ∉ mask.reverse by rwa [List.mem_reverse])
  have hstop : ('/' :: addr.reverse).takeWhile (· != '/') = [] := by simp
  have hrest : ('/' :: addr.reverse).dropWhile (· != '/') = '/' :: addr.reverse := by simp
  rw [cutLastSlash, hrev, List.span_eq_takeWhile_dropWhile, List.takeWhile_append_of_pos hall,
    List.dropWhile_append_of_pos hall, hstop, hrest, List.append_nil]
  dsimp only
  rw [List.reverse_reverse, List.reverse_reverse]

/-- The patterns choose a block if the prefix length has at most three digits. -/
theorem chosen_of_block (hs : s.toList = addr ++ '/' :: mask) (hane : addr ≠ [])
    (haddr : ∀ c ∈ addr, IsAddrLetter c) (hmne : mask ≠ [])
    (hmask : ∀ c ∈ mask, (decVal c).isSome) :
    chosen (toLower s) = if mask.length ≤ 3 then parseNetwork (toLower s) else none := by
  have hlist : (toLower s).toList = addr.map Char.toLower ++ '/' :: mask.map Char.toLower := by
    rw [toList_toLower, hs, List.map_append, List.map_cons]
    rfl
  have hdigits : ∀ c ∈ mask.map Char.toLower, isDigit c = true := by
    intro c hc
    obtain ⟨d, hd, rfl⟩ := List.mem_map.mp hc
    exact isDigit_toLower (hmask d hd)
  have hsplit := split_slash hlist (slash_notMem_of_letters haddr) (slash_notMem_of_digits hmask)
  have hrange : reRange (toLower s) = false := by
    rw [reRange, decide_eq_false_iff_not]
    rintro ⟨-, hall⟩
    rw [List.all_eq_true] at hall
    have hslash : ¬ (isAddrChar '/' || '/' == '-') = true := by decide
    exact hslash (hall '/' (by rw [hlist]; simp))
  have hcidr : reCIDR (toLower s) = decide (mask.length ≤ 3) := by
    rw [reCIDR, hsplit, Bool.eq_iff_iff, decide_eq_true_iff, decide_eq_true_iff]
    simp only [String.toList_ofList, String.length_ofList, List.length_map]
    constructor
    · exact fun h => h.2.2.2.1
    · intro hlen
      refine ⟨?_, ?_, ?_, hlen, List.all_eq_true.mpr hdigits⟩
      · simpa [String.ofList_eq_empty_iff] using hane
      · rw [List.all_eq_true]
        intro c hc
        obtain ⟨d, hd, rfl⟩ := List.mem_map.mp hc
        exact isAddrChar_toLower (haddr d hd)
      · simpa [String.ofList_eq_empty_iff] using hmne
  -- a mask is an address, and the digits of a length are none
  have hsubnet : parseSubnetMask (toLower s) = none := by
    rw [parseSubnetMask, cutLastSlash_eq hlist (slash_notMem_of_digits hmask)]
    dsimp only
    rw [parseIP_digits hdigits]
    rfl
  rw [chosen, hrange, hcidr, hsubnet]
  by_cases hlen : mask.length ≤ 3 <;> simp [hlen]

/-- **The range of a block** is that of its first and its last address. -/
theorem parseNetwork_eq {form : AddrForm} {ip : IP} {n : Nat}
    (h : parsePrefix s = some (form, ip, n)) :
    parseNetwork s = new (to16 (maskIP ip (cidrMask (form.bitLen / 8) n)))
      (to16 (beBytes (maskIP ip (cidrMask (form.bitLen / 8) n)).length
        (beNat (maskIP ip (cidrMask (form.bitLen / 8) n)) ||| (2 ^ (form.bitLen - n) - 1)))) := by
  have hbits : 8 * (form.bitLen / 8) = form.bitLen := by cases form <;> rfl
  have hn := (parsePrefix_some h).2.2
  have hlen := (network_last h rfl).1
  have haddr : ∀ {net : IP}, net.length = form.bitLen / 8 → IsAddr net := by
    intro net hnet
    cases form with
    | v4 => exact .inl hnet
    | v6 => exact .inr hnet
  rw [parseNetwork, parseCIDR, h]
  dsimp only [Option.map_some]
  rw [addressRange, maskSize_cidrMask (by omega), hbits]
  exact parseAddrs_ipString (haddr hlen) (haddr (by rw [length_beBytes, hlen]))

end Block

/-! ## The ends of a network -/

/-- What is assumed of `cidr.AddressRange`: the addresses of a network are those from the first to
the last. -/
def IpRange.AddressRanges (range : IPNet → IP × IP) : Prop :=
  ∀ (l n : Nat) (net : IP), n ≤ 8 * l → net.length = l →
    List.zipWith (· &&& ·) net (cidrMask l n) = net →
    (range ⟨net, cidrMask l n⟩).1.length = l ∧ (range ⟨net, cidrMask l n⟩).2.length = l ∧
    ∀ x : IP, x.length = l → (List.zipWith (· &&& ·) x (cidrMask l n) = net ↔
      (range ⟨net, cidrMask l n⟩).1 ≤ x ∧ x ≤ (range ⟨net, cidrMask l n⟩).2)

theorem length_zipWith_cidrMask {l n : Nat} {ip : IP} (h : ip.length = l) :
    (List.zipWith (· &&& ·) ip (cidrMask l n)).length = l := by
  simp [h]

theorem IpRange.addressRanges_addressRange : AddressRanges addressRange := by
  intro l n net hn hlen hnet
  have hval : beNat net = beNat net / 2 ^ (8 * l - n) * 2 ^ (8 * l - n) := by
    rw [← beNat_zipWith_cidrMask hlen hn, hnet]
  have hlast := beNat_setBits hlen hval (Nat.sub_le _ _)
  rw [addressRange, maskSize_cidrMask hn]
  refine ⟨hlen, by rw [length_beBytes, hlen], fun x hx => ?_⟩
  dsimp only
  rw [le_iff_beNat_le (hlen.trans hx.symm),
    le_iff_beNat_le (hx.trans (by rw [length_beBytes, hlen])), hlen, hlast]
  have hin : List.zipWith (· &&& ·) x (cidrMask l n) = net ↔
      beNat x / 2 ^ (8 * l - n) * 2 ^ (8 * l - n) = beNat net := by
    rw [← beNat_zipWith_cidrMask hx hn]
    exact ⟨fun h => by rw [h], beNat_inj ((length_zipWith_cidrMask hx).trans hlen.symm)⟩
  have hpos : 0 < 2 ^ (8 * l - n) := Nat.two_pow_pos _
  rw [hin]
  constructor
  · intro heq
    have hle := Nat.div_mul_le_self (beNat x) (2 ^ (8 * l - n))
    have hlt := Nat.lt_div_mul_add hpos (a := beNat x)
    omega
  · rintro ⟨hge, hle⟩
    have hquot : beNat x / 2 ^ (8 * l - n) = beNat net / 2 ^ (8 * l - n) := by
      refine Nat.div_eq_of_lt_le (by omega) ?_
      rw [Nat.succ_mul]
      omega
    rw [hquot, ← hval]

/-- Addresses with the same bounds are the same. -/
theorem IpRange.AddressRanges.eq {range : IPNet → IP × IP} (h : AddressRanges range) {l n : Nat}
    {net : IP} (hn : n ≤ 8 * l) (hlen : net.length = l)
    (hnet : List.zipWith (· &&& ·) net (cidrMask l n) = net) :
    range ⟨net, cidrMask l n⟩ = addressRange ⟨net, cidrMask l n⟩ := by
  obtain ⟨hfirst, hlast, hin⟩ := h l n net hn hlen hnet
  obtain ⟨hfirst', hlast', hin'⟩ := addressRanges_addressRange l n net hn hlen hnet
  -- the network has an address, so its ends are in order and in it
  have hnet₁ := (hin net hlen).mp hnet
  have hnet₂ := (hin' net hlen).mp hnet
  have hle := List.le_trans hnet₁.1 hnet₁.2
  have hle' := List.le_trans hnet₂.1 hnet₂.2
  have hmem₁ := (hin' _ hfirst).mp ((hin _ hfirst).mpr ⟨List.le_refl _, hle⟩)
  have hmem₂ := (hin' _ hlast).mp ((hin _ hlast).mpr ⟨hle, List.le_refl _⟩)
  have hmem₃ := (hin _ hfirst').mp ((hin' _ hfirst').mpr ⟨List.le_refl _, hle'⟩)
  have hmem₄ := (hin _ hlast').mp ((hin' _ hlast').mpr ⟨hle', List.le_refl _⟩)
  exact Prod.ext (List.le_antisymm hmem₃.1 hmem₁.1) (List.le_antisymm hmem₂.2 hmem₄.2)

theorem zipWith_and_idem (a m : List UInt8) :
    List.zipWith (· &&& ·) (List.zipWith (· &&& ·) a m) m = List.zipWith (· &&& ·) a m := by
  induction a generalizing m with
  | nil => rfl
  | cons b a ih =>
    cases m with
    | nil => rfl
    | cons c m => rw [List.zipWith_cons_cons, List.zipWith_cons_cons, ih, UInt8.and_assoc,
        UInt8.and_self]

theorem IpRange.parseNetwork_range {range : IPNet → IP × IP} (h : AddressRanges range) (s : String) :
    parseNetwork s range = parseNetwork s := by
  rw [parseNetwork, parseNetwork, parseCIDR]
  rcases hp : parsePrefix s with - | ⟨form, ip, n⟩
  · rfl
  obtain ⟨hlen, hv4, hn⟩ := parsePrefix_some hp
  dsimp only [Option.map_some]
  have hmasked : ∃ a, maskIP ip (cidrMask (form.bitLen / 8) n) =
      List.zipWith (· &&& ·) a (cidrMask (form.bitLen / 8) n) := by
    cases form with
    | v4 =>
      obtain ⟨p, hfour, rfl⟩ := hv4 rfl
      exact ⟨p, by simp [maskIP, hfour, v4InV6Prefix, AddrForm.bitLen]⟩
    | v6 => exact ⟨ip, by simp [maskIP, hlen, AddrForm.bitLen]⟩
  obtain ⟨a, ha⟩ := hmasked
  rw [h.eq (by cases form <;> exact hn) (network_last hp rfl).1 (by rw [ha, zipWith_and_idem])]

/-- **Any function with the ends of the networks will do.** -/
theorem IpRange.parseRange_eq {range : IPNet → IP × IP} (h : AddressRanges range) (s : String) :
    parseRange s range = parseRange s := by
  have hmask : ∀ s, parseSubnetMask s range = parseSubnetMask s := by
    intro s
    rw [parseSubnetMask, parseSubnetMask]
    simp only [parseNetwork_range h]
  rw [parseRange, parseRange]
  simp only [parseNetwork_range h, hmask]

/-! ## Agreement -/

/-- The text of a prefix length. -/
def prefixText (s : String) : List Char := (s.toList.dropWhile (· != '/')).drop 1

/-- The first address of a block. -/
def blockFirst (ip : IP) (host : Nat) : IP := beBytes 16 (beNat ip / 2 ^ host * 2 ^ host)

/-- The last address of a block. -/
def blockLast (ip : IP) (host : Nat) : IP :=
  beBytes 16 (beNat ip / 2 ^ host * 2 ^ host + (2 ^ host - 1))

/-- What the readers have to find for the pools to be the same. -/
def SameReading (s : String) : Prop :=
  match readPool s with
  | some (.addr _) => True
  | some (.block ip host) =>
    (prefixText s).length ≤ 3 ∧
      (to4 (blockFirst ip host)).isSome = (to4 (blockLast ip host)).isSome
  | some (.range first last) =>
    (to4 first).isSome = (to4 last).isSome ∧ beNat first ≤ beNat last ∧
      beNat last < beNat first + 2 ^ 63
  | none => False

theorem block_first_eq {x ip : IP} {host : Nat} (hlen : x.length = 16)
    (hx : beNat x = beNat ip / 2 ^ host * 2 ^ host) : x = blockFirst ip host := by
  rw [blockFirst, ← hx, ← hlen, beBytes_beNat]

theorem block_last_eq {x ip : IP} {host : Nat} (hlen : x.length = 16)
    (hx : beNat x = beNat ip / 2 ^ host * 2 ^ host + (2 ^ host - 1)) : x = blockLast ip host := by
  rw [blockLast, ← hx, ← hlen, beBytes_beNat]

/-- A size of at least one is the number of addresses of a block. -/
theorem int64_two_pow {host : Nat} (h : 1 ≤ int64 (2 ^ host)) : int64 (2 ^ host) = 2 ^ host := by
  rcases Nat.lt_trichotomy host 63 with hlt | rfl | hgt
  · have hpow : (2 : Nat) ^ host < 2 ^ 63 := Nat.pow_lt_pow_right (by decide) hlt
    have hcast : ((2 ^ host : Nat) : Int) = 2 ^ host := Nat.cast_pow ..
    rw [← hcast]
    exact int64_of_lt (Int.natCast_nonneg _) (Int.ofNat_lt.mpr hpow)
  · exact absurd h (by decide)
  · -- nothing is left of the number in 64 bits
    obtain ⟨d, rfl⟩ := Nat.exists_eq_add_of_le (show 64 ≤ host from hgt)
    rw [int64, pow_add] at h
    have hzero : Int.bmod (2 ^ 64 * 2 ^ d) (2 ^ 64) = 0 := by
      simp only [Int.bmod]
      rw [show ((2 ^ 64 : Nat) : Int) = 2 ^ 64 from rfl, Int.mul_emod_right]
      rfl
    exact absurd h (by rw [hzero]; decide)

theorem int64_lt (m : Int) : int64 m < 2 ^ 63 := by
  simp only [int64, Int.bmod]
  split <;> omega

/-- The size of a range is not the one number that does not fit. -/
theorem int64_succ {m : Int} (h0 : 0 ≤ int64 m) (h : 1 ≤ int64 (int64 m + 1)) :
    int64 (int64 m + 1) = int64 m + 1 := by
  have hlt := int64_lt m
  by_cases hlast : int64 m = 2 ^ 63 - 1
  · rw [hlast] at h
    exact absurd h (by decide)
  · exact int64_of_lt (by omega) (by omega)

theorem to16_getD {f : IP} (hf : f.length = 16) : to16 ((to4 f).getD f) = f := by
  cases hv : to4 f with
  | some p =>
    rw [Option.getD_some, to16, if_pos (to4_length hv)]
    exact (to16_of_to4 hv).symm.trans (to16_of_to4_none hf)
  | none =>
    rw [Option.getD_none]
    exact to16_of_to4_none hf

theorem exists_parseRange_iff {s : String} (hne : s.toList ≠ []) {P : Range → Prop} :
    (∃ r, parseRange s = .ok (some r) ∧ P r) ↔ ∃ r, chosen (toLower s) = some r ∧ P r := by
  have hlower : toLower s ≠ "" := by
    intro he
    have hnil : (toLower s).toList = [] := by rw [he]; rfl
    rw [toList_toLower, List.map_eq_nil_iff] at hnil
    exact hne hnil
  simp only [parseRange_ok hlower]

theorem isAddrLetter_of_parseIP {s : String} {ip : IP} (h : parseIP s = some ip) :
    s.toList ≠ [] ∧ ∀ c ∈ s.toList, IsAddrLetter c := by
  obtain ⟨⟨form, ip'⟩, haddr, -⟩ := Option.map_eq_some_iff.mp h
  exact mem_of_parseAddr haddr

section Cases
variable {e : Eip} {base : IP} {size : Int}

/-- One address is read the same. -/
theorem agree_of_address (h : e.getSize = .ok (base, size)) {ip : IP}
    (hip : parseIP e.spec.address = some ip) :
    (∃ r, parseRange e.spec.address = .ok (some r) ∧ to16 r.start = to16 base ∧ r.size = size) ↔
      SameReading e.spec.address := by
  obtain ⟨hne, hletters⟩ := isAddrLetter_of_parseIP hip
  have hlen := length_parseIP hip
  have hdash : '-' ∉ (toLower e.spec.address).toList := by
    rw [toList_toLower, isSep_dash.mem_map]
    exact fun hmem => not_isAddrLetter_dash (hletters _ hmem)
  have hchosen : chosen (toLower e.spec.address) = new ip ip := by
    rw [chosen_of_letters hne fun c hc => .inl (hletters c hc), parseAddrs,
      splitTwo_of_notMem hdash]
    dsimp only
    rw [parseIP_toLower (toList_toLower _), hip]
    rfl
  rw [Eip.getSize, hip] at h
  cases h
  rw [exists_parseRange_iff hne, hchosen, exists_new_iff hlen hlen (to16_of_to4_none hlen),
    SameReading, readPool, hip]
  simp

/-- A block is read the same unless its prefix length is written with too many digits, or
it is a block of both families. -/
theorem agree_of_block (h : e.getSize = .ok (base, size)) (hsize : 1 ≤ size)
    (hip : parseIP e.spec.address = none) {form : AddrForm} {ip : IP} {n : Nat}
    (hcidr : parsePrefix e.spec.address = some (form, ip, n)) :
    (∃ r, parseRange e.spec.address = .ok (some r) ∧ to16 r.start = to16 base ∧ r.size = size) ↔
      SameReading e.spec.address := by
  obtain ⟨addr, mask, hs, hane, haddr, hmne, hmask⟩ := parsePrefix_letters hcidr
  obtain ⟨hflen, hfirst⟩ := network_eq hcidr
  obtain ⟨-, hllen, hlast⟩ := network_last hcidr rfl
  have hmasktext : prefixText e.spec.address = mask := by
    have hslash : '/' ∉ addr := isSep_slash.mem_map.not.mp (slash_notMem_of_letters haddr)
    rw [prefixText, hs, List.dropWhile_append_of_pos (ne_of_notMem hslash)]
    simp
  have hchosen := chosen_of_block hs hane haddr hmne hmask
  rw [parseNetwork_eq ((parsePrefix_toLower (toList_toLower _)).trans hcidr)] at hchosen
  rw [getSize_block hip hcidr] at h
  cases h
  rw [exists_parseRange_iff (by rw [hs]; simp), hchosen, SameReading, readPool, hip, hcidr]
  dsimp only
  rw [hmasktext, ← block_first_eq hflen hfirst, ← block_last_eq hllen hlast]
  by_cases hdigits : mask.length ≤ 3
  · rw [if_pos hdigits, exists_new_iff hflen hllen rfl, hfirst, hlast, int64_two_pow hsize]
    have hpos := Nat.two_pow_pos (form.bitLen - n)
    have hcast : ((2 ^ (form.bitLen - n) : Nat) : Int) = 2 ^ (form.bitLen - n) := Nat.cast_pow ..
    rw [← hcast]
    constructor
    · exact fun hr => ⟨hdigits, hr.1⟩
    · exact fun hr => ⟨hr.2, by omega, by omega⟩
  · simp [hdigits]

/-- A range is read the same if its ends are of one family, in order and not too far
apart. -/
theorem agree_of_range (h : e.getSize = .ok (base, size)) (hsize : 1 ≤ size)
    (hip : parseIP e.spec.address = none) (hcidr : parsePrefix e.spec.address = none) :
    (∃ r, parseRange e.spec.address = .ok (some r) ∧ to16 r.start = to16 base ∧ r.size = size) ↔
      SameReading e.spec.address := by
  obtain ⟨first, second, f, l, hsplit, hf, hl, rfl, hord, rfl⟩ := getSize_range_inv h hip hcidr
  have hlenf := length_parseIP hf
  have hlenl := length_parseIP hl
  have hs := splitTwo_pair hsplit
  have hchosen : chosen (toLower e.spec.address) = new f l := by
    rw [chosen_of_letters (by rw [hs]; simp) ?_, parseAddrs, splitTwo_toLower isSep_dash, hsplit]
    · rw [List.map_cons, List.map_cons, List.map_nil]
      dsimp only
      rw [parseIP_toLower (toList_toLower _), parseIP_toLower (toList_toLower _), hf, hl]
      rfl
    · intro c hc
      rw [hs, List.mem_append, List.mem_cons] at hc
      rcases hc with hc | hc | hc
      · exact .inl ((isAddrLetter_of_parseIP hf).2 c hc)
      · exact .inr hc
      · exact .inl ((isAddrLetter_of_parseIP hl).2 c hc)
  rw [exists_parseRange_iff (by rw [hs]; simp), hchosen,
    exists_new_iff hlenf hlenl (to16_getD hlenf), SameReading, readPool, hip, hcidr, hsplit]
  dsimp only
  rw [hf, hl]
  dsimp only
  refine and_congr_right fun hfam => and_congr_right fun hle => ?_
  have hsub := ipToBigInt_sub hlenl hlenf hfam.symm
  rw [hsub] at hord hsize ⊢
  rw [int64_succ hord hsize]
  constructor
  · intro hcount
    have hlt := int64_lt ((beNat l : Int) - beNat f)
    omega
  · intro hlt
    rw [int64_of_lt (by omega) (by omega)]

end Cases

/-- **When the two readers agree.**  If `GetSize` finds a pool of at least one address,
then `ParseRange` finds a range with the same first address and the same size if and only
if the text is an address; a block whose prefix length has at most three digits and
whose first and last address are of one family; or a range whose ends are of one family,
in order and less than `2 ^ 63` apart. -/
theorem parsers_agree_iff {e : Eip} {base : IP} {size : Int} (h : e.getSize = .ok (base, size))
    (hsize : 1 ≤ size) :
    (∃ r, parseRange e.spec.address = .ok (some r) ∧ to16 r.start = to16 base ∧ r.size = size) ↔
      SameReading e.spec.address := by
  cases hip : parseIP e.spec.address with
  | some ip => exact agree_of_address h hip
  | none =>
    cases hcidr : parsePrefix e.spec.address with
    | some p => exact agree_of_block h hsize hip hcidr
    | none => exact agree_of_range h hsize hip hcidr

/-- A pool from an IPv6 address to an IPv4 address. -/
def mixedEip : Eip := { name := "mixed", spec := { address := "::1-10.0.0.1" } }

/-- `GetSize` counts from one to the other, and `ParseRange` takes them for no range. -/
theorem parsers_differ :
    mixedEip.getSize = .ok ([0, 0, 0, 0, 0, 0, 0, 0, 0, 0, 0, 0, 0, 0, 0, 1], 167772161) ∧
      ¬ ∃ r, parseRange mixedEip.spec.address = .ok (some r) := by
  refine ⟨by decide +kernel, ?_⟩
  rintro ⟨r, hr⟩
  have hfail : (parseRange mixedEip.spec.address).toOption = none := by decide +kernel
  rw [hr] at hfail
  cases hfail

/-- A pool of nine addresses. -/
def nineEip : Eip := { name := "nine", spec := { address := "192.0.2.1-192.0.2.9" } }

theorem parsers_agree_range :
    ∃ r, parseRange nineEip.spec.address = .ok (some r) ∧
      to16 r.start = v4InV6Prefix ++ [192, 0, 2, 1] ∧ r.size = 9 := by
  have hsize : nineEip.getSize = .ok ([192, 0, 2, 1], 9) := by decide +kernel
  refine (parsers_agree_iff hsize (by decide)).mpr ?_
  have hread : readPool nineEip.spec.address =
      some (.range (v4InV6Prefix ++ [192, 0, 2, 1]) (v4InV6Prefix ++ [192, 0, 2, 9])) := by
    decide +kernel
  rw [SameReading, hread]
  decide

end OpenELB
