import OpenELB.GoNet

/-! # CIDR blocks as numbers

The mask of a prefix length has that many leading ones (`maskSize_cidrMask`), and
masking an address clears the bits after the prefix (`beNat_zipWith_cidrMask`).  So
the network of a CIDR block is the first of the addresses that agree with its
address in the prefix (`network_eq`). -/
namespace Go

theorem beNat_cons (b : UInt8) (bs : List UInt8) :
    beNat (b :: bs) = b.toNat * 256 ^ bs.length + beNat bs := by
  induction bs using List.reverseRecOn with
  | nil => simp [beNat]
  | append_singleton bs c ih =>
    rw [← List.cons_append, beNat_concat, ih, beNat_concat, List.length_append,
      List.length_singleton, Nat.pow_succ]
    ring

/-- `bytes.Compare` on numbers of one length. -/
theorem le_iff_beNat_le {bs cs : List UInt8} (h : bs.length = cs.length) :
    bs ≤ cs ↔ beNat bs ≤ beNat cs := by
  induction bs generalizing cs with
  | nil =>
    cases cs with
    | nil => simp
    | cons c cs => cases h
  | cons b bs ih =>
    cases cs with
    | nil => cases h
    | cons c cs =>
      have hlen : bs.length = cs.length := Nat.succ.inj h
      have hb := beNat_lt bs
      have hc := beNat_lt cs
      rw [hlen] at hb
      rw [List.cons_le_cons_iff, ih hlen, beNat_cons, beNat_cons, hlen, UInt8.lt_iff_toNat_lt,
        ← UInt8.toNat_inj]
      constructor
      · rintro (hlt | ⟨he, hle⟩)
        · have := Nat.mul_le_mul_right (256 ^ cs.length) (show b.toNat + 1 ≤ c.toNat from hlt)
          rw [Nat.add_mul, Nat.one_mul] at this
          omega
        · rw [he]
          omega
      · intro hle
        rcases Nat.lt_trichotomy b.toNat c.toNat with hlt | he | hgt
        · exact .inl hlt
        · rw [he] at hle
          exact .inr ⟨he, by omega⟩
        · have := Nat.mul_le_mul_right (256 ^ cs.length) (show c.toNat + 1 ≤ b.toNat from hgt)
          rw [Nat.add_mul, Nat.one_mul] at this
          omega

theorem beNat_append (bs cs : List UInt8) :
    beNat (bs ++ cs) = beNat bs * 256 ^ cs.length + beNat cs := by
  induction bs with
  | nil => simp
  | cons b bs ih =>
    rw [List.cons_append, beNat_cons, beNat_cons, ih, List.length_append, Nat.pow_add]
    ring

/-! ## Masks -/

@[simp] theorem length_cidrMask (l n : Nat) : (cidrMask l n).length = l := by
  induction l generalizing n with
  | zero => rfl
  | succ l ih =>
    rw [cidrMask]
    split <;> simp [ih]

/-- The bytes after the prefix are zero. -/
theorem cidrMask_zero (l : Nat) : cidrMask l 0 = List.replicate l 0 := by
  induction l with
  | zero => rfl
  | succ l ih =>
    rw [cidrMask, if_neg (by omega), ih, List.replicate_succ]
    rfl

/-- The byte in which the prefix ends. -/
theorem byteOnes_partial {n : Nat} (h : n < 8) :
    byteOnes (~~~((0xff : UInt8) >>> UInt8.ofNat n)) = some n := by
  have key : ∀ n : Fin 8, byteOnes (~~~((0xff : UInt8) >>> UInt8.ofNat n.val)) = some n.val := by
    decide
  exact key ⟨n, h⟩

theorem maskOnes_cidrMask {l n : Nat} (h : n ≤ 8 * l) : maskOnes (cidrMask l n) = some n := by
  induction l generalizing n with
  | zero =>
    obtain rfl : n = 0 := by omega
    rfl
  | succ l ih =>
    rw [cidrMask]
    split
    · rename_i h8
      rw [maskOnes, show byteOnes 0xff = some 8 from rfl, ih (by omega)]
      show some (8 + (n - 8)) = some n
      congr 1
      omega
    · rename_i h8
      have hzero : (cidrMask l 0).all (· = 0) = true := by
        rw [cidrMask_zero, List.all_replicate]
        simp
      rw [maskOnes, byteOnes_partial (by omega)]
      split
      · rename_i h
        cases h
      · rename_i h
        cases h
        omega
      · rename_i m _ hm
        cases hm
        rw [if_pos hzero]

/-- **The size of the mask of a prefix.** -/
theorem maskSize_cidrMask {l n : Nat} (h : n ≤ 8 * l) : maskSize (cidrMask l n) = (n, 8 * l) := by
  rw [maskSize, maskOnes_cidrMask h, length_cidrMask]

/-! ## Masked addresses -/

/-- Clearing low bits does not touch the bits above them. -/
theorem clear_add {k m : Nat} (h : k ≤ m) (a r : Nat) :
    (a * 2 ^ m + r) / 2 ^ k * 2 ^ k = a * 2 ^ m + r / 2 ^ k * 2 ^ k := by
  obtain ⟨d, rfl⟩ := Nat.exists_eq_add_of_le h
  rw [show a * 2 ^ (k + d) = 2 ^ k * (a * 2 ^ d) by rw [Nat.pow_add]; ring,
    Nat.mul_add_div (Nat.two_pow_pos _), Nat.add_mul]
  ring

/-- Masking a byte clears its low bits. -/
theorem toNat_and_partial {n : Nat} (h : n < 8) (b : UInt8) :
    (b &&& ~~~((0xff : UInt8) >>> UInt8.ofNat n)).toNat = b.toNat / 2 ^ (8 - n) * 2 ^ (8 - n) := by
  have key : ∀ (n : Fin 8) (b : Fin 256),
      (UInt8.ofNat b.val &&& ~~~((0xff : UInt8) >>> UInt8.ofNat n.val)).toNat =
        b.val / 2 ^ (8 - n.val) * 2 ^ (8 - n.val) := by
    decide +kernel
  have hb := key ⟨n, h⟩ ⟨b.toNat, b.toNat_lt⟩
  rwa [UInt8.ofNat_toNat] at hb

theorem beNat_zipWith_zero {l : Nat} {bs : List UInt8} (h : bs.length = l) :
    beNat (List.zipWith (· &&& ·) bs (cidrMask l 0)) = 0 := by
  induction bs generalizing l with
  | nil => rfl
  | cons b bs ih =>
    subst h
    rw [cidrMask_zero, List.length_cons, List.replicate_succ, List.zipWith_cons_cons, beNat_cons,
      ← cidrMask_zero, ih rfl, UInt8.and_zero]
    simp

/-- **Masking an address clears the bits after the prefix.** -/
theorem beNat_zipWith_cidrMask {l n : Nat} {ip : IP} (hl : ip.length = l) (h : n ≤ 8 * l) :
    beNat (List.zipWith (· &&& ·) ip (cidrMask l n)) =
      beNat ip / 2 ^ (8 * l - n) * 2 ^ (8 * l - n) := by
  induction ip generalizing l n with
  | nil =>
    subst hl
    simp
  | cons b bs ih =>
    subst hl
    have hlen : ∀ m, (List.zipWith (· &&& ·) bs (cidrMask bs.length m)).length = bs.length := by
      intro m
      simp
    have hpow : (256 : Nat) ^ bs.length = 2 ^ (8 * bs.length) := by
      rw [show (256 : Nat) = 2 ^ 8 from rfl, ← Nat.pow_mul]
    rw [List.length_cons] at h
    rw [List.length_cons, cidrMask, beNat_cons]
    split
    · -- the prefix goes beyond the first byte
      rename_i h8
      rw [List.zipWith_cons_cons, beNat_cons, hlen, ih rfl (by omega),
        show 8 * (bs.length + 1) - n = 8 * bs.length - (n - 8) by omega,
        show b &&& 0xff = b from UInt8.and_neg_one, hpow, clear_add (by omega)]
    · -- it ends in the first byte
      rename_i h8
      have hlt := beNat_lt bs
      have hdiv : (b.toNat * 256 ^ bs.length + beNat bs) / 256 ^ bs.length = b.toNat := by
        rw [Nat.mul_comm, Nat.mul_add_div (Nat.pow_pos (by omega)), Nat.div_eq_of_lt hlt, Nat.add_zero]
      rw [List.zipWith_cons_cons, beNat_cons, hlen, beNat_zipWith_zero rfl,
        toNat_and_partial (by omega),
        show 8 * (bs.length + 1) - n = 8 * bs.length + (8 - n) by omega, Nat.pow_add, ← hpow,
        ← Nat.div_div_eq_div_mul, hdiv]
      ring

/-! ## Addresses that were read -/

theorem length_ofGroups (gs : List Nat) : (ofGroups gs).length = 2 * gs.length := by
  induction gs with
  | nil => rfl
  | cons g gs ih =>
    rw [ofGroups, List.length_cons, List.length_cons, ih, List.length_cons]
    omega

theorem length_parseIPv4 {cs : List Char} {p : IP} (h : parseIPv4 cs = some p) : p.length = 4 := by
  rw [parseIPv4] at h
  split at h
  · cases h
    rfl
  · cases h

theorem length_parseIPv6 {cs : List Char} {ip : IP} (h : parseIPv6 cs = some ip) :
    ip.length = 16 := by
  rw [parseIPv6] at h
  split at h
  · split at h
    · split at h
      · rename_i hlen
        cases h
        rw [length_ofGroups, hlen]
      · cases h
    · cases h
  · split at h
    · split at h
      · cases h
        rw [length_ofGroups, List.length_append, List.length_append, List.length_replicate]
        omega
      · cases h
    · cases h

/-- An address is read into sixteen bytes, and one of the IPv4 form is mapped. -/
theorem parseAddr_some {cs : List Char} {form : AddrForm} {ip : IP}
    (h : parseAddr cs = some (form, ip)) :
    ip.length = 16 ∧ (form = .v4 → ∃ p, p.length = 4 ∧ ip = v4InV6Prefix ++ p) := by
  rw [parseAddr] at h
  split at h
  · obtain ⟨p, hp, he⟩ := Option.map_eq_some_iff.mp h
    have hlen := length_parseIPv4 hp
    cases he
    refine ⟨?_, fun _ => ⟨p, hlen, rfl⟩⟩
    rw [List.length_append, hlen]
    rfl
  · obtain ⟨p, hp, he⟩ := Option.map_eq_some_iff.mp h
    cases he
    exact ⟨length_parseIPv6 hp, fun hf => by cases hf⟩
  · cases h

theorem length_parseIP {s : String} {ip : IP} (h : parseIP s = some ip) : ip.length = 16 := by
  obtain ⟨⟨form, ip'⟩, hp, rfl⟩ := Option.map_eq_some_iff.mp h
  exact (parseAddr_some hp).1

theorem parsePrefix_some {s : String} {form : AddrForm} {ip : IP} {n : Nat}
    (h : parsePrefix s = some (form, ip, n)) :
    ip.length = 16 ∧ (form = .v4 → ∃ p, p.length = 4 ∧ ip = v4InV6Prefix ++ p) ∧
      n ≤ form.bitLen := by
  rw [parsePrefix] at h
  split at h
  · cases h
  · split at h
    · rename_i haddr _
      split at h
      · rename_i hn
        cases h
        exact ⟨(parseAddr_some haddr).1, (parseAddr_some haddr).2, hn⟩
      · cases h
    · cases h

/-- **The network of a CIDR block** is the first address with its prefix: in sixteen
bytes, the number of the address with the bits after the prefix cleared. -/
theorem network_eq {s : String} {form : AddrForm} {ip : IP} {n : Nat}
    (h : parsePrefix s = some (form, ip, n)) :
    (to16 (maskIP ip (cidrMask (form.bitLen / 8) n))).length = 16 ∧
      beNat (to16 (maskIP ip (cidrMask (form.bitLen / 8) n))) =
        beNat ip / 2 ^ (form.bitLen - n) * 2 ^ (form.bitLen - n) := by
  obtain ⟨hlen, hv4, hn⟩ := parsePrefix_some h
  cases form with
  | v4 =>
    obtain ⟨p, hp, rfl⟩ := hv4 rfl
    have hmlen : (List.zipWith (· &&& ·) p (cidrMask 4 n)).length = 4 := by simp [hp]
    have hmask : to16 (maskIP (v4InV6Prefix ++ p) (cidrMask (AddrForm.v4.bitLen / 8) n)) =
        v4InV6Prefix ++ List.zipWith (· &&& ·) p (cidrMask 4 n) := by
      rw [show maskIP (v4InV6Prefix ++ p) (cidrMask (AddrForm.v4.bitLen / 8) n) =
        List.zipWith (· &&& ·) p (cidrMask 4 n) by simp [maskIP, hp, v4InV6Prefix, AddrForm.bitLen],
        to16, if_pos hmlen]
    rw [hmask, List.length_append, beNat_append, beNat_append, hmlen, hp,
      beNat_zipWith_cidrMask hp hn]
    exact ⟨rfl, (clear_add (show 32 - n ≤ 32 by omega) _ _).symm⟩
  | v6 =>
    have hmlen : (List.zipWith (· &&& ·) ip (cidrMask 16 n)).length = 16 := by simp [hlen]
    have hmask : to16 (maskIP ip (cidrMask (AddrForm.v6.bitLen / 8) n)) =
        List.zipWith (· &&& ·) ip (cidrMask 16 n) := by
      rw [show maskIP ip (cidrMask (AddrForm.v6.bitLen / 8) n) =
        List.zipWith (· &&& ·) ip (cidrMask 16 n) by simp [maskIP, hlen, AddrForm.bitLen],
        to16_of_to4_none hmlen]
    rw [hmask, beNat_zipWith_cidrMask hlen hn]
    exact ⟨hmlen, rfl⟩

/-! ## The last address of a block -/

/-- Setting the low bits stays below a power of two. -/
theorem block_last_lt {x host bits : Nat} (hx : x < 2 ^ bits) (hhost : host ≤ bits) :
    x / 2 ^ host * 2 ^ host + (2 ^ host - 1) < 2 ^ bits := by
  have hpos := Nat.two_pow_pos host
  obtain ⟨d, rfl⟩ := Nat.exists_eq_add_of_le hhost
  rw [Nat.pow_add] at hx ⊢
  have hq : x / 2 ^ host < 2 ^ d := Nat.div_lt_of_lt_mul hx
  calc x / 2 ^ host * 2 ^ host + (2 ^ host - 1)
      < x / 2 ^ host * 2 ^ host + 2 ^ host := by omega
    _ = 2 ^ host * (x / 2 ^ host + 1) := by ring
    _ ≤ 2 ^ host * 2 ^ d := Nat.mul_le_mul_left _ hq

/-- Setting the bits after the prefix adds what they stand for. -/
theorem beNat_setBits {l host : Nat} {ip net : IP} (hip : ip.length = l)
    (hnet : beNat net = beNat ip / 2 ^ host * 2 ^ host) (hhost : host ≤ 8 * l) :
    beNat (beBytes l (beNat net ||| (2 ^ host - 1))) = beNat net + (2 ^ host - 1) := by
  have hpow : (256 : Nat) ^ l = 2 ^ (8 * l) := by
    rw [show (256 : Nat) = 2 ^ 8 from rfl, ← Nat.pow_mul]
  have hlt := beNat_lt ip
  rw [hip, hpow] at hlt
  have hor := Nat.two_pow_add_eq_or_of_lt (Nat.sub_lt (Nat.two_pow_pos host) Nat.one_pos)
    (beNat ip / 2 ^ host)
  rw [hnet, Nat.mul_comm, ← hor, Nat.mul_comm]
  exact beNat_beBytes_of_lt (hpow ▸ block_last_lt hlt hhost)

/-- **The last address of a CIDR block**, in sixteen bytes, is its number with the bits
after the prefix set. -/
theorem network_last {s : String} {form : AddrForm} {ip net : IP} {n : Nat}
    (h : parsePrefix s = some (form, ip, n)) (hnet : maskIP ip (cidrMask (form.bitLen / 8) n) = net) :
    net.length = form.bitLen / 8 ∧
      (to16 (beBytes net.length (beNat net ||| (2 ^ (form.bitLen - n) - 1)))).length = 16 ∧
      beNat (to16 (beBytes net.length (beNat net ||| (2 ^ (form.bitLen - n) - 1)))) =
        beNat ip / 2 ^ (form.bitLen - n) * 2 ^ (form.bitLen - n) + (2 ^ (form.bitLen - n) - 1) := by
  obtain ⟨hlen, hv4, hn⟩ := parsePrefix_some h
  cases form with
  | v4 =>
    obtain ⟨p, hp, rfl⟩ := hv4 rfl
    have hmask : net = List.zipWith (· &&& ·) p (cidrMask 4 n) := by
      rw [← hnet]
      simp [maskIP, hp, v4InV6Prefix, AddrForm.bitLen]
    have hmlen : net.length = 4 := by simp [hmask, hp]
    have hval : beNat net = beNat p / 2 ^ (32 - n) * 2 ^ (32 - n) := by
      rw [hmask, beNat_zipWith_cidrMask hp hn]
    have hlast := beNat_setBits hp hval (show 32 - n ≤ 8 * 4 by omega)
    have hllen := length_beBytes 4 (beNat net ||| (2 ^ (32 - n) - 1))
    rw [hmlen]
    show 4 = 4 ∧ (to16 (beBytes 4 (beNat net ||| (2 ^ (32 - n) - 1)))).length = 16 ∧
      beNat (to16 (beBytes 4 (beNat net ||| (2 ^ (32 - n) - 1)))) =
        beNat (v4InV6Prefix ++ p) / 2 ^ (32 - n) * 2 ^ (32 - n) + (2 ^ (32 - n) - 1)
    rw [to16, if_pos hllen, List.length_append, beNat_append, beNat_append, hllen, hp, hlast, hval]
    refine ⟨rfl, rfl, ?_⟩
    rw [show (256 : Nat) ^ 4 = 2 ^ 32 from rfl, clear_add (show 32 - n ≤ 32 by omega)]
    omega
  | v6 =>
    have hmask : net = List.zipWith (· &&& ·) ip (cidrMask 16 n) := by
      rw [← hnet]
      simp [maskIP, hlen, AddrForm.bitLen]
    have hmlen : net.length = 16 := by simp [hmask, hlen]
    have hval : beNat net = beNat ip / 2 ^ (128 - n) * 2 ^ (128 - n) := by
      rw [hmask, beNat_zipWith_cidrMask hlen hn]
    have hlast := beNat_setBits hlen hval (show 128 - n ≤ 8 * 16 by omega)
    have hllen := length_beBytes 16 (beNat net ||| (2 ^ (128 - n) - 1))
    rw [hmlen]
    show 16 = 16 ∧ (to16 (beBytes 16 (beNat net ||| (2 ^ (128 - n) - 1)))).length = 16 ∧
      beNat (to16 (beBytes 16 (beNat net ||| (2 ^ (128 - n) - 1)))) =
        beNat ip / 2 ^ (128 - n) * 2 ^ (128 - n) + (2 ^ (128 - n) - 1)
    rw [to16_of_to4_none hllen, hlast]
    exact ⟨rfl, hllen, by rw [hval]⟩

end Go
