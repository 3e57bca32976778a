import OpenELB.PoolSizes

/-! # The position of an address in a pool

`IPToOrdinal` and `Contains` look at the number of an address, which starts from zero in
each family, and `IPToOrdinal` at its difference to the base in 64 bits.  So an address of
the other family with the number of an address of the pool is in the pool for both of
them, and an IPv6 address that is a multiple of `2 ^ 64` away from one is for
`IPToOrdinal` (`position_wrong`).  And in an IPv6 pool that has the mapped addresses in
it, those are not where they should be.

`position_iff` says that these are all: the two functions are right about an address
exactly if the pool is of one family, and the address is in it or has the number of none
of its addresses modulo `2 ^ 64`. -/
namespace OpenELB
open Go

/-- The pool has `n` addresses, from `base` on, and the code knows that. -/
structure Eip.Pool (e : Eip) (base : IP) (n : Nat) : Prop where
  getSize : e.getSize = .ok (base, (n : Int))
  isAddr : IsAddr base
  pos : 1 ≤ n
  lt : n < 2 ^ 63
  denotes : ∀ x, e.Denotes x ↔
    x.length = 16 ∧ beNat (to16 base) ≤ beNat x ∧ beNat x < beNat (to16 base) + n
  fits : beNat (to16 base) + n ≤ 256 ^ 16

/-- An Eip whose size is the number of addresses that its text denotes. -/
theorem Eip.pool_of_exact {e : Eip} {base : IP} {size : Int} (h : e.getSize = .ok (base, size))
    (hpos : 1 ≤ size) (hexact : size = e.count) : e.Pool base e.count := by
  obtain ⟨t, ht, hread⟩ := getSize_ok h
  have hwf := PoolText.Wf.of_readPool ht
  have hcount := Eip.count_eq ht
  have hbounds := hread.bounds
  have hhi := hwf.hi_lt
  refine ⟨by rw [← hexact, h], hread.isAddr, by omega, by omega, fun x => ?_, ?_⟩
  · rw [Eip.denotes_iff ht, hwf.has_iff, hread.base_eq]
    exact and_congr_right fun _ => and_congr_right fun _ => by omega
  · rw [hread.base_eq]
    omega

/-- All addresses of the pool are IPv4 addresses, or none. -/
def Eip.OneFamily (e : Eip) : Prop :=
  ∀ x y, e.Denotes x → e.Denotes y → ((to4 x).isSome ↔ (to4 y).isSome)

/-- The address has the number of none of the pool, modulo `2 ^ 64`. -/
def Eip.Elsewhere (e : Eip) (ip : IP) : Prop :=
  ∀ x, e.Denotes x → ipToBigInt x % 2 ^ 64 ≠ ipToBigInt ip % 2 ^ 64

/-- `IPToOrdinal` and `Contains` are right about the address: it is in the pool exactly if
they say so, and its position is the number of steps from the base to it.  And the
addresses that are steps from the base are at their position. -/
structure PositionRight (e : Eip) (base : IP) (n : Nat) (ip : IP) : Prop where
  contains_iff : e.contains ip = true ↔ e.Denotes (to16 ip)
  ordinal_iff : 0 ≤ e.ipToOrdinal ip ↔ e.contains ip = true
  increment : ∀ k, 0 ≤ k → e.ipToOrdinal ip = k →
    ∃ q, incrementIP base k = some q ∧ to16 q = to16 ip
  ordinal : ∀ k : Nat, k < n → ∃ q, incrementIP base k = some q ∧ e.ipToOrdinal q = k

namespace Eip.Pool
variable {e : Eip} {base ip : IP} {n : Nat}

theorem contains_iff (h : e.Pool base n) :
    e.contains ip = true ↔
      ipToBigInt base ≤ ipToBigInt ip ∧ ipToBigInt ip < ipToBigInt base + n := by
  have hlt := h.lt
  have hpos := h.pos
  rw [Eip.contains, Eip.lastInt, Eip.baseAndSize, h.getSize, decide_eq_true_iff]
  dsimp only
  rw [int64_of_lt (by omega) (by omega)]
  omega

/-- The difference to the base, in 64 bits, if it is below the size. -/
theorem ipToOrdinal_eq (h : e.Pool base n) :
    e.ipToOrdinal ip =
      let ord := int64 ((ipToBigInt ip : Int) - ipToBigInt base)
      if ord < 0 ∨ (n : Int) ≤ ord then -1 else ord := by
  rw [Eip.ipToOrdinal, h.getSize]

/-- The position is a number below the size that is right modulo `2 ^ 64`. -/
theorem ipToOrdinal_eq_iff (h : e.Pool base n) (k : Nat) :
    e.ipToOrdinal ip = k ↔
      k < n ∧ (ipToBigInt ip : Int) % 2 ^ 64 = ((ipToBigInt base : Int) + k) % 2 ^ 64 := by
  have hlt := h.lt
  rw [h.ipToOrdinal_eq]
  dsimp only
  simp only [int64, Int.bmod]
  split <;> split <;> omega

theorem denotes_base (h : e.Pool base n) : e.Denotes (to16 base) := by
  have hpos := h.pos
  exact (h.denotes _).mpr ⟨length_to16 h.isAddr, le_refl _, by omega⟩

/-- In a pool of one family, the addresses are those of the family with the numbers that
follow the base. -/
theorem denotes_to16_iff (h : e.Pool base n) (hone : e.OneFamily) (hip : IsAddr ip) :
    e.Denotes (to16 ip) ↔ ((to4 ip).isSome ↔ (to4 base).isSome) ∧
      ipToBigInt base ≤ ipToBigInt ip ∧ ipToBigInt ip < ipToBigInt base + n := by
  have hnum := beNat_to16 hip
  have hbase := beNat_to16 h.isAddr
  have hfam : e.Denotes (to16 ip) → ((to4 ip).isSome ↔ (to4 base).isSome) := by
    intro hd
    have hiff := hone _ _ hd h.denotes_base
    rw [to4_isSome_iff (length_to16 hip), to4_isSome_iff (length_to16 h.isAddr)] at hiff
    rw [isSome_to4_iff hip, isSome_to4_iff h.isAddr]
    exact hiff
  constructor
  · intro hd
    have hiff := Bool.eq_iff_iff.mpr (hfam hd)
    rw [hiff] at hnum
    obtain ⟨-, hle, hlt⟩ := (h.denotes _).mp hd
    exact ⟨hfam hd, by omega, by omega⟩
  · rintro ⟨hiff, hle, hlt⟩
    rw [Bool.eq_iff_iff.mpr hiff] at hnum
    exact (h.denotes _).mpr ⟨length_to16 hip, by omega, by omega⟩

/-- The steps from the base stay in the pool. -/
theorem exists_increment (h : e.Pool base n) (hone : e.OneFamily) {k : Nat} (hk : k < n) :
    ∃ q, incrementIP base k = some q ∧ IsAddr q ∧ e.Denotes (to16 q) ∧
      ipToBigInt q = ipToBigInt base + k := by
  have hfits := h.fits
  have hstep : e.Denotes (beBytes 16 (beNat (to16 base) + k)) ∧
      beNat (beBytes 16 (beNat (to16 base) + k)) = beNat (to16 base) + k := by
    have hval := beNat_beBytes_of_lt (k := 16) (n := beNat (to16 base) + k) (by omega)
    exact ⟨(h.denotes _).mpr ⟨length_beBytes .., by omega, by omega⟩, hval⟩
  have hmap : Mapped (beNat (to16 base)) ↔ Mapped (beNat (to16 base) + k) := by
    have hiff := hone _ _ h.denotes_base hstep.1
    rwa [to4_isSome_iff (length_to16 h.isAddr), to4_isSome_iff (length_beBytes ..), hstep.2] at hiff
  obtain ⟨q, hq⟩ := exists_incrementIP h.isAddr (by omega) hmap.mp
  obtain ⟨haddr, hval⟩ := incrementIP_some h.isAddr hq
  refine ⟨q, hq, haddr, (h.denotes _).mpr ⟨length_to16 haddr, by omega, by omega⟩, ?_⟩
  have hnum := beNat_to16 haddr
  have hbase := beNat_to16 h.isAddr
  have hfam : (to4 q).isSome = (to4 base).isSome := by
    rw [Bool.eq_iff_iff, isSome_to4_iff haddr, isSome_to4_iff h.isAddr, hval]
    exact hmap.symm
  rw [hfam] at hnum
  omega

/-- An address that `IPToOrdinal` finds is in the pool, unless one in the pool has its number
modulo `2 ^ 64`. -/
theorem denotes_of_ipToOrdinal (h : e.Pool base n) (hone : e.OneFamily)
    (hclear : e.Denotes (to16 ip) ∨ e.Elsewhere ip) {k : Nat} (hk : e.ipToOrdinal ip = k) :
    e.Denotes (to16 ip) := by
  obtain ⟨hkn, hmod⟩ := (h.ipToOrdinal_eq_iff k).mp hk
  obtain ⟨q, -, hq, hd, hval⟩ := h.exists_increment hone hkn
  rcases hclear with hin | hout
  · exact hin
  · refine absurd ?_ (hout _ hd)
    rw [ipToBigInt_to16 (length_to16 hq), hval]
    omega

theorem positionRight (h : e.Pool base n) (hone : e.OneFamily) (hip : IsAddr ip)
    (hclear : e.Denotes (to16 ip) ∨ e.Elsewhere ip) : PositionRight e base n ip := by
  have hord : e.contains ip = true → ∃ k : Nat, e.ipToOrdinal ip = k := by
    intro hc
    obtain ⟨hle, hlt⟩ := h.contains_iff.mp hc
    exact ⟨ipToBigInt ip - ipToBigInt base, (h.ipToOrdinal_eq_iff _).mpr ⟨by omega, by omega⟩⟩
  have hcontains : e.contains ip = true ↔ e.Denotes (to16 ip) := by
    constructor
    · intro hc
      obtain ⟨k, hk⟩ := hord hc
      exact h.denotes_of_ipToOrdinal hone hclear hk
    · intro hd
      exact h.contains_iff.mpr ((h.denotes_to16_iff hone hip).mp hd).2
  refine ⟨hcontains, ⟨fun h0 => ?_, fun hc => ?_⟩, fun k h0 hk => ?_, fun k hk => ?_⟩
  · obtain ⟨k, hk⟩ := Int.eq_ofNat_of_zero_le h0
    exact hcontains.mpr (h.denotes_of_ipToOrdinal hone hclear hk)
  · obtain ⟨k, hk⟩ := hord hc
    rw [hk]
    exact Int.natCast_nonneg k
  · obtain ⟨m, rfl⟩ := Int.eq_ofNat_of_zero_le h0
    have hd := h.denotes_of_ipToOrdinal hone hclear hk
    obtain ⟨hfam, hle, hlt⟩ := (h.denotes_to16_iff hone hip).mp hd
    obtain ⟨hmn, hmod⟩ := (h.ipToOrdinal_eq_iff m).mp hk
    obtain ⟨q, hq, haddr, -, -⟩ := h.exists_increment hone hmn
    refine ⟨q, hq, beNat_inj ((length_to16 haddr).trans (length_to16 hip).symm) ?_⟩
    -- both are `m` steps from the base
    have hsize := h.lt
    have hnum := beNat_to16 hip
    have hbase := beNat_to16 h.isAddr
    rw [Bool.eq_iff_iff.mpr hfam] at hnum
    rw [(incrementIP_some h.isAddr hq).2]
    omega
  · obtain ⟨q, hq, -, -, hval⟩ := h.exists_increment hone hk
    exact ⟨q, hq, (h.ipToOrdinal_eq_iff k).mpr ⟨hk, by rw [hval]; omega⟩⟩

/-- If the steps from the base are at their positions, the pool is of one family. -/
theorem family_of_ordinal (h : e.Pool base n)
    (hord : ∀ k : Nat, k < n → ∃ q, incrementIP base k = some q ∧ e.ipToOrdinal q = k)
    {x : IP} (hx : e.Denotes x) : (to4 x).isSome = (to4 base).isSome := by
  obtain ⟨hlen, hle, hlt⟩ := (h.denotes x).mp hx
  obtain ⟨q, hq, hk⟩ := hord (beNat x - beNat (to16 base)) (by omega)
  obtain ⟨haddr, hval⟩ := incrementIP_some h.isAddr hq
  have hxq : x = to16 q := beNat_inj (hlen.trans (length_to16 haddr).symm) (by omega)
  have hfam : (to4 x).isSome = (to4 q).isSome := by
    rw [Bool.eq_iff_iff, hxq, to4_isSome_iff (length_to16 haddr)]
    exact (isSome_to4_iff haddr).symm
  rw [hfam]
  -- a step into the mapped addresses, or out of them, changes the number
  have hmod := ((h.ipToOrdinal_eq_iff _).mp hk).2
  have hnum := beNat_to16 haddr
  have hbase := beNat_to16 h.isAddr
  cases hq4 : (to4 q).isSome <;> cases hb4 : (to4 base).isSome
  · rfl
  · rw [hq4] at hnum
    rw [hb4] at hbase
    simp only [if_true, Bool.false_eq_true, if_false] at hnum hbase
    omega
  · rw [hq4] at hnum
    rw [hb4] at hbase
    simp only [if_true, Bool.false_eq_true, if_false] at hnum hbase
    omega
  · rfl

end Eip.Pool

/-- **When the position of an address is right.**  For every Eip that `GetSize` accepts with
its exact size, and every address, `Contains` and `IPToOrdinal` are right if and only if
the pool is of one family and the address is in it or has the number of none of its
addresses modulo `2 ^ 64`. -/
theorem position_iff {e : Eip} {base ip : IP} {size : Int} (haccepted : e.getSize = .ok (base, size))
    (hpos : 1 ≤ size) (hexact : size = e.count) (hip : IsAddr ip) :
    PositionRight e base e.count ip ↔
      e.OneFamily ∧ (e.Denotes (to16 ip) ∨ e.Elsewhere ip) := by
  have h := Eip.pool_of_exact haccepted hpos hexact
  refine ⟨fun hright => ?_, fun ⟨hone, hclear⟩ => h.positionRight hone hip hclear⟩
  have hone : e.OneFamily := by
    intro x y hx hy
    rw [h.family_of_ordinal hright.ordinal hx, h.family_of_ordinal hright.ordinal hy]
  refine ⟨hone, or_iff_not_imp_left.mpr fun hout x hx he => hout ?_⟩
  have hxlen := ((h.denotes x).mp hx).1
  have hxd := hx
  rw [← to16_of_to4_none hxlen, h.denotes_to16_iff hone (.inr hxlen)] at hxd
  -- the address of the pool with the same number is where the other one is found
  have hk : e.ipToOrdinal ip = (ipToBigInt x - ipToBigInt base : Nat) :=
    (h.ipToOrdinal_eq_iff _).mpr ⟨by omega, by omega⟩
  exact hright.contains_iff.mp (hright.ordinal_iff.mp (by rw [hk]; exact Int.natCast_nonneg _))

theorem readPool_lan :
    readPool lan.spec.address = some (.block (v4InV6Prefix ++ [10, 0, 0, 0]) 8) := by
  decide +kernel

theorem count_lan : lan.count = 256 := by
  rw [Eip.count_eq readPool_lan]
  decide +kernel

theorem oneFamily_lan : lan.OneFamily := by
  have hv4 : (PoolText.block (v4InV6Prefix ++ [10, 0, 0, 0]) 8).IsV4 := by
    refine ⟨by decide, fun ip host he => ?_⟩
    cases he
    decide
  intro x y hx hy
  rw [(Eip.regular_of_isV4 readPool_lan hv4).oneFamily x y hx hy]

theorem position_iff_lan :
    lan.getSize = .ok ([10, 0, 0, 0], 256) ∧ (256 : Int) = lan.count ∧
      PositionRight lan [10, 0, 0, 0] lan.count [10, 0, 0, 7] := by
  have haccepted : lan.getSize = .ok ([10, 0, 0, 0], 256) := by decide +kernel
  have hexact : (256 : Int) = lan.count := by rw [count_lan]; rfl
  have hin : lan.Denotes (to16 [10, 0, 0, 7]) :=
    (Eip.denotes_iff readPool_lan _).mpr ⟨by decide, by decide +kernel⟩
  exact ⟨haccepted, hexact,
    (position_iff haccepted (by decide) hexact (by decide)).mpr ⟨oneFamily_lan, .inl hin⟩⟩

/-- **Addresses that are not in the pool have a position in it.**  The IPv6 address `::a00:7`
is in `10.0.0.0/24` for `Contains` and for `IPToOrdinal`; and `2001:db8:0:1::1` has position
0 in the pool from `2001:db8::1` to `2001:db8::2`. -/
theorem position_wrong :
    lan.getSize = .ok ([10, 0, 0, 0], 256) ∧ (256 : Int) = lan.count ∧
      lan.contains [0, 0, 0, 0, 0, 0, 0, 0, 0, 0, 0, 0, 10, 0, 0, 7] = true ∧
      lan.ipToOrdinal [0, 0, 0, 0, 0, 0, 0, 0, 0, 0, 0, 0, 10, 0, 0, 7] = 7 ∧
      ¬ lan.Denotes [0, 0, 0, 0, 0, 0, 0, 0, 0, 0, 0, 0, 10, 0, 0, 7] ∧
      pairEip.ipToOrdinal [32, 1, 13, 184, 0, 0, 0, 1, 0, 0, 0, 0, 0, 0, 0, 1] = 0 ∧
      pairEip.contains [32, 1, 13, 184, 0, 0, 0, 1, 0, 0, 0, 0, 0, 0, 0, 1] = false := by
  have hout : ¬ lan.Denotes [0, 0, 0, 0, 0, 0, 0, 0, 0, 0, 0, 0, 10, 0, 0, 7] := by
    rw [Eip.denotes_iff readPool_lan]
    rintro ⟨-, hdiv⟩
    exact absurd hdiv (by decide +kernel)
  exact ⟨by decide +kernel, by rw [count_lan]; rfl, by decide +kernel, by decide +kernel, hout,
    by decide +kernel, by decide +kernel⟩

end OpenELB
