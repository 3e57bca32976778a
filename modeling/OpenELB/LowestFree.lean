import OpenELB.PoolInvariant
import OpenELB.PoolSizes

/-! # Automatic allocation

A service that names no address gets the lowest one of the pool that nobody has
(`lowest_free_assigned`).  The loop of `assignIPFromEip` visits the texts of the first
address, the next one and so on (`poolAddr`).  They are all different, so counting the
entries of `Used` tells whether one is left (`Pooled.exists_free_iff`). -/
namespace OpenELB
open Go

/-- The text of the `k`th address after `b`. -/
def poolAddr (b : IP) (k : Nat) : String := ipString (beBytes (ipWidth b) (ipToBigInt b + k))

/-- The first address of the pool is `b`, and as many as the pool size are addresses of its
family. -/
structure PoolShape (e : Eip) (b : IP) : Prop where
  first : parseIP e.status.firstIP = some b
  fits : ∀ k : Nat, (k : Int) < e.status.poolSize → ipToBigInt b + k < 256 ^ ipWidth b

namespace PoolShape
variable {e : Eip} {b : IP}

theorem isAddr (h : PoolShape e b) : IsAddr b := .inr (length_parseIP h.first)

theorem incrementIP_eq (h : PoolShape e b) {k : Nat} (hk : (k : Int) < e.status.poolSize) :
    incrementIP b k = some (beBytes (ipWidth b) (ipToBigInt b + k)) := by
  rw [incrementIP_natCast, if_pos (h.fits k hk)]

/-- The addresses the loop visits. -/
theorem addrAt_eq (h : PoolShape e b) {k : Nat} (hk : (k : Int) < e.status.poolSize) :
    e.addrAt k = some (poolAddr b k) := by
  have hsame : incrementIP ((to4 b).getD b) k = incrementIP b k := by
    cases hv : to4 b with
    | none => rfl
    | some p =>
      rw [Option.getD_some]
      simp [incrementIP, ipToBigInt, hv, to4_of_length_four (to4_length hv)]
  rw [Eip.addrAt, cnetParseIP, h.first, Option.map_some]
  dsimp only
  rw [hsame, h.incrementIP_eq hk]
  rfl

theorem hasAddr (h : PoolShape e b) {k : Nat} (hk : (k : Int) < e.status.poolSize) :
    e.HasAddr (poolAddr b k) :=
  ⟨k, Int.natCast_nonneg k, hk, h.addrAt_eq hk⟩

/-- The address a text of the pool stands for. -/
theorem parseIP_poolAddr (h : PoolShape e b) {k : Nat} (hk : (k : Int) < e.status.poolSize) :
    ∃ x : IP, parseIP (poolAddr b k) = some x ∧ x.length = 16 ∧ beNat x = beNat (to16 b) + k := by
  obtain ⟨haddr, hval⟩ := incrementIP_some h.isAddr (h.incrementIP_eq hk)
  exact ⟨_, parseIP_ipString haddr, length_to16 haddr, hval⟩

/-- The addresses have different texts. -/
theorem poolAddr_inj (h : PoolShape e b) {j k : Nat} (hj : (j : Int) < e.status.poolSize)
    (hk : (k : Int) < e.status.poolSize) (he : poolAddr b j = poolAddr b k) : j = k := by
  obtain ⟨x, hx, -, hxval⟩ := h.parseIP_poolAddr hj
  obtain ⟨y, hy, -, hyval⟩ := h.parseIP_poolAddr hk
  rw [he, hy] at hx
  cases hx
  omega

/-- The loop without a named address finds the lowest one that is free from its offset
on, if there is one. -/
theorem scanPool_false (h : PoolShape e b) (key : String) (fuel offset : Nat)
    (hfuel : (offset : Int) + fuel ≤ e.status.poolSize) :
    (∃ k, offset ≤ k ∧ (k : Int) < e.status.poolSize ∧ e.status.used.get (poolAddr b k) = none ∧
        (∀ j, offset ≤ j → j < k → (e.status.used.get (poolAddr b j)).isSome) ∧
        scanPool false key e fuel offset =
          .ok (poolAddr b k, e.addEntry (poolAddr b k) key)) ∨
      (∀ k, offset ≤ k → k < offset + fuel → (e.status.used.get (poolAddr b k)).isSome) ∧
        scanPool false key e fuel offset = .err (.text "no suitable ip to allocate") := by
  induction fuel generalizing offset with
  | zero => exact .inr ⟨fun k _ _ => by omega, rfl⟩
  | succ fuel ih =>
    have hat := h.addrAt_eq (show (offset : Int) < e.status.poolSize by omega)
    cases hget : e.status.used.get (poolAddr b offset) with
    | none =>
      refine .inl ⟨offset, le_refl _, by omega, hget, fun j _ _ => by omega, ?_⟩
      rw [scanPool, hat]
      simp only [hget]
    | some svcs =>
      have hstep : scanPool false key e (fuel + 1) offset =
          scanPool false key e fuel ((offset + 1 : Nat) : Int) := by
        rw [scanPool, hat]
        simp only [hget, Bool.false_eq_true, if_false, Nat.cast_add, Nat.cast_one]
      have hhere : (e.status.used.get (poolAddr b offset)).isSome := by rw [hget]; rfl
      rw [hstep]
      rcases ih (offset + 1) (by omega) with
        ⟨k, hle, hlt, hfree, hbefore, hr⟩ | ⟨hall, hr⟩
      · refine .inl ⟨k, by omega, hlt, hfree, fun j hj hjk => ?_, hr⟩
        by_cases hjo : j = offset
        · exact hjo ▸ hhere
        · exact hbefore j (by omega) hjk
      · refine .inr ⟨fun k hle hlt => ?_, hr⟩
        by_cases hko : k = offset
        · exact hko ▸ hhere
        · exact hall k (by omega) (by omega)

/-- The whole loop: it finds the lowest address that is free, or all are taken. -/
theorem scanPool_free_or_full (h : PoolShape e b) (key : String) :
    (∃ k : Nat, (k : Int) < e.status.poolSize ∧ e.status.used.get (poolAddr b k) = none ∧
        (∀ j < k, (e.status.used.get (poolAddr b j)).isSome) ∧
        scanPool false key e e.status.poolSize.toNat 0 =
          .ok (poolAddr b k, e.addEntry (poolAddr b k) key)) ∨
      (∀ k : Nat, (k : Int) < e.status.poolSize → (e.status.used.get (poolAddr b k)).isSome) ∧
        scanPool false key e e.status.poolSize.toNat 0 =
          .err (.text "no suitable ip to allocate") := by
  by_cases hpos : 0 ≤ e.status.poolSize
  · rcases h.scanPool_false key e.status.poolSize.toNat 0 (by omega) with
      ⟨k, -, hlt, hfree, hbefore, hr⟩ | ⟨hall, hr⟩
    · exact .inl ⟨k, hlt, hfree, fun j hj => hbefore j (Nat.zero_le j) hj, hr⟩
    · exact .inr ⟨fun k hk => hall k (Nat.zero_le k) (by omega), hr⟩
  · rw [show e.status.poolSize.toNat = 0 by omega]
    exact .inr ⟨fun k hk => by omega, rfl⟩

end PoolShape

/-- The pool invariant: the keys of `Used` are texts of addresses of the pool, and `Usage` is
their number. -/
structure Pooled (e : Eip) (b : IP) : Prop extends PoolShape e b where
  keys : ∀ addr, (e.status.used.get addr).isSome →
    ∃ k : Nat, (k : Int) < e.status.poolSize ∧ addr = poolAddr b k
  usage : e.status.usage = e.status.used.len

namespace Pooled
variable {e : Eip} {b : IP}

/-- **Counting tells whether an address is free.** -/
theorem exists_free_iff (h : Pooled e b) :
    (∃ k : Nat, (k : Int) < e.status.poolSize ∧ e.status.used.get (poolAddr b k) = none) ↔
      e.status.usage < e.status.poolSize := by
  rw [h.usage]
  constructor
  · rintro ⟨k, hk, hfree⟩
    -- with one entry more there are still no more than addresses
    have hle : ((e.status.used.set (poolAddr b k) "").len : Int) ≤ e.status.poolSize := by
      refine len_le_poolSize (by omega) fun addr haddr => ?_
      rw [Map.get_set] at haddr
      split at haddr
      · rename_i he
        exact he ▸ h.hasAddr hk
      · obtain ⟨j, hj, rfl⟩ := h.keys addr haddr
        exact h.hasAddr hj
    rw [Map.len_set_new "" hfree] at hle
    omega
  · intro hlt
    by_contra hnone
    push Not at hnone
    obtain ⟨n, hn⟩ := Int.eq_ofNat_of_zero_le (show 0 ≤ e.status.poolSize by omega)
    have hnodup : ((List.range n).map (poolAddr b)).Nodup := by
      refine List.Nodup.map_on (fun j hj k hk he => ?_) List.nodup_range
      rw [List.mem_range] at hj hk
      exact h.poolAddr_inj (by omega) (by omega) he
    have hle := Map.le_len_of_keys hnodup (m := e.status.used) fun addr haddr => by
      obtain ⟨k, hk, rfl⟩ := List.mem_map.mp haddr
      rw [List.mem_range] at hk
      exact Option.isSome_iff_ne_none.mpr (hnone k (by omega))
    rw [List.length_map, List.length_range] at hle
    omega

/-- The empty text is no address of the pool. -/
theorem get_empty_text (h : Pooled e b) : e.status.used.get "" = none := by
  by_contra hsome
  obtain ⟨k, hk, he⟩ := h.keys "" (Option.isSome_iff_ne_none.mpr hsome)
  exact (h.hasAddr hk).ne_empty he.symm

end Pooled

/-- **Automatic allocation finds the lowest free address.**  For an Eip that is enabled, not
being deleted and satisfies the pool invariant, an assignment without an address succeeds
exactly if `Usage` is below the pool size.  Then it returns the text of the lowest address
that is not in `Used`, enters the key there, updates `Usage` and `Occupied`, and changes
nothing else; otherwise it returns an error. -/
theorem lowest_free_assigned {e : Eip} {b : IP} {keys : List String} (key name : String)
    (h : Pooled e b) (hdel : e.deletionTimestamp = false) (hdis : e.spec.disable = false)
    (hkeys : e.status.used.Ranges keys) :
    ((∃ r, assignIPFromEip keys ⟨key, "", name⟩ e = .ok r) ↔
        e.status.usage < e.status.poolSize) ∧
      (∀ addr e', assignIPFromEip keys ⟨key, "", name⟩ e = .ok (addr, e') →
        ∃ k : Nat, (k : Int) < e.status.poolSize ∧ addr = poolAddr b k ∧
          e.status.used.get addr = none ∧
          (∀ j < k, (e.status.used.get (poolAddr b j)).isSome) ∧
          e' = { e with status := { e.status with
            used := e.status.used.set addr key
            usage := e.status.usage + 1
            occupied := if e.status.usage + 1 = e.status.poolSize then true
              else e.status.occupied } }) ∧
      (¬ (∃ r, assignIPFromEip keys ⟨key, "", name⟩ e = .ok r) →
        assignIPFromEip keys ⟨key, "", name⟩ e = .err (.text "no suitable ip to allocate")) := by
  have hfresh : key ∉ e.listed "" := by
    rw [Eip.listed_of_get_none h.get_empty_text]
    exact List.not_mem_nil
  have hscan : assignIPFromEip keys ⟨key, "", name⟩ e =
      scanPool false key e e.status.poolSize.toNat 0 :=
    assignIPFromEip_of_parseIP_none hdel hdis hkeys hfresh (show parseIP "" = none by decide)
  rw [hscan, ← h.exists_free_iff]
  have hnone : scanPool false key e e.status.poolSize.toNat 0 =
      .err (.text "no suitable ip to allocate") →
      ¬ ∃ r, scanPool false key e e.status.poolSize.toNat 0 = .ok r := by
    rintro hr ⟨r, he⟩
    rw [hr] at he
    cases he
  rcases h.scanPool_free_or_full key with ⟨k, hlt, hfree, hbefore, hr⟩ | ⟨hall, hr⟩
  · refine ⟨iff_of_true ⟨_, hr⟩ ⟨k, hlt, hfree⟩, fun addr e' he => ?_, fun hno => ?_⟩
    · rw [hr] at he
      cases he
      refine ⟨k, hlt, rfl, hfree, hbefore, ?_⟩
      have hlen : ((e.status.used.set (poolAddr b k) key).len : Int) = e.status.usage + 1 := by
        rw [Map.len_set_new key hfree, h.usage]
        rfl
      rw [Eip.addEntry]
      dsimp only
      rw [hlen]
    · exact absurd ⟨_, hr⟩ hno
  · refine ⟨iff_of_false (hnone hr) ?_, fun addr e' he => absurd ⟨_, he⟩ (hnone hr), fun _ => hr⟩
    rintro ⟨k, hlt, hfree⟩
    have hsome := hall k hlt
    rw [hfree] at hsome
    cases hsome

/-- The first address of the pool with two addresses. -/
def twoFirst : IP := v4InV6Prefix ++ [192, 0, 2, 1]

theorem pooled_oneTaken : Pooled (twoAddressesReady.addEntry "192.0.2.1" "ns/a") twoFirst where
  first := by decide +kernel
  fits k hk := by
    have hk : (k : Int) < 2 := hk
    rw [show ipToBigInt twoFirst = 3221225985 by decide +kernel,
      show ipWidth twoFirst = 4 by decide +kernel]
    omega
  keys addr haddr := by
    have haddr : ((twoAddressesReady.status.used.set "192.0.2.1" "ns/a").get addr).isSome := haddr
    rw [Map.get_set] at haddr
    split at haddr
    · rename_i he
      exact ⟨0, by decide, he.trans (by decide +kernel)⟩
    · cases haddr
  usage := rfl

theorem lowest_free_assigned_oneTaken :
    ∃ e', assignIPFromEip ["192.0.2.1"] ⟨"ns/b", "", "pool"⟩
        (twoAddressesReady.addEntry "192.0.2.1" "ns/a") = .ok ("192.0.2.2", e') ∧
      e'.status.used.get "192.0.2.2" = some "ns/b" ∧ e'.status.occupied = true := by
  have hkeys : (twoAddressesReady.addEntry "192.0.2.1" "ns/a").status.used.Ranges ["192.0.2.1"] := by
    decide +kernel
  obtain ⟨hok, hres, -⟩ := lowest_free_assigned "ns/b" "pool" pooled_oneTaken rfl rfl hkeys
  obtain ⟨⟨addr, e'⟩, hr⟩ := hok.mpr (by decide +kernel)
  obtain ⟨k, hk, rfl, hfree, hbefore, rfl⟩ := hres addr e' hr
  have hk : (k : Int) < 2 := hk
  have hne : k ≠ 0 := by
    rintro rfl
    exact absurd hfree (by decide +kernel)
  obtain rfl : k = 1 := by omega
  have haddr : poolAddr twoFirst 1 = "192.0.2.2" := by decide +kernel
  rw [haddr] at hr
  exact ⟨_, hr, Map.get_set_self .., by decide +kernel⟩

end OpenELB
