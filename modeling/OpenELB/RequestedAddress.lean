import OpenELB.LowestFree
import OpenELB.PoolPositions

/-! # A requested address

A service that names an address should get it or be refused.  `assignIPFromEip` takes three
ways with the text of the request.  A text that is no address is taken for no request at
all, so the service gets any free address.  An address goes through `IPToOrdinal`, which
takes some addresses that are not in the pool for one that is (`PoolPositions`).  And a
text that lists the service already is returned as it is.

`requested_iff` says exactly which requests are honoured or refused. -/
namespace OpenELB
open Go

/-- `updateEip` has filled in the status of the Eip, from a text with an exact size. -/
def Eip.Initialised (e : Eip) : Prop :=
  ∃ e₀ e₁ log, e₀.spec.address = e.spec.address ∧ e₀.status = {} ∧
    Prog.Trace Honest (updateEip e₀) log (.ok e₁) ∧ e₁.status.poolSize = e₀.count ∧
    e.status.firstIP = e₁.status.firstIP ∧ e.status.poolSize = e₁.status.poolSize

/-- If an address is returned, it is the one that the request names, and lists the service;
and a request for no address of the pool is refused. -/
structure HonouredOrRefused (keys : List String) (allocate : SvcRecord) (e : Eip) : Prop where
  honoured : ∀ addr e', assignIPFromEip keys allocate e = .ok (addr, e') →
    (∃ ip, parseIP allocate.ip = some ip ∧ parseIP addr = some ip) ∧
      allocate.key ∈ e'.listed addr
  refused : (∀ ip, parseIP allocate.ip = some ip → ¬ e.Denotes ip) →
    ∃ err, assignIPFromEip keys allocate e = .err err

/-- The requests that are treated right.  A text that is no address finds all addresses of
the pool taken.  An address lists the service under the text already, or it is in the pool
and of the family of the first address, or its number is modulo `2 ^ 64` none of those
that follow the first one. -/
structure Eip.Clear (e : Eip) (allocate : SvcRecord) : Prop where
  invalid : parseIP allocate.ip = none →
    ∀ addr, e.HasAddr addr → (e.status.used.get addr).isSome
  valid : ∀ ip b, parseIP allocate.ip = some ip → parseIP e.status.firstIP = some b →
    allocate.key ∈ e.listed allocate.ip ∨
      (';' ∉ allocate.key.toList ∧ e.Denotes ip ∧ ((to4 ip).isSome ↔ (to4 b).isSome)) ∨
      ∀ k : Nat, (k : Int) < e.status.poolSize →
        (ipToBigInt ip : Int) % 2 ^ 64 ≠ ((ipToBigInt b : Int) + k) % 2 ^ 64

/-! ## What the status says of the pool -/

theorem Eip.Denotes.length {e : Eip} {x : IP} (h : e.Denotes x) : x.length = 16 := by
  obtain ⟨t, ht, hx⟩ := h
  exact (((PoolText.Wf.of_readPool ht).has_iff x).mp hx).1

theorem ipWidth_to16 {ip : IP} (h : IsAddr ip) : ipWidth (to16 ip) = ipWidth ip := by
  have hsome : (to4 (to16 ip)).isSome = (to4 ip).isSome := by
    rw [Bool.eq_iff_iff, to4_isSome_iff (length_to16 h)]
    exact (isSome_to4_iff h).symm
  rw [ipWidth, ipWidth, hsome]

/-- A pool and the status that was filled in for it. -/
structure ReadyPool (e : Eip) (base : IP) (n : Nat) : Prop extends e.Pool base n where
  shape : PoolShape e (to16 base)
  size : e.status.poolSize = n

theorem getSize_congr {e e₀ : Eip} (h : e₀.spec.address = e.spec.address) :
    e.getSize = e₀.getSize := by
  unfold Eip.getSize
  rw [h]

theorem count_congr {e e₀ : Eip} (h : e₀.spec.address = e.spec.address) : e.count = e₀.count := by
  unfold Eip.count Eip.Denotes
  rw [h]

/-- A status that was filled in is that of an empty pool, or of one whose addresses are those
of the text. -/
theorem Eip.Initialised.empty_or_ready {e : Eip} (h : e.Initialised) :
    (e.status.poolSize = 0 ∧ ∀ ip, e.ipToOrdinal ip = -1) ∨ ∃ base n, ReadyPool e base n := by
  obtain ⟨e₀, e₁, log, haddr, hfresh, hrun, hexact, hfirst, hsize⟩ := h
  rcases (trace_updateEip_fresh hfresh).mp hrun with ⟨e₂, hinit, -, ho⟩ | ⟨-, -, ho⟩
  · cases ho
    cases hget : e₀.getSize with
    | error msg =>
      rw [initStatus, Eip.baseAndSize, hget] at hinit
      obtain ⟨last, -, rfl⟩ := Option.map_eq_some_iff.mp hinit
      refine .inl ⟨hsize, fun ip => ?_⟩
      rw [Eip.ipToOrdinal, getSize_congr haddr, hget]
    | ok p =>
      obtain ⟨base, size⟩ := p
      obtain ⟨last, hlast, hpool, hbase, -⟩ := initStatus_of_getSize hget hinit
      have hcount : size = e₀.count := hpool.symm.trans hexact
      have hgete : e.getSize = .ok (base, size) := (getSize_congr haddr).trans hget
      have hpoole : e.status.poolSize = size := hsize.trans hpool
      by_cases hzero : size = 0
      · refine .inl ⟨hpoole.trans hzero, fun ip => ?_⟩
        rw [Eip.ipToOrdinal, hgete]
        dsimp only
        rw [if_pos (by omega)]
      · have hp : e.Pool base e.count :=
          Eip.pool_of_exact hgete (by omega) (by rw [count_congr haddr]; exact hcount)
        have hlt := hp.lt
        have hn : size = e.count := by rw [count_congr haddr]; exact hcount
        refine .inr ⟨base, e.count, hp, ⟨?_, fun k hk => ?_⟩, hpoole.trans hn⟩
        · rw [hfirst]
          exact (congrArg parseIP hbase).trans (parseIP_ipString hp.isAddr)
        · -- the last address is one of the family, so those before it are
          have hm : int64 (size - 1) = ((e.count - 1 : Nat) : Int) := by
            rw [int64_of_lt (by omega) (by omega)]
            omega
          rw [hm, incrementIP_natCast] at hlast
          split at hlast
          · rw [ipWidth_to16 hp.isAddr, ipToBigInt_to16 (length_to16 hp.isAddr)]
            omega
          · cases hlast
  · cases ho

namespace ReadyPool
variable {e : Eip} {base ip : IP} {n : Nat}

/-- The address at a position is in the pool. -/
theorem parseIP_poolAddr (h : ReadyPool e base n) {k : Nat} (hk : k < n) :
    ∃ x, parseIP (poolAddr (to16 base) k) = some x ∧ e.Denotes x ∧
      beNat x = beNat (to16 base) + k := by
  obtain ⟨x, hx, hlen, hval⟩ := h.shape.parseIP_poolAddr (show (k : Int) < _ by rw [h.size]; omega)
  rw [to16_of_to4_none (length_to16 h.isAddr)] at hval
  exact ⟨x, hx, (h.denotes x).mpr ⟨hlen, by omega, by omega⟩, hval⟩

/-- An address is the one at its position if it is in the pool and of the family of the
first one, and only then. -/
theorem position_right_iff (h : ReadyPool e base n) (hip : ip.length = 16) {k : Nat}
    (hk : e.ipToOrdinal ip = k) :
    beNat ip = beNat (to16 base) + k ↔
      e.Denotes ip ∧ ((to4 ip).isSome ↔ (to4 (to16 base)).isSome) := by
  obtain ⟨hkn, hmod⟩ := (h.ipToOrdinal_eq_iff k).mp hk
  have hlt := h.lt
  have hnum := beNat_to16 (.inr hip : IsAddr ip)
  have hbase := beNat_to16 (.inr (length_to16 h.isAddr) : IsAddr (to16 base))
  rw [to16_of_to4_none hip] at hnum
  rw [to16_of_to4_none (length_to16 h.isAddr), ipToBigInt_to16 (length_to16 h.isAddr)] at hbase
  constructor
  · intro hval
    refine ⟨(h.denotes ip).mpr ⟨hip, by omega, by omega⟩, Bool.eq_iff_iff.mp ?_⟩
    -- addresses of two families are apart by less than `2 ^ 64`
    by_contra hne
    cases hq : (to4 ip).isSome <;> cases hb : (to4 (to16 base)).isSome
    · exact hne (hq.trans hb.symm)
    · rw [hq, if_neg Bool.false_ne_true] at hnum
      rw [hb, if_pos rfl] at hbase
      omega
    · rw [hq, if_pos rfl] at hnum
      rw [hb, if_neg Bool.false_ne_true] at hbase
      omega
    · exact hne (hq.trans hb.symm)
  · rintro ⟨hd, hfam⟩
    obtain ⟨-, hle, hhi⟩ := (h.denotes ip).mp hd
    rw [Bool.eq_iff_iff.mpr hfam] at hnum
    omega

end ReadyPool

/-! ## The request -/

/-- A loop with a named address stops where it starts. -/
theorem PoolShape.scanPool_true {e : Eip} {b : IP} (h : PoolShape e b) (key : String) (fuel : Nat)
    {k : Nat} (hk : (k : Int) < e.status.poolSize) :
    ∃ e', scanPool true key e (fuel + 1) k = .ok (poolAddr b k, e') := by
  rw [scanPool, h.addrAt_eq hk]
  dsimp only
  cases e.status.used.get (poolAddr b k) with
  | none => exact ⟨_, rfl⟩
  | some tmp => exact ⟨_, rfl⟩

/-- A service is listed after an assignment if it was before, or its key can be told from
two keys. -/
theorem Assigned.mem_listed_iff {allocate : SvcRecord} {e e' : Eip} {addr : String}
    (h : Assigned allocate e addr e') :
    allocate.key ∈ e'.listed addr ↔ ';' ∉ allocate.key.toList := by
  refine ⟨fun hmem => ?_, h.mem_listed⟩
  obtain ⟨svcs, -, hin⟩ := Eip.exists_get_of_mem_listed hmem
  exact notMem_of_mem_split hin

section Request
variable {e : Eip} {keys : List String} {allocate : SvcRecord}

/-- A service that is listed under the text it requests gets the address of the text. -/
theorem honouredOrRefused_of_listed (hdel : e.deletionTimestamp = false)
    (hdis : e.spec.disable = false) (hkeys : e.status.used.Ranges keys)
    (hused : ∀ addr, (e.status.used.get addr).isSome → ∃ x, e.Denotes x ∧ addr = ipString x)
    (hmem : allocate.key ∈ e.listed allocate.ip) : HonouredOrRefused keys allocate e := by
  have hassign := assignIPFromEip_of_mem hdel hdis hkeys hmem
  obtain ⟨svcs, hget, -⟩ := Eip.exists_get_of_mem_listed hmem
  obtain ⟨x, hx, htext⟩ := hused _ (by rw [hget]; rfl)
  have hparse : parseIP allocate.ip = some x := by
    rw [htext, parseIP_ipString (.inr hx.length), to16_of_to4_none hx.length]
  refine ⟨fun addr e' he => ?_, fun hout => absurd hx (hout x hparse)⟩
  rw [hassign] at he
  cases he
  exact ⟨⟨x, hparse, hparse⟩, hmem⟩

/-- Nothing is wrong with an error. -/
theorem honouredOrRefused_of_err {err : Err} (h : assignIPFromEip keys allocate e = .err err) :
    HonouredOrRefused keys allocate e := by
  refine ⟨fun addr e' he => ?_, fun _ => ⟨err, h⟩⟩
  rw [h] at he
  cases he

/-- The text is no address: that is right if nothing is free. -/
theorem honouredOrRefused_iff_of_none (hinit : e.Initialised) (hdel : e.deletionTimestamp = false)
    (hdis : e.spec.disable = false) (hkeys : e.status.used.Ranges keys)
    (hmem : allocate.key ∉ e.listed allocate.ip) (hparse : parseIP allocate.ip = none) :
    HonouredOrRefused keys allocate e ↔
      ∀ addr, e.HasAddr addr → (e.status.used.get addr).isSome := by
  have hassign := assignIPFromEip_of_parseIP_none hdel hdis hkeys hmem hparse
  rcases hinit.empty_or_ready with ⟨hzero, -⟩ | ⟨base, n, hready⟩
  · rw [hzero] at hassign
    refine iff_of_true (honouredOrRefused_of_err hassign) ?_
    rintro addr ⟨offset, h0, hlt, -⟩
    omega
  · rcases hready.shape.scanPool_free_or_full allocate.key with
      ⟨k, hlt, hfree, -, hr⟩ | ⟨hall, hr⟩
    · refine iff_of_false (fun hgood => ?_) fun hfull => ?_
      · obtain ⟨⟨ip, hip, -⟩, -⟩ := hgood.honoured _ _ (hassign.trans hr)
        rw [hparse] at hip
        cases hip
      · have hsome := hfull _ (hready.shape.hasAddr hlt)
        rw [hfree] at hsome
        cases hsome
    · refine iff_of_true (honouredOrRefused_of_err (hassign.trans hr)) ?_
      rintro addr ⟨offset, h0, hlt, hat⟩
      obtain ⟨k, rfl⟩ := Int.eq_ofNat_of_zero_le h0
      rw [hready.shape.addrAt_eq hlt, Option.some.injEq] at hat
      exact hat ▸ hall k hlt

/-- The text is an address with a position: that is right if the address is in the pool and
of the family of the first one. -/
theorem honouredOrRefused_iff_of_ordinal {base ip : IP} {n k : Nat} (hready : ReadyPool e base n)
    (hdel : e.deletionTimestamp = false) (hdis : e.spec.disable = false)
    (hkeys : e.status.used.Ranges keys) (hmem : allocate.key ∉ e.listed allocate.ip)
    (hparse : parseIP allocate.ip = some ip) (hk : e.ipToOrdinal ip = k) :
    HonouredOrRefused keys allocate e ↔ ';' ∉ allocate.key.toList ∧ e.Denotes ip ∧
      ((to4 ip).isSome ↔ (to4 (to16 base)).isSome) := by
  have hkn := ((hready.ipToOrdinal_eq_iff k).mp hk).1
  have hsize := hready.size
  have hlen := length_parseIP hparse
  obtain ⟨e', hr⟩ := hready.shape.scanPool_true allocate.key (n - k - 1)
    (show (k : Int) < e.status.poolSize by omega)
  have hassign : assignIPFromEip keys allocate e = .ok (poolAddr (to16 base) k, e') := by
    rw [assignIPFromEip_of_parseIP_some hdel hdis hkeys hmem hparse, hk,
      if_neg (by omega), ← hr]
    congr 1
    omega
  have hlisted := (assignIPFromEip_ok hassign).2.2.mem_listed_iff
  obtain ⟨x, hx, hdx, hval⟩ := hready.parseIP_poolAddr hkn
  rw [← hready.position_right_iff hlen hk]
  constructor
  · intro hgood
    obtain ⟨⟨ip', hip', haddr⟩, hin⟩ := hgood.honoured _ _ hassign
    cases hparse.symm.trans hip'
    cases hx.symm.trans haddr
    exact ⟨hlisted.mp hin, hval⟩
  · rintro ⟨hkey, hpos⟩
    obtain rfl : x = ip := beNat_inj (hdx.length.trans hlen.symm) (hval.trans hpos.symm)
    refine ⟨fun addr e'' he => ?_, fun hout => absurd hdx (hout x hparse)⟩
    rw [hassign] at he
    cases he
    exact ⟨⟨x, hparse, hx⟩, hlisted.mpr hkey⟩

/-- The request is new and its text is an address: that is right if the address is in the pool
and of the family of the first one, or if it has no position. -/
theorem honouredOrRefused_iff_of_some {ip : IP} (hinit : e.Initialised)
    (hdel : e.deletionTimestamp = false) (hdis : e.spec.disable = false)
    (hkeys : e.status.used.Ranges keys) (hmem : allocate.key ∉ e.listed allocate.ip)
    (hparse : parseIP allocate.ip = some ip) :
    HonouredOrRefused keys allocate e ↔ ∀ b, parseIP e.status.firstIP = some b →
      (';' ∉ allocate.key.toList ∧ e.Denotes ip ∧ ((to4 ip).isSome ↔ (to4 b).isSome)) ∨
        ∀ k : Nat, (k : Int) < e.status.poolSize →
          (ipToBigInt ip : Int) % 2 ^ 64 ≠ ((ipToBigInt b : Int) + k) % 2 ^ 64 := by
  have hassign := assignIPFromEip_of_parseIP_some hdel hdis hkeys hmem hparse
  rcases hinit.empty_or_ready with ⟨hzero, hord⟩ | ⟨base, n, hready⟩
  · rw [hord, if_pos (by decide)] at hassign
    exact iff_of_true (honouredOrRefused_of_err hassign) fun b _ => .inr fun k hk => by omega
  have hsize := hready.size
  have hnum := ipToBigInt_to16 (length_to16 hready.isAddr)
  have hfirst := hready.shape.first
  by_cases hord : e.ipToOrdinal ip < 0
  · rw [if_pos hord] at hassign
    refine iff_of_true (honouredOrRefused_of_err hassign) fun b hb => .inr fun k hk hmod => ?_
    cases hfirst.symm.trans hb
    rw [hnum] at hmod
    have hat := (hready.ipToOrdinal_eq_iff k).mpr ⟨by omega, hmod⟩
    omega
  · obtain ⟨k, hk⟩ := Int.eq_ofNat_of_zero_le (not_lt.mp hord)
    obtain ⟨hkn, hmod⟩ := (hready.ipToOrdinal_eq_iff k).mp hk
    rw [honouredOrRefused_iff_of_ordinal hready hdel hdis hkeys hmem hparse hk]
    refine ⟨fun hin b hb => .inl ?_, fun hc => (hc _ hfirst).resolve_right fun hno => ?_⟩
    · cases hfirst.symm.trans hb
      exact hin
    · exact hno k (by omega) (by rw [hnum]; exact hmod)

/-- **Which requests are honoured or refused.**  For every Eip that is enabled and not being
deleted, whose status `updateEip` has filled in from an exact pool size, whatever is in
use of the pool, and for every request: the request is honoured or refused if and only if
it is clear. -/
theorem requested_iff (hinit : e.Initialised) (hdel : e.deletionTimestamp = false)
    (hdis : e.spec.disable = false)
    (hused : ∀ addr, (e.status.used.get addr).isSome → ∃ x, e.Denotes x ∧ addr = ipString x)
    (hkeys : e.status.used.Ranges keys) :
    HonouredOrRefused keys allocate e ↔ e.Clear allocate := by
  by_cases hmem : allocate.key ∈ e.listed allocate.ip
  · have hgood := honouredOrRefused_of_listed hdel hdis hkeys hused hmem
    refine iff_of_true hgood ⟨fun hparse => ?_, fun ip b _ _ => .inl hmem⟩
    obtain ⟨⟨ip, hip, -⟩, -⟩ :=
      hgood.honoured _ _ (assignIPFromEip_of_mem hdel hdis hkeys hmem)
    rw [hparse] at hip
    cases hip
  cases hparse : parseIP allocate.ip with
  | none =>
    rw [honouredOrRefused_iff_of_none hinit hdel hdis hkeys hmem hparse]
    refine ⟨fun hfull => ⟨fun _ => hfull, fun ip b hip _ => ?_⟩, fun hclear => hclear.invalid hparse⟩
    rw [hparse] at hip
    cases hip
  | some ip =>
    rw [honouredOrRefused_iff_of_some hinit hdel hdis hkeys hmem hparse]
    refine ⟨fun hc => ⟨fun hnone => ?_, fun ip' b hip' hb => ?_⟩, fun hc b hb =>
      (hc.valid ip b hparse hb).resolve_left hmem⟩
    · rw [hparse] at hnone
      cases hnone
    · cases hparse.symm.trans hip'
      exact .inr (hc b hb)

end Request

/-- The pool `10.0.0.0/24` as the controller leaves it when it is new. -/
def lanReady : Eip :=
  { lan with status := {
      poolSize := 256, used := Map.empty, firstIP := "10.0.0.0", lastIP := "10.0.0.255", v4 := true } }

theorem initialised_lanReady : lanReady.Initialised := by
  have hstatus : initStatus lan = some { lanReady with status.used := Map.nil } := by decide +kernel
  have hrun : Prog.Trace Honest (updateEip lan) [⟨.rangeUsed Map.nil, []⟩] (.ok lanReady) :=
    (trace_updateEip_fresh rfl).mpr (.inl ⟨_, hstatus, rfl, rfl⟩)
  exact ⟨lan, lanReady, _, rfl, rfl, hrun, by rw [count_lan]; rfl, rfl, rfl⟩

theorem used_lanReady (addr : String) (h : (lanReady.status.used.get addr).isSome) :
    ∃ x, lanReady.Denotes x ∧ addr = ipString x := by
  cases h

theorem requested_iff_lan :
    lanReady.Initialised ∧ HonouredOrRefused [] ⟨"ns/svc", "10.0.0.7", "lan"⟩ lanReady := by
  have hin : lanReady.Denotes (v4InV6Prefix ++ [10, 0, 0, 7]) :=
    (Eip.denotes_iff (show readPool lanReady.spec.address = _ from readPool_lan) _).mpr
      ⟨by decide, by decide +kernel⟩
  have hparse : parseIP "10.0.0.7" = some (v4InV6Prefix ++ [10, 0, 0, 7]) := by decide +kernel
  have hfirst : parseIP lanReady.status.firstIP = some (v4InV6Prefix ++ [10, 0, 0, 0]) := by
    decide +kernel
  refine ⟨initialised_lanReady, (requested_iff initialised_lanReady rfl rfl used_lanReady
    (by decide)).mpr ⟨fun hnone => ?_, fun ip b hip hb => ?_⟩⟩
  · cases hparse.symm.trans hnone
  · cases hparse.symm.trans hip
    cases hfirst.symm.trans hb
    exact .inr (.inl ⟨by decide, hin, by decide +kernel⟩)

/-- **A request can get another address.**  In the new pool `10.0.0.0/24`, a request for
`foo`, which is no address, gets `10.0.0.0`; one for the IPv6 address `::a00:7`, which is not
in the pool, gets `10.0.0.7`. -/
theorem requested_wrong :
    lanReady.Initialised ∧ lanReady.deletionTimestamp = false ∧ lanReady.spec.disable = false ∧
      lanReady.status.used.Ranges [] ∧ parseIP "foo" = none ∧
      (∃ e', assignIPFromEip [] ⟨"ns/svc", "foo", "lan"⟩ lanReady = .ok ("10.0.0.0", e')) ∧
      parseIP "::a00:7" = some [0, 0, 0, 0, 0, 0, 0, 0, 0, 0, 0, 0, 10, 0, 0, 7] ∧
      ¬ lanReady.Denotes [0, 0, 0, 0, 0, 0, 0, 0, 0, 0, 0, 0, 10, 0, 0, 7] ∧
      ∃ e', assignIPFromEip [] ⟨"ns/svc", "::a00:7", "lan"⟩ lanReady = .ok ("10.0.0.7", e') := by
  have hout : ¬ lanReady.Denotes [0, 0, 0, 0, 0, 0, 0, 0, 0, 0, 0, 0, 10, 0, 0, 7] := by
    rw [Eip.denotes_iff (show readPool lanReady.spec.address = _ from readPool_lan)]
    rintro ⟨-, hdiv⟩
    exact absurd hdiv (by decide +kernel)
  have hfoo : assignIPFromEip [] ⟨"ns/svc", "foo", "lan"⟩ lanReady =
      .ok ("10.0.0.0", lanReady.addEntry "10.0.0.0" "ns/svc") := by decide +kernel
  have hv6 : assignIPFromEip [] ⟨"ns/svc", "::a00:7", "lan"⟩ lanReady =
      .ok ("10.0.0.7", lanReady.addEntry "10.0.0.7" "ns/svc") := by decide +kernel
  exact ⟨initialised_lanReady, rfl, rfl, by decide, by decide +kernel, ⟨_, hfoo⟩,
    by decide +kernel, hout, _, hv6⟩

end OpenELB
