import OpenELB.Admission
import Mathlib.Data.Set.Card
import Mathlib.Order.Interval.Finset.Nat

/-! # Whether the size of a pool is right

A pool text denotes an interval of sixteen-byte numbers, from `PoolText.lo` to
`PoolText.hi`, and `Eip.count` is how many addresses that are.  The code counts otherwise:
`GetSize` works in 64 bits and with a number that starts from zero in each family, and
`updateEip` finds the last address by adding to the first one, in as many bytes as that has.

So it is wrong for `2 ^ 63` addresses or more, for a range from one family to the other,
where it can even panic, and for an IPv6 block that ends in the mapped addresses, whose
last address prints as an IPv4 one (`pool_init_wrong`).  In all other cases the status
`updateEip` fills in is right (`pool_init_iff`). -/
namespace OpenELB
open Go

/-! ## Addresses as numbers -/

/-- The number is that of a mapped IPv4 address. -/
def Mapped (n : Nat) : Prop := n / 2 ^ 32 = 0xffff

instance (n : Nat) : Decidable (Mapped n) := inferInstanceAs (Decidable (_ = _))

/-- A number as an address. -/
theorem isSome_to4_iff {ip : IP} (h : IsAddr ip) :
    (to4 ip).isSome ↔ Mapped (beNat (to16 ip)) := by
  rcases h with h4 | h16
  · have hto := to4_of_length_four h4
    have hlt := beNat_lt ip
    rw [h4] at hlt
    rw [to16_of_to4 hto, hto, Mapped, beNat_append, h4]
    refine iff_of_true rfl ?_
    show (0xffff * 256 ^ 4 + beNat ip) / 2 ^ 32 = 0xffff
    omega
  · rw [to16_of_to4_none h16]
    exact to4_isSome_iff h16

theorem length_to16 {ip : IP} (h : IsAddr ip) : (to16 ip).length = 16 := by
  rcases h with h4 | h16
  · rw [to16_of_to4 (to4_of_length_four h4), List.length_append, h4]
    rfl
  · rwa [to16_of_to4_none h16]

/-- `IPToBigInt` counts the mapped addresses from zero, and all others as they are. -/
theorem beNat_to16 {ip : IP} (h : IsAddr ip) :
    beNat (to16 ip) = ipToBigInt ip + if (to4 ip).isSome then 0xffff * 2 ^ 32 else 0 := by
  have h16 := length_to16 h
  have hsome : (to4 (to16 ip)).isSome = (to4 ip).isSome := by
    rw [Bool.eq_iff_iff, to4_isSome_iff h16]
    exact (isSome_to4_iff h).symm
  rw [beNat_eq h16, ipToBigInt_to16 h16, hsome]
  rfl

/-- **Moving forward in the addresses of a family is adding to the number.** -/
theorem incrementIP_some {ip q : IP} {k : Nat} (h : IsAddr ip) (hq : incrementIP ip k = some q) :
    IsAddr q ∧ beNat (to16 q) = beNat (to16 ip) + k := by
  rw [incrementIP_natCast] at hq
  split at hq
  · rename_i hlt
    cases hq
    have hval := beNat_beBytes_of_lt hlt
    rw [beNat_to16 h]
    cases hv : to4 ip with
    | some p =>
      have hw : ipWidth ip = 4 := by simp [ipWidth, hv]
      rw [hw] at hval ⊢
      have hlen := length_beBytes 4 (ipToBigInt ip + k)
      refine ⟨.inl hlen, ?_⟩
      rw [to16_of_to4 (to4_of_length_four hlen), beNat_append, hlen, hval, Option.isSome_some,
        if_pos rfl]
      show 0xffff * 256 ^ 4 + (ipToBigInt ip + k) = _
      omega
    | none =>
      have hw : ipWidth ip = 16 := by simp [ipWidth, hv]
      rw [hw] at hval ⊢
      have hlen := length_beBytes 16 (ipToBigInt ip + k)
      refine ⟨.inr hlen, ?_⟩
      rw [to16_of_to4_none hlen, hval]
      simp
  · cases hq

/-- It does not panic as long as the number stays one of an address, and that of a mapped
one if it was. -/
theorem exists_incrementIP {ip : IP} {k : Nat} (h : IsAddr ip)
    (hlt : beNat (to16 ip) + k < 256 ^ 16)
    (hmap : Mapped (beNat (to16 ip)) → Mapped (beNat (to16 ip) + k)) :
    ∃ q, incrementIP ip k = some q := by
  have hnum := beNat_to16 h
  rw [incrementIP_natCast]
  refine ⟨_, if_pos ?_⟩
  cases hv : to4 ip with
  | some p =>
    have hmapped := hmap ((isSome_to4_iff h).mp (by rw [hv]; rfl))
    rw [Mapped, hnum, hv, Option.isSome_some, if_pos rfl] at hmapped
    rw [ipWidth, hv, Option.isSome_some, if_pos rfl]
    omega
  | none =>
    rw [hnum, hv] at hlt
    rw [ipWidth, hv]
    simpa using hlt

theorem int64_bounds (x : Int) : -2 ^ 63 ≤ int64 x ∧ int64 x < 2 ^ 63 :=
  ⟨Int.le_bmod (by decide), Int.bmod_lt (by decide)⟩

/-! ## What a text denotes, as an interval -/

namespace PoolText

/-- The number of the first address. -/
def lo : PoolText → Nat
  | .addr ip => beNat ip
  | .block ip host => beNat ip / 2 ^ host * 2 ^ host
  | .range first _ => beNat first

/-- The number of the last address. -/
def hi : PoolText → Nat
  | .addr ip => beNat ip
  | .block ip host => beNat ip / 2 ^ host * 2 ^ host + (2 ^ host - 1)
  | .range _ last => beNat last

/-- The text is one that was read. -/
structure Wf (t : PoolText) : Prop where
  ends : ∀ ip ∈ t.ends, ip.length = 16
  host : ∀ ip host, t = .block ip host → host ≤ 128

variable {t : PoolText}

theorem Wf.of_readPool {s : String} (ht : readPool s = some t) : t.Wf := by
  refine ⟨length_of_readPool ht, ?_⟩
  rintro ip host rfl
  cases readPool_iff.mp ht with
  | @block form _ n _ _ =>
    cases form
    · show 32 - n ≤ 128
      omega
    · show 128 - n ≤ 128
      omega

theorem Wf.hi_lt (h : t.Wf) : t.hi < 256 ^ 16 := by
  have hlt : ∀ ip ∈ t.ends, beNat ip < 256 ^ 16 := fun ip hip => h.ends ip hip ▸ beNat_lt ip
  cases t with
  | addr ip => exact hlt ip (List.mem_singleton_self ip)
  | block ip host => exact block_last_lt (hlt ip (List.mem_singleton_self ip)) (h.host ip host rfl)
  | range first last => exact hlt last (by simp [PoolText.ends])

/-- **The addresses of a pool are an interval.** -/
theorem Wf.has_iff (h : t.Wf) (x : IP) :
    t.Has x ↔ x.length = 16 ∧ t.lo ≤ beNat x ∧ beNat x ≤ t.hi := by
  cases t with
  | addr ip =>
    have hlen := h.ends ip (List.mem_singleton_self ip)
    constructor
    · rintro rfl
      exact ⟨hlen, le_refl _, le_refl _⟩
    · rintro ⟨hx, hle, hge⟩
      exact beNat_inj (hx.trans hlen.symm) (Nat.le_antisymm hge hle)
  | block ip host =>
    have hpos := Nat.two_pow_pos host
    show _ ∧ _ ↔ _ ∧ _ ∧ beNat x ≤ _ + (2 ^ host - 1)
    rw [Nat.div_eq_iff hpos, Nat.add_sub_assoc hpos]
    exact Iff.rfl
  | range first last => exact Iff.rfl

/-- The first and the last address, when there is one. -/
theorem Wf.has_beBytes (h : t.Wf) {n : Nat} (hlo : t.lo ≤ n) (hhi : n ≤ t.hi) :
    t.Has (beBytes 16 n) ∧ beNat (beBytes 16 n) = n := by
  have hval := beNat_beBytes_of_lt (k := 16) (Nat.lt_of_le_of_lt hhi h.hi_lt)
  refine ⟨(h.has_iff _).mpr ⟨length_beBytes .., ?_, ?_⟩, hval⟩
  · rwa [hval]
  · rwa [hval]

/-- How many addresses there are. -/
theorem Wf.ncard (h : t.Wf) : {x | t.Has x}.ncard = t.hi + 1 - t.lo := by
  have himage : {x | t.Has x} = beBytes 16 '' (Finset.Icc t.lo t.hi : Set Nat) := by
    ext x
    rw [Set.mem_image]
    constructor
    · intro hx
      obtain ⟨hlen, hle, hge⟩ := (h.has_iff x).mp hx
      refine ⟨beNat x, by simpa using ⟨hle, hge⟩, ?_⟩
      rw [← hlen]
      exact beBytes_beNat x
    · rintro ⟨n, hn, rfl⟩
      rw [Finset.coe_Icc, Set.mem_Icc] at hn
      exact (h.has_beBytes hn.1 hn.2).1
  have hinj : Set.InjOn (beBytes 16) (Finset.Icc t.lo t.hi : Set Nat) := by
    intro m hm n hn he
    rw [Finset.coe_Icc, Set.mem_Icc] at hm hn
    have hval := congrArg beNat he
    rwa [(h.has_beBytes hm.1 hm.2).2, (h.has_beBytes hn.1 hn.2).2] at hval
  rw [himage, hinj.ncard_image, Set.ncard_coe_finset, Nat.card_Icc]

end PoolText

/-- How many addresses the text of the Eip denotes. -/
noncomputable def Eip.count (e : Eip) : Nat := {x | e.Denotes x}.ncard

theorem Eip.denotes_iff {e : Eip} {t : PoolText} (ht : readPool e.spec.address = some t) (x : IP) :
    e.Denotes x ↔ t.Has x :=
  ⟨fun ⟨_, ht', hx⟩ => Option.some.inj (ht'.symm.trans ht) ▸ hx, fun hx => ⟨t, ht, hx⟩⟩

theorem Eip.count_eq {e : Eip} {t : PoolText} (ht : readPool e.spec.address = some t) :
    e.count = t.hi + 1 - t.lo := by
  rw [Eip.count, ← (PoolText.Wf.of_readPool ht).ncard]
  exact congrArg Set.ncard (Set.ext fun x => Eip.denotes_iff ht x)

/-! ## What `GetSize` reads -/

/-- The base is the first address of the text, and the size is right in 64 bits, if the
first and the last address are of one family. -/
structure SizeRead (t : PoolText) (base : IP) (size : Int) : Prop where
  isAddr : IsAddr base
  base_eq : beNat (to16 base) = t.lo
  size_eq : (Mapped t.lo ↔ Mapped t.hi) → size = int64 ((t.hi : Int) - t.lo + 1)
  bounds : -2 ^ 63 ≤ size ∧ size < 2 ^ 63

theorem isAddr_getD {ip : IP} (h : ip.length = 16) :
    IsAddr ((to4 ip).getD ip) ∧ to16 ((to4 ip).getD ip) = ip := by
  cases hv : to4 ip with
  | some p =>
    have hp := to4_length hv
    refine ⟨.inl hp, ?_⟩
    rw [Option.getD_some, to16_of_to4 (to4_of_length_four hp), ← to16_of_to4 hv,
      to16_of_to4_none h]
  | none => exact ⟨.inr h, to16_of_to4_none h⟩

theorem int64_int64_add_one (x : Int) : int64 (int64 x + 1) = int64 (x + 1) := by
  simp only [int64, Int.bmod_add_bmod]

theorem sizeRead_addr {ip : IP} (h : ip.length = 16) : SizeRead (.addr ip) ip 1 := by
  refine ⟨.inr h, by rw [to16_of_to4_none h]; rfl, fun _ => ?_, by decide⟩
  show (1 : Int) = int64 ((beNat ip : Int) - beNat ip + 1)
  rw [Int.sub_self]
  rfl

theorem sizeRead_block {s : String} {form : AddrForm} {ip : IP} {n : Nat}
    (h : parsePrefix s = some (form, ip, n)) :
    SizeRead (.block ip (form.bitLen - n)) (maskIP ip (cidrMask (form.bitLen / 8) n))
      (int64 (2 ^ (form.bitLen - n))) := by
  refine ⟨?_, (network_eq h).2, fun _ => ?_, int64_bounds _⟩
  · have hlen := (network_last h rfl).1
    cases form with
    | v4 => exact .inl hlen
    | v6 => exact .inr hlen
  · have hpos := Nat.two_pow_pos (form.bitLen - n)
    have hlast : (PoolText.block ip (form.bitLen - n)).hi =
        (PoolText.block ip (form.bitLen - n)).lo + (2 ^ (form.bitLen - n) - 1) := rfl
    have hcast : ((2 ^ (form.bitLen - n) : Nat) : Int) = 2 ^ (form.bitLen - n) := Nat.cast_pow ..
    rw [hlast, ← hcast]
    congr 1
    omega

theorem sizeRead_range {f l : IP} (hf : f.length = 16) (hl : l.length = 16) :
    SizeRead (.range f l) ((to4 f).getD f)
      (int64 (int64 ((ipToBigInt l : Int) - ipToBigInt f) + 1)) := by
  obtain ⟨haddr, hto⟩ := isAddr_getD hf
  refine ⟨haddr, by rw [hto]; rfl, fun hfam => ?_, int64_bounds _⟩
  have hfl : (to4 l).isSome = (to4 f).isSome := by
    rw [Bool.eq_iff_iff, to4_isSome_iff hl, to4_isSome_iff hf]
    exact hfam.symm
  rw [int64_int64_add_one, ipToBigInt_sub hl hf hfl]
  rfl

/-- **What `GetSize` accepts is a pool text, and this is what it reads in it.** -/
theorem getSize_ok {e : Eip} {base : IP} {size : Int} (h : e.getSize = .ok (base, size)) :
    ∃ t, readPool e.spec.address = some t ∧ SizeRead t base size := by
  cases hip : parseIP e.spec.address with
  | some ip =>
    rw [Eip.getSize, hip] at h
    cases h
    exact ⟨.addr base, readPool_iff.mpr (.addr hip), sizeRead_addr (length_parseIP hip)⟩
  | none =>
    cases hcidr : parsePrefix e.spec.address with
    | some p =>
      obtain ⟨form, ip, n⟩ := p
      rw [getSize_block hip hcidr] at h
      cases h
      exact ⟨.block ip (form.bitLen - n), readPool_iff.mpr (.block hip hcidr),
        sizeRead_block hcidr⟩
    | none =>
      obtain ⟨first, second, f, l, hsplit, hf, hl, rfl, -, rfl⟩ := getSize_range_inv h hip hcidr
      exact ⟨_, readPool_iff.mpr (.range hip hcidr hsplit hf hl),
        sizeRead_range (length_parseIP hf) (length_parseIP hl)⟩

/-! ## Filling in the status -/

/-- The addresses of the pool are at least one and fewer than `2 ^ 63`, and the first and
the last of them are of one family. -/
def Eip.Compact (e : Eip) : Prop :=
  e.count < 2 ^ 63 ∧ ∃ x y, e.Denotes x ∧ e.Denotes y ∧
    (∀ z, e.Denotes z → beNat x ≤ beNat z ∧ beNat z ≤ beNat y) ∧
    ((to4 x).isSome ↔ (to4 y).isSome)

/-- In terms of the interval. -/
theorem Eip.compact_iff {e : Eip} {t : PoolText} (ht : readPool e.spec.address = some t) :
    e.Compact ↔ t.lo ≤ t.hi ∧ t.hi - t.lo + 1 < 2 ^ 63 ∧ (Mapped t.lo ↔ Mapped t.hi) := by
  have hwf := PoolText.Wf.of_readPool ht
  rw [Eip.Compact, Eip.count_eq ht]
  simp only [Eip.denotes_iff ht]
  constructor
  · rintro ⟨hlt, x, y, hx, hy, hall, hfam⟩
    obtain ⟨hxlen, hxlo, hxhi⟩ := (hwf.has_iff x).mp hx
    obtain ⟨hylen, hylo, hyhi⟩ := (hwf.has_iff y).mp hy
    have hlohi : t.lo ≤ t.hi := Nat.le_trans hxlo hxhi
    -- the first and the last address are the ends of the interval
    obtain ⟨hlo, hloval⟩ := hwf.has_beBytes (le_refl t.lo) hlohi
    obtain ⟨hhi, hhival⟩ := hwf.has_beBytes hlohi (le_refl t.hi)
    have hxeq : beNat x = t.lo := by have := (hall _ hlo).1; omega
    have hyeq : beNat y = t.hi := by have := (hall _ hhi).2; omega
    rw [to4_isSome_iff hxlen, to4_isSome_iff hylen, hxeq, hyeq] at hfam
    exact ⟨hlohi, by omega, hfam⟩
  · rintro ⟨hlohi, hlt, hfam⟩
    obtain ⟨hlo, hloval⟩ := hwf.has_beBytes (le_refl t.lo) hlohi
    obtain ⟨hhi, hhival⟩ := hwf.has_beBytes hlohi (le_refl t.hi)
    refine ⟨by omega, _, _, hlo, hhi, fun z hz => ?_, ?_⟩
    · rw [hloval, hhival]
      exact ((hwf.has_iff z).mp hz).2
    · rw [to4_isSome_iff (length_beBytes ..), to4_isSome_iff (length_beBytes ..), hloval, hhival]
      exact hfam

/-- The status says what the text denotes: the first and the last address are of one
family, and as many as the pool size are from the one to the other and in the pool. -/
def Eip.InitExact (e e' : Eip) : Prop :=
  ∃ first last, parseIP e'.status.firstIP = some first ∧ parseIP e'.status.lastIP = some last ∧
    ((to4 first).isSome ↔ (to4 last).isSome) ∧ 1 ≤ e'.status.poolSize ∧
    (ipToBigInt last : Int) - ipToBigInt first + 1 = e'.status.poolSize ∧
    e'.status.poolSize = e.count

/-- `updateEip` of an Eip with a fresh status returns what `initStatus` fills in, with an
empty map of uses, or panics. -/
theorem trace_updateEip_fresh {e : Eip} (hfresh : e.status = {})
    {log : List (Prog.Event Call Reply)} {o : Outcome Eip} :
    Prog.Trace Honest (updateEip e) log o ↔
      (∃ e₁, initStatus e = some e₁ ∧ log = [⟨.rangeUsed Map.nil, []⟩] ∧
        o = .ok (e₁.setUsed Map.empty)) ∨
      initStatus e = none ∧ log = [] ∧ o = .panic := by
  rw [updateEip, if_pos (by rw [hfresh])]
  cases hinit : initStatus e with
  | none =>
    refine Code.run_crash_iff.trans ⟨fun ⟨hl, ho, _⟩ => .inr ⟨rfl, hl, ho⟩, ?_⟩
    rintro (⟨e₁, he₁, -⟩ | ⟨-, hl, ho⟩)
    · cases he₁
    · exact ⟨hl, ho, rfl⟩
  | some e₁ =>
    have hused : e₁.status.used = Map.nil := by rw [(initStatus_some hinit).2.1, hfresh]
    dsimp only
    rw [syncEip, hused, Code.api_bind]
    refine Prog.run_call_iff.trans ⟨?_, ?_⟩
    · rintro ⟨ks, s, l, hks, hrun, rfl⟩
      have hnil : ks = [] := by
        refine List.eq_nil_iff_forall_not_mem.mpr fun k hk => ?_
        obtain ⟨v, hv⟩ := (show Map.nil.Ranges ks from hks).get_isSome hk
        rw [Map.get_nil] at hv
        cases hv
      subst hnil
      obtain ⟨rfl, ho, -⟩ := Code.run_pure_iff.mp hrun
      exact .inl ⟨e₁, rfl, rfl, ho⟩
    · rintro (⟨e₂, he₂, rfl, rfl⟩ | ⟨hnone, -⟩)
      · cases he₂
        exact ⟨[], (), [], show Map.nil.Ranges [] by decide, Prog.Run.ret, rfl⟩
      · cases hnone

/-- What `initStatus` fills in. -/
theorem initStatus_of_getSize {e e₁ : Eip} {base : IP} {size : Int}
    (h : e.getSize = .ok (base, size)) (hinit : initStatus e = some e₁) :
    ∃ last, incrementIP base (int64 (size - 1)) = some last ∧ e₁.status.poolSize = size ∧
      e₁.status.firstIP = ipString base ∧ e₁.status.lastIP = ipString last := by
  rw [initStatus, Eip.baseAndSize, h] at hinit
  obtain ⟨last, hlast, rfl⟩ := Option.map_eq_some_iff.mp hinit
  exact ⟨last, hlast, rfl, rfl, rfl⟩

theorem exists_initStatus {e : Eip} {base last : IP} {size : Int}
    (h : e.getSize = .ok (base, size)) (hlast : incrementIP base (int64 (size - 1)) = some last) :
    ∃ e₁, initStatus e = some e₁ := by
  rw [initStatus, Eip.baseAndSize, h]
  exact ⟨_, Option.map_eq_some_iff.mpr ⟨last, hlast, rfl⟩⟩

section Ends
variable {t : PoolText} {base last : IP} {size : Int}

/-- With the right size, adding one less leads to the last address. -/
theorem SizeRead.last_eq (h : SizeRead t base size) {n : Nat} (hn : size = n) (hpos : 1 ≤ n)
    (hcount : n = t.hi + 1 - t.lo) (hlast : incrementIP base (int64 (size - 1)) = some last) :
    IsAddr last ∧ beNat (to16 last) = t.hi := by
  have hbounds := h.bounds
  have hm : int64 (size - 1) = ((n - 1 : Nat) : Int) := by
    rw [int64_of_lt (by omega) (by omega)]
    omega
  rw [hm] at hlast
  obtain ⟨haddr, hval⟩ := incrementIP_some h.isAddr hlast
  refine ⟨haddr, ?_⟩
  rw [hval, h.base_eq]
  omega

/-- A compact pool has the right size, and adding does not panic. -/
theorem SizeRead.exists_last (h : SizeRead t base size) (hwf : t.Wf) (hlohi : t.lo ≤ t.hi)
    (hlt : t.hi - t.lo + 1 < 2 ^ 63) (hfam : Mapped t.lo ↔ Mapped t.hi) :
    size = (t.hi - t.lo + 1 : Nat) ∧ ∃ last, incrementIP base (int64 (size - 1)) = some last := by
  have hsize : size = (t.hi - t.lo + 1 : Nat) := by
    rw [h.size_eq hfam, int64_of_lt (by omega) (by omega)]
    omega
  have hm : int64 (size - 1) = ((t.hi - t.lo : Nat) : Int) := by
    rw [int64_of_lt (by omega) (by omega)]
    omega
  have hval : t.lo + (t.hi - t.lo) = t.hi := by omega
  refine ⟨hsize, ?_⟩
  rw [hm]
  refine exists_incrementIP h.isAddr ?_ ?_
  · rw [h.base_eq, hval]
    exact hwf.hi_lt
  · rw [h.base_eq, hval]
    exact hfam.mp

end Ends

/-- A status that was filled in is right exactly if the pool is compact. -/
theorem initExact_iff {e e₁ : Eip} {t : PoolText} {base : IP} {size : Int}
    (haccepted : e.getSize = .ok (base, size)) (ht : readPool e.spec.address = some t)
    (hread : SizeRead t base size) (hinit : initStatus e = some e₁) :
    e.InitExact (e₁.setUsed Map.empty) ↔ e.Compact := by
  have hcount := Eip.count_eq ht
  have hwf := PoolText.Wf.of_readPool ht
  obtain ⟨q, hq, hpool, hfirstIP, hlastIP⟩ := initStatus_of_getSize haccepted hinit
  have hfirst : parseIP (e₁.setUsed Map.empty).status.firstIP = some (to16 base) := by
    rw [← parseIP_ipString hread.isAddr, ← hfirstIP]
    rfl
  have hpool' : (e₁.setUsed Map.empty).status.poolSize = size := hpool
  -- with the right size the two addresses of the status are the ends of the interval
  have hends : size = e.count → 1 ≤ size →
      parseIP (e₁.setUsed Map.empty).status.lastIP = some (to16 q) ∧ (to16 q).length = 16 ∧
        beNat (to16 q) = t.hi := by
    intro hsize hpos
    obtain ⟨hqaddr, hqval⟩ := hread.last_eq hsize (by omega) hcount hq
    refine ⟨?_, length_to16 hqaddr, hqval⟩
    rw [← parseIP_ipString hqaddr, ← hlastIP]
    rfl
  rw [Eip.compact_iff ht]
  constructor
  · rintro ⟨first, last, hf, hl, hfam, hpos, -, hsize⟩
    rw [hpool'] at hpos hsize
    obtain ⟨hlast, hqlen, hqval⟩ := hends hsize hpos
    cases hfirst.symm.trans hf
    cases hlast.symm.trans hl
    rw [to4_isSome_iff (length_to16 hread.isAddr), to4_isSome_iff hqlen, hread.base_eq,
      hqval] at hfam
    have hbounds := hread.bounds
    exact ⟨by omega, by omega, hfam⟩
  · rintro ⟨hlohi, hlt, hfam⟩
    have hsize := (hread.exists_last hwf hlohi hlt hfam).1
    obtain ⟨hlast, hqlen, hqval⟩ := hends (by omega) (by omega)
    have hfam' : (to4 (to16 base)).isSome ↔ (to4 (to16 q)).isSome := by
      rw [to4_isSome_iff (length_to16 hread.isAddr), to4_isSome_iff hqlen, hread.base_eq, hqval]
      exact hfam
    have hsub := ipToBigInt_sub hqlen (length_to16 hread.isAddr) (Bool.eq_iff_iff.mpr hfam'.symm)
    rw [hread.base_eq, hqval] at hsub
    refine ⟨to16 base, to16 q, hfirst, hlast, hfam', ?_⟩
    rw [hpool', hsub]
    exact ⟨by omega, by omega, by omega⟩

/-- **The pool is initialised right exactly if it is compact.**  For every text that
`GetSize` accepts, `updateEip` of an Eip with a fresh status returns, with a status that
says what the text denotes, if and only if the text denotes at least one and fewer than
`2 ^ 63` addresses, and the first and the last of them are of one family. -/
theorem pool_init_iff {e : Eip} {base : IP} {size : Int} (hfresh : e.status = {})
    (haccepted : e.getSize = .ok (base, size)) :
    ((∃ log o, Prog.Trace Honest (updateEip e) log o) ∧
      ∀ log o, Prog.Trace Honest (updateEip e) log o → ∃ e', o = .ok e' ∧ e.InitExact e') ↔
    e.Compact := by
  obtain ⟨t, ht, hread⟩ := getSize_ok haccepted
  simp only [trace_updateEip_fresh hfresh]
  constructor
  · rintro ⟨⟨log, o, hrun⟩, hall⟩
    obtain ⟨e', rfl, hexact⟩ := hall log o hrun
    rcases hrun with ⟨e₁, hinit, -, ho⟩ | ⟨-, -, ho⟩
    · cases ho
      exact (initExact_iff haccepted ht hread hinit).mp hexact
    · cases ho
  · intro hcompact
    obtain ⟨hlohi, hlt, hfam⟩ := (Eip.compact_iff ht).mp hcompact
    obtain ⟨-, q, hq⟩ := hread.exists_last (.of_readPool ht) hlohi hlt hfam
    obtain ⟨e₁, hinit⟩ := exists_initStatus haccepted hq
    refine ⟨⟨_, _, .inl ⟨e₁, hinit, rfl, rfl⟩⟩, ?_⟩
    rintro log o (⟨e₂, hinit₂, -, rfl⟩ | ⟨hnone, -⟩)
    · exact ⟨_, rfl, (initExact_iff haccepted ht hread hinit₂).mpr hcompact⟩
    · cases hnone.symm.trans hinit

theorem pair_ne_empty : "pair" ≠ "" := by decide

/-- A pool of two addresses. -/
def pairEip : Eip :=
  { name := "pair", spec := { address := "2001:db8::1-2001:db8::2" }, name_ne := pair_ne_empty }

theorem pool_init_iff_pair :
    pairEip.getSize = .ok ([32, 1, 13, 184, 0, 0, 0, 0, 0, 0, 0, 0, 0, 0, 0, 1], 2) ∧
      ∃ log e', Prog.Trace Honest (updateEip pairEip) log (.ok e') ∧ pairEip.InitExact e' := by
  have haccepted : pairEip.getSize =
      .ok ([32, 1, 13, 184, 0, 0, 0, 0, 0, 0, 0, 0, 0, 0, 0, 1], 2) := by decide +kernel
  have hread : (readPool pairEip.spec.address).map (fun t =>
      decide (t.lo ≤ t.hi ∧ t.hi - t.lo + 1 < 2 ^ 63 ∧ (Mapped t.lo ↔ Mapped t.hi))) =
      some true := by decide +kernel
  obtain ⟨t, ht, hcompact⟩ := Option.map_eq_some_iff.mp hread
  obtain ⟨⟨log, o, hrun⟩, hall⟩ := (pool_init_iff rfl haccepted).mpr
    ((Eip.compact_iff ht).mpr (of_decide_eq_true hcompact))
  obtain ⟨e', rfl, hexact⟩ := hall log o hrun
  exact ⟨haccepted, log, e', hrun, hexact⟩

theorem across_ne_empty : "across" ≠ "" := by decide

/-- A range from an IPv4 address to an IPv6 address. -/
def acrossEip : Eip :=
  { name := "across", spec := { address := "10.0.0.1-::1:0:0" }, name_ne := across_ne_empty }

/-- **A pool can crash the controller, or be empty.**  `GetSize` accepts the range from
`10.0.0.1` to `::1:0:0`, and `updateEip` panics as the last address does not fit into four
bytes.  It accepts a block of `2 ^ 64` addresses, and gives it the pool size 0. -/
theorem pool_init_wrong :
    acrossEip.getSize = .ok ([10, 0, 0, 1], 4127195136) ∧ acrossEip.status = {} ∧
      Prog.Trace Honest (updateEip acrossEip) [] .panic ∧
      wide.getSize = .ok ([32, 1, 13, 184, 0, 0, 0, 0, 0, 0, 0, 0, 0, 0, 0, 0], 0) ∧
      wide.status = {} ∧
      ∃ log e', Prog.Trace Honest (updateEip wide) log (.ok e') ∧ e'.status.poolSize = 0 := by
  have hcrash : initStatus acrossEip = none := by decide +kernel
  have hzero : (initStatus wide).map (fun e => e.status.poolSize) = some 0 := by
    decide +kernel
  obtain ⟨e₁, hinit, hsize⟩ := Option.map_eq_some_iff.mp hzero
  have hpanic : Prog.Trace Honest (updateEip acrossEip) [] .panic :=
    (trace_updateEip_fresh rfl).mpr (.inr ⟨hcrash, rfl, rfl⟩)
  have hrun : Prog.Trace Honest (updateEip wide) [⟨.rangeUsed Map.nil, []⟩]
      (.ok (e₁.setUsed Map.empty)) :=
    (trace_updateEip_fresh rfl).mpr (.inl ⟨e₁, hinit, rfl, rfl⟩)
  exact ⟨by decide +kernel, rfl, hpanic, by decide +kernel, rfl, _, _, hrun, hsize⟩

end OpenELB
