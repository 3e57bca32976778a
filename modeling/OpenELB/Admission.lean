import OpenELB.GoCidr
import OpenELB.Records
import Mathlib.Logic.Relation

/-! # Whether admitted pools are disjoint

The webhook admits an Eip if it overlaps with none that is stored.  What an
address text denotes is defined here without regard to the code (`PoolText.Has`):
an address, the addresses that share a prefix, or those between two, as numbers of
sixteen bytes in which the IPv4 addresses are the mapped ones.

`IsOverlap` compares intervals whose length has gone through a 64-bit integer, and
counts IPv4 addresses and IPv6 addresses from zero each.  So it is wrong for an
IPv6 block of `2 ^ 64` addresses or more, which has length zero for it
(`pools_overlap`), and for one that has the mapped addresses in it but begins
before them.  For all others two pools that share an address are found to overlap
(`isOverlap_of_common`), and admission keeps the pools disjoint (`pools_disjoint`). -/
namespace OpenELB
open Go

/-! ## What an address text denotes -/

/-- The three ways to write a pool. -/
inductive PoolText where
  | addr (ip : IP)
  /-- The addresses that agree with `ip` in all but the last `host` bits. -/
  | block (ip : IP) (host : Nat)
  | range (first last : IP)
  deriving DecidableEq

/-- How an address text is read. -/
def readPool (s : String) : Option PoolText :=
  match parseIP s with
  | some ip => some (.addr ip)
  | none =>
    match parsePrefix s with
    | some (form, ip, n) => some (.block ip (form.bitLen - n))
    | none =>
      match splitTwo '-' s with
      | [first, second] =>
        match parseIP first, parseIP second with
        | some first, some last => some (.range first last)
        | _, _ => none
      | _ => none

/-- How a text comes to be read as a pool. -/
inductive PoolRead (s : String) : PoolText → Prop
  | addr {ip : IP} : parseIP s = some ip → PoolRead s (.addr ip)
  | block {form : AddrForm} {ip : IP} {n : Nat} : parseIP s = none →
      parsePrefix s = some (form, ip, n) → PoolRead s (.block ip (form.bitLen - n))
  | range {first second : String} {f l : IP} : parseIP s = none → parsePrefix s = none →
      splitTwo '-' s = [first, second] → parseIP first = some f → parseIP second = some l →
      PoolRead s (.range f l)

theorem readPool_iff {s : String} {t : PoolText} : readPool s = some t ↔ PoolRead s t := by
  constructor
  · intro ht
    rw [readPool] at ht
    split at ht
    · rename_i ip hip
      cases ht
      exact .addr hip
    · rename_i hip
      split at ht
      · rename_i form ip n hcidr
        cases ht
        exact .block hip hcidr
      · rename_i hcidr
        split at ht
        · rename_i first second hsplit
          split at ht
          · rename_i f l hf hl
            cases ht
            exact .range hip hcidr hsplit hf hl
          · cases ht
        · cases ht
  · intro ht
    rw [readPool]
    cases ht with
    | addr hip => rw [hip]
    | block hip hcidr => rw [hip, hcidr]
    | range hip hcidr hsplit hf hl =>
      rw [hip]
      dsimp only
      rw [hcidr]
      dsimp only
      rw [hsplit]
      dsimp only
      rw [hf, hl]

/-- The addresses of a pool, in sixteen bytes. -/
def PoolText.Has : PoolText → IP → Prop
  | .addr ip, x => x = ip
  | .block ip host, x => x.length = 16 ∧ beNat x / 2 ^ host = beNat ip / 2 ^ host
  | .range first last, x => x.length = 16 ∧ beNat first ≤ beNat x ∧ beNat x ≤ beNat last

/-- The Eip denotes the address. -/
def Eip.Denotes (e : Eip) (x : IP) : Prop := ∃ t, readPool e.spec.address = some t ∧ t.Has x

/-- The pools the overlap check is right for: no more than `2 ^ 63` addresses, and all
of them IPv4 addresses or none. -/
structure Eip.Regular (e : Eip) : Prop where
  narrow : ∀ x y, e.Denotes x → e.Denotes y → beNat y < beNat x + 2 ^ 63
  oneFamily : ∀ x y, e.Denotes x → e.Denotes y → (to4 x).isSome = (to4 y).isSome

/-! ## Numbers of addresses -/

/-- What is lost in 64 bits when one is added comes back when it is taken away. -/
theorem int64_add_one_sub_one {m : Int} (h0 : 0 ≤ m) (h : m < 2 ^ 63) :
    int64 (int64 (m + 1) - 1) = m := by
  simp only [int64, Int.bmod]
  split <;> split <;> omega

theorem int64_of_lt {m : Int} (h0 : 0 ≤ m) (h : m < 2 ^ 63) : int64 m = m := by
  simp only [int64, Int.bmod]
  split <;> omega

theorem ipToBigInt_to16 {ip : IP} (h : (to16 ip).length = 16) :
    ipToBigInt (to16 ip) = ipToBigInt ip := by
  by_cases h4 : ip.length = 4
  · have hto := to4_of_length_four h4
    rw [ipToBigInt, to16_of_to4 hto, to4_prefix h4, ipToBigInt, hto]
  · rw [to16, if_neg h4] at h ⊢
    split at h
    · rename_i h16
      rw [if_pos h16]
    · cases h

/-- The mapped addresses are counted from zero, and all others as they are. -/
theorem beNat_eq {x : IP} (hx : x.length = 16) :
    beNat x = ipToBigInt x + if (to4 x).isSome then beNat v4InV6Prefix * 256 ^ 4 else 0 := by
  have h16 := to16_of_to4_none hx
  cases hv : to4 x with
  | some p =>
    have hx' : x = v4InV6Prefix ++ p := h16.symm.trans (to16_of_to4 hv)
    rw [ipToBigInt, hv, Option.isSome_some, if_pos rfl]
    nth_rewrite 1 [hx']
    rw [beNat_append, to4_length hv]
    exact Nat.add_comm _ _
  | none =>
    rw [ipToBigInt, hv, h16]
    simp

/-- In one family, `IPToBigInt` counts as the sixteen-byte numbers do. -/
theorem ipToBigInt_sub {x y : IP} (hx : x.length = 16) (hy : y.length = 16)
    (h : (to4 x).isSome = (to4 y).isSome) :
    (ipToBigInt x : Int) - ipToBigInt y = (beNat x : Int) - beNat y := by
  have hx' := beNat_eq hx
  have hy' := beNat_eq hy
  rw [h] at hx'
  omega

/-! ## Pools as intervals -/

section Interval
variable {e : Eip} {x first base : IP} {size m : Int}

/-- An address that is `m` or less after the first one is in the interval. -/
theorem within_of_getSize (hsize : e.getSize = .ok (base, size))
    (hbase : ipToBigInt base = ipToBigInt first) (hfirst : first.length = 16) (hx : x.length = 16)
    (hfam : (to4 x).isSome = (to4 first).isSome) (hm : int64 (size - 1) = m)
    (hlow : beNat first ≤ beNat x) (hhigh : (beNat x : Int) ≤ beNat first + m) :
    (ipToBigInt e.baseAndSize.1 : Int) ≤ ipToBigInt x ∧ (ipToBigInt x : Int) ≤ e.lastInt := by
  have hsub := ipToBigInt_sub hx hfirst hfam
  rw [Eip.lastInt, Eip.baseAndSize, hsize]
  dsimp only
  rw [hbase, hm]
  omega

/-- The last address of a block. -/
theorem exists_last_of_block {ip : IP} {host : Nat} (hip : ip.length = 16) (hhost : host ≤ 128) :
    ∃ last : IP, (PoolText.block ip host).Has last ∧
      beNat last = beNat ip / 2 ^ host * 2 ^ host + (2 ^ host - 1) := by
  have hpos := Nat.two_pow_pos host
  have hlt : beNat ip / 2 ^ host * 2 ^ host + (2 ^ host - 1) < 256 ^ 16 := by
    have hip' := beNat_lt ip
    rw [hip] at hip'
    exact block_last_lt hip' hhost
  have hval := beNat_beBytes_of_lt hlt
  refine ⟨beBytes 16 _, ⟨length_beBytes .., ?_⟩, hval⟩
  rw [hval, Nat.mul_comm, Nat.mul_add_div hpos, Nat.div_eq_of_lt (show 2 ^ host - 1 < 2 ^ host by omega),
    Nat.add_zero]

/-- `GetSize` of a block. -/
theorem getSize_block {form : AddrForm} {ip : IP} {n : Nat} (haddr : parseIP e.spec.address = none)
    (hcidr : parsePrefix e.spec.address = some (form, ip, n)) :
    e.getSize = .ok (maskIP ip (cidrMask (form.bitLen / 8) n), int64 (2 ^ (form.bitLen - n))) := by
  have hbits : 8 * (form.bitLen / 8) = form.bitLen := by cases form <;> rfl
  have hn := (parsePrefix_some hcidr).2.2
  rw [Eip.getSize, haddr, parseCIDR, hcidr]
  dsimp only [Option.map_some]
  rw [maskSize_cidrMask (by omega), hbits]

theorem ipToBigInt_getD (ip : IP) : ipToBigInt ((to4 ip).getD ip) = ipToBigInt ip := by
  cases hv : to4 ip with
  | some p => simp [ipToBigInt, hv, to4_of_length_four (to4_length hv)]
  | none => simp

/-- `GetSize` of a range, if its length fits. -/
theorem getSize_range {first last : String} {f l : IP} (haddr : parseIP e.spec.address = none)
    (hcidr : parsePrefix e.spec.address = none) (hsplit : splitTwo '-' e.spec.address = [first, last])
    (hf : parseIP first = some f) (hl : parseIP last = some l)
    (h0 : 0 ≤ (ipToBigInt l : Int) - ipToBigInt f) (h : (ipToBigInt l : Int) - ipToBigInt f < 2 ^ 63) :
    e.getSize =
      .ok ((to4 f).getD f, int64 ((ipToBigInt l : Int) - ipToBigInt f + 1)) := by
  rw [Eip.getSize, haddr, parseCIDR, hcidr]
  dsimp only [Option.map_none]
  rw [hsplit]
  dsimp only
  rw [cnetParseIP, cnetParseIP, hf, hl]
  dsimp only [Option.map_some]
  rw [ipToBigInt_getD, ipToBigInt_getD, int64_of_lt h0 h, if_neg (by omega)]

/-- What `GetSize` has found for a range. -/
theorem getSize_range_inv (h : e.getSize = .ok (base, size))
    (hip : parseIP e.spec.address = none) (hcidr : parsePrefix e.spec.address = none) :
    ∃ first second f l, splitTwo '-' e.spec.address = [first, second] ∧ parseIP first = some f ∧
      parseIP second = some l ∧ base = (to4 f).getD f ∧
      0 ≤ int64 ((ipToBigInt l : Int) - ipToBigInt f) ∧
      size = int64 (int64 ((ipToBigInt l : Int) - ipToBigInt f) + 1) := by
  rw [Eip.getSize, hip, parseCIDR, hcidr] at h
  dsimp only [Option.map_none] at h
  split at h
  · rename_i first second hsplit
    split at h
    · rename_i b b' hb hb'
      obtain ⟨f, hf, rfl⟩ := Option.map_eq_some_iff.mp hb
      obtain ⟨l, hl, rfl⟩ := Option.map_eq_some_iff.mp hb'
      rw [ipToBigInt_getD, ipToBigInt_getD] at h
      split at h
      · cases h
      · rename_i hord
        cases h
        exact ⟨first, second, f, l, hsplit, hf, hl, rfl, Int.not_lt.mp hord, rfl⟩
    · cases h
  · cases h

/-- A block: its first and its last address are less than `2 ^ 63` apart. -/
theorem Eip.Regular.within_block (h : e.Regular) {form : AddrForm} {ip : IP} {n : Nat}
    (haddr : parseIP e.spec.address = none) (hcidr : parsePrefix e.spec.address = some (form, ip, n))
    (ht : readPool e.spec.address = some (.block ip (form.bitLen - n)))
    (hhas : (PoolText.block ip (form.bitLen - n)).Has x) :
    (ipToBigInt e.baseAndSize.1 : Int) ≤ ipToBigInt x ∧ (ipToBigInt x : Int) ≤ e.lastInt := by
  obtain ⟨hxlen, hxdiv⟩ := hhas
  obtain ⟨hlen, -, hn⟩ := parsePrefix_some hcidr
  obtain ⟨hnlen, hnet⟩ := network_eq hcidr
  have hhost : form.bitLen - n ≤ 128 := by cases form <;> (simp only [AddrForm.bitLen]; omega)
  have hpos := Nat.two_pow_pos (form.bitLen - n)
  have hfirst : (PoolText.block ip (form.bitLen - n)).Has
      (to16 (maskIP ip (cidrMask (form.bitLen / 8) n))) := by
    refine ⟨hnlen, ?_⟩
    rw [hnet, Nat.mul_div_cancel _ hpos]
  obtain ⟨last, hlast, hlastval⟩ := exists_last_of_block hlen hhost
  have hsmall := h.narrow _ _ ⟨_, ht, hfirst⟩ ⟨_, ht, hlast⟩
  rw [hnet, hlastval] at hsmall
  have hmod := Nat.div_add_mod (beNat x) (2 ^ (form.bitLen - n))
  have hlt := Nat.mod_lt (beNat x) hpos
  rw [hxdiv, Nat.mul_comm] at hmod
  have hm := int64_add_one_sub_one (m := (2 ^ (form.bitLen - n) : Nat) - 1) (by omega) (by omega)
  rw [Int.sub_add_cancel, Nat.cast_pow] at hm
  refine within_of_getSize (getSize_block haddr hcidr) (ipToBigInt_to16 hnlen).symm hnlen hxlen
    (h.oneFamily _ _ ⟨_, ht, hxlen, hxdiv⟩ ⟨_, ht, hfirst⟩) hm ?_ ?_
  · omega
  · have hhigh : beNat x + 1 ≤ beNat ip / 2 ^ (form.bitLen - n) * 2 ^ (form.bitLen - n) +
        2 ^ (form.bitLen - n) := hmod ▸ Nat.add_lt_add_left hlt _
    rw [hnet, ← Int.add_sub_assoc, Int.le_sub_one_iff, ← Nat.cast_pow, ← Nat.cast_add]
    exact Int.ofNat_lt.mpr hhigh

/-- A range: its ends are less than `2 ^ 63` apart. -/
theorem Eip.Regular.within_range (h : e.Regular) {first last : String} {f l : IP}
    (haddr : parseIP e.spec.address = none) (hcidr : parsePrefix e.spec.address = none)
    (hsplit : splitTwo '-' e.spec.address = [first, last]) (hf : parseIP first = some f)
    (hl : parseIP last = some l) (ht : readPool e.spec.address = some (.range f l))
    (hhas : (PoolText.range f l).Has x) :
    (ipToBigInt e.baseAndSize.1 : Int) ≤ ipToBigInt x ∧ (ipToBigInt x : Int) ≤ e.lastInt := by
  obtain ⟨hxlen, hlow, hhigh⟩ := hhas
  have hx : e.Denotes x := ⟨_, ht, hxlen, hlow, hhigh⟩
  have hfirst : e.Denotes f := ⟨_, ht, length_parseIP hf, le_rfl, by omega⟩
  have hlast : e.Denotes l := ⟨_, ht, length_parseIP hl, by omega, le_rfl⟩
  have hsmall := h.narrow _ _ hfirst hlast
  have hsub := ipToBigInt_sub (length_parseIP hl) (length_parseIP hf)
    (h.oneFamily _ _ hlast hfirst)
  exact within_of_getSize (getSize_range haddr hcidr hsplit hf hl (by omega) (by omega))
    (ipToBigInt_getD f) (length_parseIP hf) hxlen (h.oneFamily _ _ hx hfirst)
    (int64_add_one_sub_one (by omega) (by omega)) hlow (by omega)

/-- **The addresses of a regular pool are in the interval** that the code computes. -/
theorem Eip.Regular.within (h : e.Regular) (hx : e.Denotes x) :
    (ipToBigInt e.baseAndSize.1 : Int) ≤ ipToBigInt x ∧ (ipToBigInt x : Int) ≤ e.lastInt := by
  obtain ⟨t, ht, hhas⟩ := hx
  cases readPool_iff.mp ht with
  | @addr ip hip =>
    obtain rfl : x = ip := hhas
    have hlen := length_parseIP hip
    have hsize : e.getSize = .ok (x, 1) := by rw [Eip.getSize, hip]
    exact within_of_getSize hsize rfl hlen hlen rfl (m := 0) rfl le_rfl (by omega)
  | block hip hcidr => exact h.within_block hip hcidr ht hhas
  | range hip hcidr hsplit hf hl => exact h.within_range hip hcidr hsplit hf hl ht hhas

/-- **Regular pools that share an address are found to overlap.** -/
theorem isOverlap_of_common {e' : Eip} (h : e.Regular) (h' : e'.Regular) (hx : e.Denotes x)
    (hx' : e'.Denotes x) : e.isOverlap e' = true := by
  obtain ⟨hlow, hhigh⟩ := h.within hx
  obtain ⟨hlow', hhigh'⟩ := h'.within hx'
  rw [Eip.isOverlap, decide_eq_true_iff]
  rintro (hlt | hlt)
  · exact absurd (hlow.trans hhigh') (Int.not_le.mpr hlt)
  · exact absurd (hlow'.trans hhigh) (Int.not_le.mpr hlt)

end Interval

/-! ## IPv4 pools are regular -/

/-- The mapped addresses are a block. -/
theorem to4_isSome_iff {x : IP} (hx : x.length = 16) :
    (to4 x).isSome ↔ beNat x / 2 ^ 32 = 0xffff := by
  have hdrop : (x.drop 12).length = 4 := by rw [List.length_drop, hx]
  have hlt := beNat_lt (x.drop 12)
  have hsplit := beNat_append (x.take 12) (x.drop 12)
  rw [List.take_append_drop, hdrop] at hsplit
  rw [hdrop] at hlt
  have hval : beNat v4InV6Prefix = 0xffff := rfl
  have hto4 : (to4 x).isSome ↔ x.take 12 = v4InV6Prefix := by
    by_cases h : x.take 12 = v4InV6Prefix <;> simp [to4, hx, h]
  rw [hto4]
  constructor
  · intro h
    rw [h, hval] at hsplit
    omega
  · intro h
    refine beNat_inj (by rw [List.length_take, hx]; rfl) ?_
    omega

/-- The addresses that the text is written with. -/
def PoolText.ends : PoolText → List IP
  | .addr ip | .block ip _ => [ip]
  | .range first last => [first, last]

/-- The pool is written with IPv4 addresses only. -/
def PoolText.IsV4 (t : PoolText) : Prop :=
  (∀ ip ∈ t.ends, (to4 ip).isSome) ∧ ∀ ip host, t = .block ip host → host ≤ 32

theorem length_of_readPool {s : String} {t : PoolText} (ht : readPool s = some t) :
    ∀ ip ∈ t.ends, ip.length = 16 := by
  cases readPool_iff.mp ht with
  | addr hip => simpa [PoolText.ends] using length_parseIP hip
  | block _ hcidr => simpa [PoolText.ends] using (parsePrefix_some hcidr).1
  | range _ _ _ hf hl => simpa [PoolText.ends] using ⟨length_parseIP hf, length_parseIP hl⟩

theorem PoolText.IsV4.has {t : PoolText} {x : IP} (h : t.IsV4) (hlen : ∀ ip ∈ t.ends, ip.length = 16)
    (hx : t.Has x) : x.length = 16 ∧ (to4 x).isSome := by
  have hend : ∀ ip ∈ t.ends, beNat ip / 2 ^ 32 = 0xffff :=
    fun ip hip => (to4_isSome_iff (hlen ip hip)).mp (h.1 ip hip)
  cases t with
  | addr ip =>
    obtain rfl : x = ip := hx
    exact ⟨hlen x (List.mem_singleton_self x), h.1 x (List.mem_singleton_self x)⟩
  | block ip host =>
    obtain ⟨hxlen, hdiv⟩ := hx
    obtain ⟨d, hd⟩ := Nat.exists_eq_add_of_le (h.2 ip host rfl)
    refine ⟨hxlen, (to4_isSome_iff hxlen).mpr ?_⟩
    have hip := hend ip (List.mem_singleton_self ip)
    rw [hd, Nat.pow_add, ← Nat.div_div_eq_div_mul] at hip ⊢
    rw [hdiv, hip]
  | range first last =>
    obtain ⟨hxlen, hlow, hhigh⟩ := hx
    refine ⟨hxlen, (to4_isSome_iff hxlen).mpr ?_⟩
    have hf := hend first (by simp [PoolText.ends])
    have hl := hend last (by simp [PoolText.ends])
    omega

/-- **IPv4 pools are regular.** -/
theorem Eip.regular_of_isV4 {e : Eip} {t : PoolText} (ht : readPool e.spec.address = some t)
    (h : t.IsV4) : e.Regular := by
  have hv4 : ∀ x, e.Denotes x → x.length = 16 ∧ (to4 x).isSome := by
    rintro x ⟨t', ht', hx⟩
    obtain rfl : t = t' := Option.some.inj (ht.symm.trans ht')
    exact h.has (length_of_readPool ht) hx
  refine ⟨fun x y hx hy => ?_, fun x y hx hy => (hv4 x hx).2.trans (hv4 y hy).2.symm⟩
  have hx' := (to4_isSome_iff (hv4 x hx).1).mp (hv4 x hx).2
  have hy' := (to4_isSome_iff (hv4 y hy).1).mp (hv4 y hy).2
  omega

/-! ## Admission -/

/-- What admission lets users do to the stored Eips: create one that `ValidateCreate`
admits and `C` holds of, update one as `ValidateUpdate` admits it, both against the
Eips stored at that time, write the status of one, or delete one. -/
inductive PoolEdit (C : Eip → Prop) : VStore Eip.name → VStore Eip.name → Prop
  | create {s : VStore Eip.name} {l : List (Version Eip)} (e : Eip) :
      s.get e.name = none → s.Lists l → e.validateCreate (.ok (l.map Version.obj)) = .ok () → C e →
      PoolEdit C s (s.put e)
  | update {s : VStore Eip.name} {l : List (Version Eip)} {old : Version Eip} (e : Eip) :
      s.get e.name = some old → s.Lists l →
      e.validateUpdate old.obj (.ok (l.map Version.obj)) = .ok () →
      PoolEdit C s (s.modify e.name e.applyUpdate)
  | status {s : VStore Eip.name} (e : Eip) : PoolEdit C s (s.modify e.name e.applyStatus)
  | delete {s : VStore Eip.name} (name : String) : PoolEdit C s (s.modify name Eip.applyDelete)

theorem exists_ok_of_bind {ε α β : Type} {x : Except ε α} {f : α → Except ε β} {b : β}
    (h : (x >>= f) = .ok b) : ∃ a, x = .ok a ∧ f a = .ok b := by
  cases x with
  | ok a => exact ⟨a, rfl, h⟩
  | error m => cases h

theorem Eip.address_of_validateUpdate {e old : Eip} {list : Except String (List Eip)}
    (h : e.validateUpdate old list = .ok ()) : e.spec.address = old.spec.address := by
  by_contra hne
  have hspec : e.spec ≠ old.spec := fun heq => hne (congrArg EipSpec.address heq)
  rw [Eip.validateUpdate] at h
  simp only [ne_eq, hne, hspec, not_false_eq_true, and_self, if_true] at h
  split at h
  · obtain ⟨-, -, hthrow⟩ := exists_ok_of_bind h
    cases hthrow
  · cases h

/-- A pool that is admitted overlaps with none of those listed. -/
theorem Eip.isOverlap_of_validateCreate {e e' : Eip} {l : List Eip}
    (h : e.validateCreate (.ok l) = .ok ()) (hmem : e' ∈ l) (hne : e'.name ≠ e.name) :
    e.isOverlap e' = false := by
  obtain ⟨-, -, hrest⟩ := exists_ok_of_bind h
  obtain ⟨-, -, hvalidate⟩ := exists_ok_of_bind hrest
  obtain ⟨eips, hlist, hoverlap⟩ := exists_ok_of_bind hvalidate
  cases hlist
  obtain ⟨u, hoverlap, -⟩ := exists_ok_of_bind hoverlap
  rw [Eip.validateOverlap] at hoverlap
  split at hoverlap
  · cases hoverlap
  · rename_i hnone
    have hfind := List.find?_eq_none.mp hnone e' hmem
    simpa [hne] using hfind

/-- Every stored pool is regular, and no two share an address. -/
structure PoolsDisjoint (s : VStore Eip.name) : Prop where
  regular : ∀ a v, s.get a = some v → v.obj.Regular
  disjoint : ∀ a b v w, s.get a = some v → s.get b = some w → a ≠ b →
    ∀ x, ¬ (v.obj.Denotes x ∧ w.obj.Denotes x)

theorem Eip.denotes_congr {e e' : Eip} (h : e.spec.address = e'.spec.address) :
    e.Denotes = e'.Denotes := by
  unfold Eip.Denotes
  rw [h]

theorem Eip.Regular.congr {e e' : Eip} (h : e.spec.address = e'.spec.address) (hr : e.Regular) :
    e'.Regular := by
  have heq := Eip.denotes_congr h
  exact ⟨heq ▸ hr.narrow, heq ▸ hr.oneFamily⟩

/-- A change that keeps the address of what it keeps. -/
theorem PoolsDisjoint.modify {s : VStore Eip.name} {k : String} {change : Eip → Option Eip}
    (h : PoolsDisjoint s) (hkey : ∀ a b, change a = some b → b.name = a.name)
    (haddr : ∀ v b, s.get k = some v → change v.obj = some b →
      b.spec.address = v.obj.spec.address) : PoolsDisjoint (s.modify k change) := by
  have hold : ∀ a v', (s.modify k change).get a = some v' →
      ∃ v, s.get a = some v ∧ v.obj.spec.address = v'.obj.spec.address := by
    intro a v' hv'
    by_cases hak : a = k
    · subst hak
      have hobj := VStore.obj_modify (s := s) (k := a) hkey
      rw [hv', Option.map_some] at hobj
      obtain ⟨o, ho, hc⟩ := Option.bind_eq_some_iff.mp hobj.symm
      obtain ⟨v, hv, rfl⟩ := Option.map_eq_some_iff.mp ho
      exact ⟨v, hv, (haddr v _ hv hc).symm⟩
    · rw [VStore.get_modify_ne hkey hak] at hv'
      exact ⟨v', hv', rfl⟩
  constructor
  · intro a v' hv'
    obtain ⟨v, hv, he⟩ := hold a v' hv'
    exact (h.regular a v hv).congr he
  · intro a b v' w' hv' hw' hab x
    obtain ⟨v, hv, he⟩ := hold a v' hv'
    obtain ⟨w, hw, he'⟩ := hold b w' hw'
    rw [← Eip.denotes_congr he, ← Eip.denotes_congr he']
    exact h.disjoint a b v w hv hw hab x

/-- **One edit keeps the pools disjoint.** -/
theorem PoolsDisjoint.step {s s' : VStore Eip.name} (h : PoolsDisjoint s)
    (hs : PoolEdit Eip.Regular s s') : PoolsDisjoint s' := by
  cases hs with
  | create e hnone hl hval hreg =>
    -- the new pool overlaps with none of the others
    have hnew : ∀ b w, s.get b = some w → b ≠ e.name → ∀ x, ¬ (e.Denotes x ∧ w.obj.Denotes x) := by
      rintro b w hw hb x ⟨hx, hx'⟩
      have hname := VStore.key_of_get hw
      have hmem := List.mem_map_of_mem (f := Version.obj) (hl.mem_iff.mpr (hname.symm ▸ hw))
      have hno := Eip.isOverlap_of_validateCreate hval hmem (hname ▸ hb)
      rw [isOverlap_of_common hreg (h.regular b w hw) hx hx'] at hno
      cases hno
    constructor
    · intro a v hv
      rw [VStore.get_put] at hv
      split at hv
      · cases hv
        exact hreg
      · exact h.regular a v hv
    · intro a b v w hv hw hab x
      rw [VStore.get_put] at hv hw
      split at hv <;> split at hw
      · rename_i ha hb
        exact absurd (ha.trans hb.symm) hab
      · rename_i hb
        cases hv
        exact hnew b w hw hb x
      · rename_i ha _
        cases hw
        exact fun hx => hnew a v hv ha x hx.symm
      · exact h.disjoint a b v w hv hw hab x
  | update e hold hl hval =>
    refine h.modify (fun a b hab => (Eip.applyUpdate_some hab).1) ?_
    intro v b hv hb
    cases hold.symm.trans hv
    rw [← Eip.address_of_validateUpdate hval]
    unfold Eip.applyUpdate at hb
    split at hb
    · cases hb
    · cases hb
      rfl
  | status e =>
    refine h.modify (fun a b hab => by cases hab; rfl) ?_
    intro v b _ hb
    cases hb
    rfl
  | delete name =>
    refine h.modify (fun a b hab => (Eip.applyDelete_some hab).1) ?_
    intro v b _ hb
    unfold Eip.applyDelete at hb
    split at hb
    · cases hb
    · cases hb
      rfl

theorem poolsDisjoint_of_run {s : VStore Eip.name}
    (hs : Relation.ReflTransGen (PoolEdit Eip.Regular) VStore.empty s) : PoolsDisjoint s := by
  induction hs with
  | refl => exact ⟨fun a v h => (by cases h), fun a b v w h => (by cases h)⟩
  | tail _ hstep ih => exact ih.step hstep

/-- The store in which two Eips were created one after the other. -/
def storeOfTwo (e e' : Eip) : VStore Eip.name := (VStore.empty.put e).put e'

theorem run_two {C : Eip → Prop} {e e' : Eip} (hne : e'.name ≠ e.name)
    (h : e.validateCreate (.ok []) = .ok ()) (h' : e'.validateCreate (.ok [e]) = .ok ())
    (hC : C e) (hC' : C e') :
    Relation.ReflTransGen (PoolEdit C) VStore.empty (storeOfTwo e e') := by
  have hnil : (VStore.empty : VStore Eip.name).Lists [] := ⟨[], by decide, rfl⟩
  have hone : ((VStore.empty : VStore Eip.name).put e).Lists [⟨1, e⟩] := by
    refine ⟨[e.name], ⟨List.nodup_singleton _, fun k => ?_⟩, ?_⟩
    · by_cases hk : k = e.name <;> simp [VStore.put, VStore.empty, Map.get_set, hk]
    · simp [VStore.put, VStore.empty, Map.get_set]
  have hget : ((VStore.empty : VStore Eip.name).put e).get e'.name = none := by
    rw [VStore.get_put, if_neg hne]
    rfl
  exact .tail (.single (.create e rfl hnil h hC)) (.create e' hget hone h' hC')

/-- **Admission keeps regular pools disjoint.**  In every run of edits from an empty
store in which every Eip that is created is regular, two Eips with different names
denote no common address. -/
theorem pools_disjoint {s : VStore Eip.name}
    (hs : Relation.ReflTransGen (PoolEdit Eip.Regular) VStore.empty s) {a b : String}
    {v w : Version Eip} (ha : s.get a = some v) (hb : s.get b = some w) (hne : a ≠ b) (x : IP) :
    ¬ (v.obj.Denotes x ∧ w.obj.Denotes x) :=
  (poolsDisjoint_of_run hs).disjoint a b v w ha hb hne x

/-- A block of IPv4 addresses. -/
def lan : Eip := { name := "lan", spec := { address := "10.0.0.0/24" } }

/-- A range of IPv4 addresses. -/
def dmz : Eip := { name := "dmz", spec := { address := "10.0.1.1-10.0.1.9" } }

theorem pools_disjoint_lan_dmz :
    Relation.ReflTransGen (PoolEdit Eip.Regular) VStore.empty (storeOfTwo lan dmz) ∧
      (∀ x, ¬ (lan.Denotes x ∧ dmz.Denotes x)) := by
  have hlan : lan.Regular :=
    Eip.regular_of_isV4 (t := .block (v4InV6Prefix ++ [10, 0, 0, 0]) 8) (by decide +kernel)
      ⟨by decide, by rintro _ _ ⟨⟩; decide⟩
  have hdmz : dmz.Regular :=
    Eip.regular_of_isV4
      (t := .range (v4InV6Prefix ++ [10, 0, 1, 1]) (v4InV6Prefix ++ [10, 0, 1, 9])) (by decide +kernel)
      ⟨by decide, by rintro _ _ ⟨⟩⟩
  have hrun : Relation.ReflTransGen (PoolEdit Eip.Regular) VStore.empty (storeOfTwo lan dmz) :=
    run_two (by decide) (by decide +kernel) (by decide +kernel) hlan hdmz
  exact ⟨hrun, pools_disjoint hrun (a := "lan") (b := "dmz") (v := ⟨1, lan⟩) (w := ⟨2, dmz⟩)
    (by decide +kernel) (by decide +kernel) (by decide)⟩

/-- An IPv6 block of `2 ^ 64` addresses. -/
def wide : Eip := { name := "wide", spec := { address := "2001:db8::/64" } }

/-- One of the addresses of `wide`. -/
def inside : Eip := { name := "inside", spec := { address := "2001:db8::1" } }

/-- **Admitted pools that share an address.**  The block has length zero for `GetSize`,
so `IsOverlap` takes it to end before it begins. -/
theorem pools_overlap :
    Relation.ReflTransGen (PoolEdit fun _ => True) VStore.empty (storeOfTwo wide inside) ∧
      (storeOfTwo wide inside).get "wide" = some ⟨1, wide⟩ ∧
      (storeOfTwo wide inside).get "inside" = some ⟨2, inside⟩ ∧
      wide.getSize = .ok ([0x20, 1, 0xd, 0xb8, 0, 0, 0, 0, 0, 0, 0, 0, 0, 0, 0, 0], 0) ∧
      wide.Denotes [0x20, 1, 0xd, 0xb8, 0, 0, 0, 0, 0, 0, 0, 0, 0, 0, 0, 1] ∧
      inside.Denotes [0x20, 1, 0xd, 0xb8, 0, 0, 0, 0, 0, 0, 0, 0, 0, 0, 0, 1] := by
  refine ⟨run_two (by decide) (by decide +kernel) (by decide +kernel) trivial trivial,
    by decide +kernel, by decide +kernel, by decide +kernel, ?_, ?_⟩
  · exact ⟨.block [0x20, 1, 0xd, 0xb8, 0, 0, 0, 0, 0, 0, 0, 0, 0, 0, 0, 0] 64, by decide +kernel,
      by decide, by decide +kernel⟩
  · exact ⟨.addr [0x20, 1, 0xd, 0xb8, 0, 0, 0, 0, 0, 0, 0, 0, 0, 0, 0, 1], by decide +kernel, rfl⟩

end OpenELB
