import OpenELB.EipController
import OpenELB.Evaluation
import Mathlib.Logic.Relation

/-! # The books of a pool

An Eip keeps three records of what is in use: the map `Used`, its size `Usage`
and the flag `Occupied`.  They are written by `assignIPFromEip`,
`releaseIPFromEip` and `syncEip`, each in its own way: `Occupied` is set when
`Usage` reaches the pool size, cleared when it differs from it, and recomputed
with `>=`.

`PoolOk` says that the records agree, and every operation keeps it.  That
`Occupied` is never stale is a matter of counting: as long as all keys of `Used`
are addresses of the pool there are at most as many of them as addresses, so an
address that is free leaves `Usage` below the pool size. -/
namespace OpenELB
open Go Code

/-- The records of a pool agree. -/
structure PoolOk (e : Eip) : Prop where
  pos : 1 ≤ e.status.poolSize
  keys : ∀ addr, (e.status.used.get addr).isSome → e.HasAddr addr
  usage : e.status.usage = e.status.used.len
  occupied : e.status.occupied = true ↔ e.status.usage = e.status.poolSize

/-! ## Counting -/

/-- **Pigeonhole**: a map all of whose keys are addresses of the pool has at most
as many entries as the pool has addresses. -/
theorem len_le_poolSize {e : Eip} {m : Map String String} (hpos : 1 ≤ e.status.poolSize)
    (h : ∀ addr, (m.get addr).isSome → e.HasAddr addr) : (m.len : Int) ≤ e.status.poolSize := by
  -- the addresses of the pool, in order
  let addrs := (List.range e.status.poolSize.toNat).filterMap fun i : Nat => e.addrAt i
  have hlen : m.len ≤ addrs.length := by
    refine Map.len_le_of_keys fun addr haddr => ?_
    obtain ⟨offset, h0, hlt, hat⟩ := h addr haddr
    refine List.mem_filterMap.mpr ⟨offset.toNat, List.mem_range.mpr (by omega), ?_⟩
    rwa [Int.toNat_of_nonneg h0]
  have haddrs : addrs.length ≤ e.status.poolSize.toNat := by
    have hle := List.length_filterMap_le (fun i : Nat => e.addrAt i)
      (List.range e.status.poolSize.toNat)
    rwa [List.length_range] at hle
  omega

theorem Eip.SameButUsed.hasAddr {e e' : Eip} (h : e.SameButUsed e') {addr : String} :
    e'.HasAddr addr ↔ e.HasAddr addr := by
  rw [h]
  exact Iff.rfl

theorem Eip.SameButUsed.poolSize {e e' : Eip} (h : e.SameButUsed e') :
    e'.status.poolSize = e.status.poolSize := by
  rw [h]

namespace PoolOk
variable {e e' : Eip}

theorem usage_le (h : PoolOk e) : e.status.usage ≤ e.status.poolSize := by
  rw [h.usage]
  exact len_le_poolSize h.pos h.keys

/-! ## One step -/

theorem addEntry (h : PoolOk e) {addr key : String} (haddr : e.HasAddr addr)
    (hfree : e.status.used.get addr = none) : PoolOk (e.addEntry addr key) := by
  have hkeys : ∀ a, ((e.status.used.set addr key).get a).isSome → e.HasAddr a := by
    intro a ha
    rw [Map.get_set] at ha
    split at ha
    · rename_i he
      exact he ▸ haddr
    · exact h.keys a ha
  have hlen : (e.status.used.set addr key).len = e.status.used.len + 1 := Map.len_set_new key hfree
  have hle := len_le_poolSize h.pos hkeys
  have husage := h.usage
  -- the pool was not full, so the flag was not set
  have hocc : e.status.occupied = false := by
    rw [Bool.eq_false_iff]
    intro hocc
    have := h.occupied.mp hocc
    omega
  refine ⟨h.pos, hkeys, rfl, ?_⟩
  show (if _ then true else e.status.occupied) = true ↔ _
  rw [hocc]
  split
  · rename_i heq
    exact iff_of_true rfl heq
  · rename_i hne
    exact iff_of_false Bool.false_ne_true hne

/-- Rewriting an entry that is there changes nothing the books look at. -/
theorem setEntry (h : PoolOk e) {addr svcs : String} (hget : (e.status.used.get addr).isSome) :
    PoolOk (e.setEntry addr svcs) := by
  refine ⟨h.pos, ?_, ?_, h.occupied⟩
  · intro a ha
    have ha : ((e.status.used.set addr svcs).get a).isSome := ha
    rw [Map.get_set] at ha
    split at ha
    · rename_i he
      exact he ▸ h.keys addr hget
    · exact h.keys a ha
  · show e.status.usage = ((e.status.used.set addr svcs).len : Int)
    rw [Map.len_set_old svcs hget, h.usage]

theorem dropEntry (h : PoolOk e) {addr : String} (hget : (e.status.used.get addr).isSome) :
    PoolOk (e.dropEntry addr) := by
  have hlen : (e.status.used.delete addr).len + 1 = e.status.used.len := Map.len_delete hget
  have hle := h.usage_le
  have husage := h.usage
  have hne : ((e.status.used.delete addr).len : Int) ≠ e.status.poolSize := by omega
  refine ⟨h.pos, ?_, rfl, ?_⟩
  · intro a ha
    have ha : ((e.status.used.delete addr).get a).isSome := ha
    rw [Map.get_delete] at ha
    split at ha
    · cases ha
    · exact h.keys a ha
  · show (if ((e.status.used.delete addr).len : Int) ≠ e.status.poolSize then false
      else e.status.occupied) = true ↔ _
    rw [if_pos hne]
    exact iff_of_false Bool.false_ne_true hne

/-- An assignment keeps the books. -/
theorem assigned (h : PoolOk e) {allocate : SvcRecord} {addr : String}
    (ha : Assigned allocate e addr e') : PoolOk e' := by
  cases ha with
  | already _ => exact h
  | free haddr hget => exact h.addEntry haddr hget
  | shared _ _ hget => exact h.setEntry (by rw [hget]; rfl)

theorem releaseEntry (h : PoolOk e) (svcInfo addr : String) :
    PoolOk (OpenELB.releaseEntry svcInfo e addr) := by
  cases hget : e.status.used.get addr with
  | none =>
    have he : OpenELB.releaseEntry svcInfo e addr = e := by simp [OpenELB.releaseEntry, hget]
    rwa [he]
  | some svcs =>
    rw [releaseEntry_of_get hget]
    split
    · split
      · exact h.dropEntry (by rw [hget]; rfl)
      · exact h.setEntry (by rw [hget]; rfl)
    · exact h

theorem foldl_releaseEntry (h : PoolOk e) (svcInfo : String) (keys : List String) :
    PoolOk (keys.foldl (OpenELB.releaseEntry svcInfo) e) := by
  induction keys generalizing e with
  | nil => exact h
  | cons a keys ih => exact ih (h.releaseEntry svcInfo a)

/-- A release keeps the books. -/
theorem releaseIPFromEip (h : PoolOk e) (keys : List String) (svcInfo : String) :
    PoolOk (OpenELB.releaseIPFromEip keys svcInfo e) := by
  unfold OpenELB.releaseIPFromEip
  split
  · exact h
  · exact h.foldl_releaseEntry svcInfo keys

/-- A sync makes the books anew: it needs only the keys of the old ones. -/
theorem of_synced {log : List (Prog.Event Call Reply)} (hpos : 1 ≤ e.status.poolSize)
    (hkeys : ∀ addr, (e.status.used.get addr).isSome → e.HasAddr addr) (hs : Synced log e e') :
    PoolOk e' := by
  have hpos' : 1 ≤ e'.status.poolSize := by rwa [hs.same.poolSize]
  have hkeys' : ∀ addr, (e'.status.used.get addr).isSome → e'.HasAddr addr :=
    fun addr haddr => hs.same.hasAddr.mpr (hkeys addr (hs.get addr haddr))
  have hle := len_le_poolSize hpos' hkeys'
  refine ⟨hpos', hkeys', hs.usage, ?_⟩
  rw [hs.occupied, decide_eq_true_iff, hs.usage]
  omega

end PoolOk

/-! ## Runs -/

/-- One operation on the Eip: an assignment, a release or a sync, each in any order
of its loop and with any answers to its reads; those that fail leave the Eip as
it is. -/
inductive PoolStep : Eip → Eip → Prop
  | assign {e e' : Eip} {keys : List String} {allocate : SvcRecord} {addr : String} :
      e.status.used.Ranges keys → assignIPFromEip keys allocate e = .ok (addr, e') → PoolStep e e'
  | assignFails {e : Eip} {keys : List String} {allocate : SvcRecord} {err : Err} :
      e.status.used.Ranges keys → assignIPFromEip keys allocate e = .err err → PoolStep e e
  | release {e : Eip} {keys : List String} {svcInfo : String} :
      e.status.used.Ranges keys → PoolStep e (releaseIPFromEip keys svcInfo e)
  | sync {e e' : Eip} {log : List (Prog.Event Call Reply)} :
      Prog.Trace Honest (syncEip e) log (.ok e') → PoolStep e e'
  | syncFails {e : Eip} {log : List (Prog.Event Call Reply)} {err : Err} :
      Prog.Trace Honest (syncEip e) log (.err err) → PoolStep e e

theorem PoolStep.sameButUsed {e e' : Eip} (h : PoolStep e e') : e.SameButUsed e' := by
  cases h with
  | assign _ ha => exact (assignIPFromEip_ok ha).2.2.sameButUsed
  | assignFails _ _ => exact .refl e
  | release _ => exact sameButUsed_releaseIPFromEip _ _ e
  | sync hs => exact (trace_syncEip hs).same
  | syncFails _ => exact .refl e

/-- **One operation keeps the books.** -/
theorem PoolStep.poolOk {e e' : Eip} (h : PoolStep e e') (hok : PoolOk e) : PoolOk e' := by
  cases h with
  | assign _ ha => exact hok.assigned (assignIPFromEip_ok ha).2.2
  | assignFails _ _ => exact hok
  | release _ => exact hok.releaseIPFromEip _ _
  | sync hs => exact PoolOk.of_synced hok.pos hok.keys (trace_syncEip hs)
  | syncFails _ => exact hok

/-- Any number of operations. -/
def PoolRun : Eip → Eip → Prop := Relation.ReflTransGen PoolStep

theorem PoolRun.sameButUsed {e e' : Eip} (h : PoolRun e e') : e.SameButUsed e' := by
  induction h with
  | refl => exact .refl e
  | tail _ hs ih => exact ih.trans hs.sameButUsed

theorem PoolRun.poolOk {e e' : Eip} (h : PoolRun e e') (hok : PoolOk e) : PoolOk e' := by
  induction h with
  | refl => exact hok
  | tail _ hs ih => exact hs.poolOk ih

/-- The status `updateEip` gives a new Eip without records is in order. -/
theorem poolOk_of_updateEip {e e₀ : Eip} {log : List (Prog.Event Call Reply)}
    (hempty : ∀ addr, e.status.used.get addr = none)
    (hinit : Prog.Trace Honest (updateEip e) log (.ok e₀)) (hpos : 1 ≤ e₀.status.poolSize) :
    PoolOk e₀ := by
  obtain ⟨e₁, he₁, hs⟩ := trace_updateEip hinit
  -- filling in the status leaves the empty map of uses alone
  have hused : e₁.status.used = e.status.used := by
    rcases he₁ with rfl | ⟨-, he₁⟩
    · rfl
    · exact (initStatus_some he₁).2.1
  rw [hs.same.poolSize] at hpos
  refine PoolOk.of_synced hpos ?_ hs
  intro addr haddr
  rw [hused, hempty] at haddr
  cases haddr

/-- The addresses of a pool are its first address and those after it. -/
theorem addrAt_natCast {e : Eip} {b : IP} (hb : IsAddr b) (hfirst : e.status.firstIP = ipString b)
    (k : Nat) :
    e.addrAt k = if ipToBigInt b + k < 256 ^ ipWidth b then
      some (ipString (beBytes (ipWidth b) (ipToBigInt b + k))) else none := by
  obtain ⟨first, hparse, hinc⟩ := cnetParseIP_ipString hb
  rw [Eip.addrAt, hfirst, hparse]
  show (incrementIP first k).map ipString = _
  rw [hinc, incrementIP_natCast]
  split <;> rfl

/-- If the last address of the pool is one of the family, no address of the pool
makes the loop panic. -/
theorem scanPool_ne_panic {named : Bool} {key : String} {e : Eip} {fuel : Nat} {offset : Int}
    (h : ∀ i, offset ≤ i → i < offset + fuel → e.addrAt i ≠ none) :
    scanPool named key e fuel offset ≠ .panic := by
  induction fuel generalizing offset with
  | zero => exact fun he => by cases he
  | succ fuel ih =>
    rw [scanPool]
    cases haddr : e.addrAt offset with
    | none => exact absurd haddr (h offset (le_refl _) (by omega))
    | some addr =>
      cases hget : e.status.used.get addr with
      | none => exact fun he => by simp [hget] at he
      | some tmp =>
        simp only [hget]
        split
        · exact fun he => by cases he
        · exact ih fun i hle hlt => h i (by omega) (by omega)

theorem assignIPFromEip_ne_panic {e : Eip} {keys : List String} {allocate : SvcRecord}
    (h : ∀ i, 0 ≤ i → i < e.status.poolSize → e.addrAt i ≠ none) :
    assignIPFromEip keys allocate e ≠ .panic := by
  unfold assignIPFromEip
  split
  · exact fun he => by cases he
  split
  · exact fun he => by cases he
  split
  · exact fun he => by cases he
  split
  · exact scanPool_ne_panic fun i hle hlt => h i hle (by omega)
  · split
    · exact fun he => by cases he
    · exact scanPool_ne_panic fun i hle hlt => h i (by omega) (by omega)

/-- **The books of a pool are right after any run.**  From the status `updateEip`
gives an Eip without records, with first address `b` and `n` addresses that all are addresses
of the family of `b`, any sequence of assignments, releases and syncs leads to a
state in which the keys of `Used` are texts of addresses of the pool, `Usage` is
their number and at most the pool size, and `Occupied` says whether it is the
pool size.  And in that state no assignment panics. -/
theorem pool_bookkeeping {e e₀ e' : Eip} {b : IP} {n : Nat} {log : List (Prog.Event Call Reply)}
    (hempty : ∀ addr, e.status.used.get addr = none)
    (hinit : Prog.Trace Honest (updateEip e) log (.ok e₀)) (hb : IsAddr b)
    (hfirst : e₀.status.firstIP = ipString b) (hsize : e₀.status.poolSize = n) (hn : 1 ≤ n)
    (hfit : ipToBigInt b + (n - 1) < 256 ^ ipWidth b) (hrun : PoolRun e₀ e') :
    (∀ addr, (e'.status.used.get addr).isSome →
      ∃ k, k < n ∧ addr = ipString (beBytes (ipWidth b) (ipToBigInt b + k))) ∧
    e'.status.usage = e'.status.used.len ∧
    e'.status.usage ≤ e'.status.poolSize ∧
    (e'.status.occupied = true ↔ e'.status.usage = e'.status.poolSize) ∧
    ∀ keys allocate, assignIPFromEip keys allocate e' ≠ .panic := by
  have hok := hrun.poolOk (poolOk_of_updateEip hempty hinit (by omega))
  have hsame := hrun.sameButUsed
  have hfirst' : e'.status.firstIP = ipString b := by rw [hsame]; exact hfirst
  have hsize' : e'.status.poolSize = n := hsame.poolSize.trans hsize
  refine ⟨?_, hok.usage, hok.usage_le, hok.occupied, fun keys allocate => ?_⟩
  · intro addr haddr
    obtain ⟨offset, h0, hlt, hat⟩ := hok.keys addr haddr
    obtain ⟨k, rfl⟩ := Int.eq_ofNat_of_zero_le h0
    rw [addrAt_natCast hb hfirst', if_pos (by omega), Option.some.injEq] at hat
    exact ⟨k, by omega, hat.symm⟩
  · refine assignIPFromEip_ne_panic fun i h0 hlt => ?_
    obtain ⟨k, rfl⟩ := Int.eq_ofNat_of_zero_le h0
    rw [addrAt_natCast hb hfirst', if_pos (by omega)]
    exact Option.some_ne_none _

/-- A new Eip with two addresses. -/
def twoAddresses : Eip := { name := "pool", spec := { address := "192.0.2.1-192.0.2.2" }, name_ne := pool_ne_empty }

/-- The controller makes the new Eip ready. -/
theorem trace_updateEip_twoAddresses :
    Prog.Trace Honest (updateEip twoAddresses) [⟨.rangeUsed Map.nil, []⟩]
      (.ok twoAddressesReady) := by
  have hstatus : initStatus twoAddresses =
      some { twoAddressesReady with status.used := Map.nil } := by decide +kernel
  rw [updateEip, if_pos (show twoAddresses.status.firstIP = "" from rfl), hstatus]
  exact Prog.Run.call (show Map.nil.Ranges [] by decide) Prog.Run.ret

/-- The first service that asks for an address gets the first one. -/
theorem assignIPFromEip_twoAddressesReady (key : String) :
    assignIPFromEip [] ⟨key, "", "pool"⟩ twoAddressesReady =
      .ok ("192.0.2.1", twoAddressesReady.addEntry "192.0.2.1" key) := by
  have hat : twoAddressesReady.addrAt 0 = some "192.0.2.1" := by decide +kernel
  rw [assignIPFromEip_of_parseIP_none rfl rfl (show Map.empty.Ranges [] by decide)
    List.not_mem_nil (show parseIP "" = none by decide)]
  show scanPool false key twoAddressesReady (1 + 1) 0 = _
  rw [scanPool, hat]
  rfl

theorem pool_bookkeeping_twoAddresses :
    ∃ log e', Prog.Trace Honest (updateEip twoAddresses) log (.ok twoAddressesReady) ∧
      PoolRun twoAddressesReady e' ∧ e'.status.used.get "192.0.2.1" = some "ns/svc" ∧
      e'.status.usage = 1 ∧ (e'.status.occupied = true ↔ e'.status.usage = e'.status.poolSize) := by
  have hinit := trace_updateEip_twoAddresses
  have hassign := assignIPFromEip_twoAddressesReady "ns/svc"
  have hrun : PoolRun twoAddressesReady (twoAddressesReady.addEntry "192.0.2.1" "ns/svc") :=
    .single (.assign (show Map.empty.Ranges [] by decide) hassign)
  obtain ⟨-, -, -, hocc, -⟩ := pool_bookkeeping (b := [192, 0, 2, 1]) (n := 2) (fun _ => rfl)
    hinit (by decide) (by decide +kernel) rfl (by decide) (by decide) hrun
  exact ⟨_, _, hinit, hrun, by decide +kernel, by decide +kernel, hocc⟩

end OpenELB
