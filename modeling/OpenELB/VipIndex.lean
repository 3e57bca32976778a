import OpenELB.GoAddrText
import OpenELB.VipAssignments
import Mathlib.Data.Fintype.EquivFin

/-! # The index of the virtual addresses

`vips` maps an address to the name of its instance.  It is exact (`Indexed`) when it
names an instance exactly if that instance is there and lists the address.

`SetBalancer` takes an address out of its old instance before it asks for the id of the
new one, and it does not put it back.  So if the old instance has another address, and
thus stays and keeps its id, and all ids are in use, the call fails and leaves the
index entry of an address that no instance has (`not_indexed_of_not_movable`).  That is
the only way: a call for an address that is `Movable` keeps the index exact and, if it
gets no id, has changed neither table (`index_exact`). -/
namespace OpenELB
open Go

namespace KeepAlived
variable {k k' : KeepAlived} {vip n nodeName : String}

/-- The instance is there and lists the address. -/
def Lists (k : KeepAlived) (n vip : String) : Prop :=
  ∃ inst, k.instances.get n = some inst ∧ vip ∈ inst.svcips

/-- **The index and the instances agree.** -/
def Indexed (k : KeepAlived) : Prop := ∀ vip n, k.vips.get vip = some n ↔ k.Lists n vip

/-- Before `SetBalancer`: if the address is in an instance with other addresses, then its
new instance exists, or there is an id for it, or there is no interface and the call ends
at once. -/
def Movable (k : KeepAlived) (order : List String) (vip : String) (nodes : List Node) : Prop :=
  ∀ n inst, k.vips.get vip = some n → k.instances.get n = some inst → inst.svcips ≠ [vip] →
    k.getInterfaces order vip = "" ∨
      (k.instances.get (instanceName nodes (k.getInterfaces order vip))).isSome ∨
      ∃ id < 256, id ∉ k.idAlloc.used

/-! ## What the parts of a call do to the lists -/

/-- Cleaning takes the address out of its instance, and touches no other. -/
theorem VipSound.lists_cleanRecord (h : k.VipSound) (hv : k.vips.get vip = some n)
    (m w : String) : (k.cleanRecord vip n).Lists m w ↔ k.Lists m w ∧ w ≠ vip := by
  have hun := (h.cleanRecord hv).2
  have hne : (k.cleanRecord vip n).Lists m w → w ≠ vip := by
    rintro ⟨inst, hm, hw⟩ rfl
    exact hun m inst hm hw
  refine ⟨fun hl => ⟨?_, hne hl⟩, ?_⟩
  · obtain ⟨inst, hm, hw⟩ := hl
    rw [KeepAlived.cleanRecord] at hm
    split at hm
    · exact ⟨inst, hm, hw⟩
    · rename_i old hn
      dsimp only at hm
      split at hm
      · rw [Map.get_delete] at hm
        split at hm
        · cases hm
        · exact ⟨inst, hm, hw⟩
      · rw [Map.get_set] at hm
        split at hm
        · rename_i he
          cases hm
          dsimp only at hw
          rw [removeVip_eq] at hw
          exact ⟨old, he ▸ hn, List.mem_of_mem_erase hw⟩
        · exact ⟨inst, hm, hw⟩
  · rintro ⟨⟨inst, hm, hw⟩, hwv⟩
    rw [KeepAlived.cleanRecord]
    split
    · exact ⟨inst, hm, hw⟩
    · rename_i old hn
      have hmem : m = n → w ∈ removeVip old.svcips vip := by
        rintro rfl
        cases hn.symm.trans hm
        rw [removeVip_eq]
        exact (List.mem_erase_of_ne hwv).mpr hw
      dsimp only
      split
      · rename_i hnil
        refine ⟨inst, ?_, hw⟩
        rw [Map.get_delete, if_neg]
        · exact hm
        · intro he
          have hmem' := hmem he
          rw [hnil] at hmem'
          cases hmem'
      · by_cases he : m = n
        · exact ⟨_, by rw [he]; exact Map.get_set_self .., hmem he⟩
        · exact ⟨inst, (Map.get_set_ne _ _ he).trans hm, hw⟩

theorem VipSound.lists_cleanOld (h : k.VipSound) (m w : String) :
    (k.cleanOld vip).Lists m w ↔ k.Lists m w ∧ w ≠ vip := by
  rw [KeepAlived.cleanOld]
  split
  · exact h.lists_cleanRecord ‹_› m w
  · rename_i hnone
    refine ⟨fun hl => ⟨hl, ?_⟩, And.left⟩
    rintro rfl
    obtain ⟨inst, hm, hw⟩ := hl
    cases hnone.symm.trans (h.listed m inst w hm hw)

/-- What the second part of `SetBalancer` does: it records the address, if its instance is
there or an id is free, or it finds all ids in use and leaves both tables as they are. -/
inductive Recorded (k : KeepAlived) (n vip : String) : Except String Unit × KeepAlived → Prop
  | ok {k' : KeepAlived} : ((k.instances.get n).isSome ∨ ∃ id < 256, id ∉ k.idAlloc.used) →
      k'.vips = k.vips.set vip n →
      (∀ m w, k'.Lists m w ↔ k.Lists m w ∨ m = n ∧ w = vip) → Recorded k n vip (.ok (), k')
  | exhausted {k' : KeepAlived} : k'.vips = k.vips → k'.instances = k.instances →
      k.instances.get n = none → (∀ id < 256, id ∈ k.idAlloc.used) →
      Recorded k n vip (.error IDAllocator.errIDsExhausted, k')

/-- Adding the address to an instance, that is there or comes without addresses. -/
theorem lists_enlist {inst : Instance} (nodes : List Node)
    (hn : k.instances.get n = some inst ∨ k.instances.get n = none ∧ inst.svcips = [])
    (m w : String) :
    (k.enlist nodeName n vip nodes inst).Lists m w ↔ k.Lists m w ∨ m = n ∧ w = vip := by
  by_cases hm : m = n
  · subst hm
    have hget : (k.enlist nodeName m vip nodes inst).instances.get m =
        some { inst with
          enabled := isNodeInList nodeName nodes
          svcips := inst.svcips ++ [vip] } := Map.get_set_self ..
    have hlists : k.Lists m w ↔ w ∈ inst.svcips := by
      rcases hn with hn | ⟨hn, hnil⟩
      · refine ⟨fun ⟨i, hi, hw⟩ => ?_, fun hw => ⟨inst, hn, hw⟩⟩
        cases hn.symm.trans hi
        exact hw
      · rw [hnil]
        refine ⟨fun ⟨i, hi, _⟩ => ?_, fun hw => by cases hw⟩
        cases hn.symm.trans hi
    rw [Lists, hget, hlists]
    simp
  · have hget : (k.enlist nodeName n vip nodes inst).instances.get m = k.instances.get m :=
      Map.get_set_ne _ _ hm
    rw [Lists, hget]
    simp [hm, Lists]

theorem VipSound.recorded (h : k.VipSound) (nodeName iface vip : String) (nodes : List Node) :
    Recorded k (instanceName nodes iface) vip (k.addRecord nodeName iface vip nodes) := by
  rw [KeepAlived.addRecord]
  split
  · rename_i inst hn
    exact .ok (.inl (hn ▸ rfl)) rfl (lists_enlist nodes (.inl hn))
  · rename_i hn
    have halloc := k.idAlloc.allocateWithHash_spec (getNodeSha256Bytes nodes)
      (by rw [h.numIDs]; decide)
    split
    · rename_i he
      rw [he] at halloc
      cases halloc with
      | exhausted hall _ _ => exact .exhausted rfl rfl hn (h.numIDs ▸ hall)
    · rename_i he
      rw [he] at halloc
      cases halloc with
      | found hfree _ _ =>
        exact .ok (.inr ⟨_, h.numIDs ▸ hfree.lt, hfree.notMem⟩) rfl
          (lists_enlist nodes (.inr ⟨hn, rfl⟩))

theorem removeVip_ne_nil {svcips : List String} (hmem : vip ∈ svcips) (hone : svcips ≠ [vip]) :
    removeVip svcips vip ≠ [] := by
  intro hnil
  rw [removeVip_eq] at hnil
  have hlen := List.length_erase_of_mem hmem
  have hpos := List.length_pos_of_mem hmem
  rw [hnil, List.length_nil] at hlen
  obtain ⟨x, hx⟩ := List.length_eq_one_iff.mp (show svcips.length = 1 by omega)
  rw [hx, List.mem_singleton] at hmem
  exact hone (hmem ▸ hx)

/-- Cleaning keeps the other instances. -/
theorem isSome_get_cleanRecord {inst : Instance} (hn : k.instances.get n = some inst)
    (hne : removeVip inst.svcips vip ≠ []) :
    (k.cleanRecord vip n).idAlloc = k.idAlloc ∧
      ∀ m, ((k.cleanRecord vip n).instances.get m).isSome = (k.instances.get m).isSome := by
  rw [cleanRecord, hn]
  dsimp only
  rw [if_neg hne]
  refine ⟨rfl, fun m => ?_⟩
  rw [Map.get_set]
  split
  · rename_i he
    rw [he, hn]
    rfl
  · rfl

/-- An instance with one address goes with it, and its id is free. -/
theorem VipSound.free_of_cleanRecord {inst : Instance} (h : k.VipSound)
    (hn : k.instances.get n = some inst) (hvip : inst.svcips = [vip]) :
    ∃ id < 256, id ∉ (k.cleanRecord vip n).idAlloc.used := by
  refine ⟨inst.routeID, (h.range n inst hn).2, ?_⟩
  have hnil : removeVip inst.svcips vip = [] := by
    rw [removeVip_eq, hvip, List.erase_cons_head]
  rw [KeepAlived.cleanRecord, hn]
  dsimp only
  rw [if_pos hnil]
  show inst.routeID ∉ (k.idAlloc.free inst.routeID).used
  rw [IDAllocator.used_free _ (k.idAlloc.used_lt (h.mem_used hn))]
  exact fun hmem => hmem.2 rfl

/-! ## One call -/

/-- If all ids are in use when the record is to be added, then an address that is movable
was in no instance. -/
theorem Movable.get_eq_none {order : List String} {nodes : List Node} (h : k.VipSound)
    (hidx : k.Indexed) (hmov : k.Movable order vip nodes) (hif : k.getInterfaces order vip ≠ "")
    (hn : (k.cleanOld vip).instances.get (instanceName nodes (k.getInterfaces order vip)) = none)
    (hall : ∀ id < 256, id ∈ (k.cleanOld vip).idAlloc.used) : k.vips.get vip = none := by
  cases hv : k.vips.get vip with
  | none => rfl
  | some old =>
    obtain ⟨inst, hold, hmem⟩ := (hidx vip old).mp hv
    rw [cleanOld, hv] at hn hall
    dsimp only at hn hall
    by_cases hone : inst.svcips = [vip]
    · obtain ⟨id, hid, hfree⟩ := h.free_of_cleanRecord hold hone
      exact absurd (hall id hid) hfree
    · obtain ⟨hids, hsome⟩ := isSome_get_cleanRecord hold (removeVip_ne_nil hmem hone)
      rcases hmov old inst hv hold hone with h0 | hnew | ⟨id, hid, hfree⟩
      · exact absurd h0 hif
      · rw [← hsome, hn] at hnew
        cases hnew
      · exact absurd (hids ▸ hall id hid) hfree

/-- With an interface, the call leaves what its second part leaves. -/
theorem setBalancer_snd {order : List String} (hif : k.getInterfaces order vip ≠ "")
    (io : Except String Unit) (nodes : List Node) :
    (k.setBalancer nodeName order io vip nodes).2 =
      ((k.cleanOld vip).addRecord nodeName (k.getInterfaces order vip) vip nodes).2 := by
  rw [setBalancer, if_neg hif]
  split <;> (rename_i he; rw [he])

theorem setBalancer_fst {order : List String} (hif : k.getInterfaces order vip ≠ "")
    (nodes : List Node) :
    (k.setBalancer nodeName order (.ok ()) vip nodes).1 =
      ((k.cleanOld vip).addRecord nodeName (k.getInterfaces order vip) vip nodes).1 := by
  rw [setBalancer, if_neg hif]
  split <;> (rename_i he; rw [he])

/-- What the second part of the call does to the state that the first part leaves. -/
theorem VipSound.recorded_cleanOld (h : k.VipSound) (nodeName : String) (order : List String)
    (vip : String) (nodes : List Node) :
    Recorded (k.cleanOld vip) (instanceName nodes (k.getInterfaces order vip)) vip
      ((k.cleanOld vip).addRecord nodeName (k.getInterfaces order vip) vip nodes) := by
  have hclean : (k.cleanOld vip).VipSound := h.cleanOld.1
  exact hclean.recorded nodeName (k.getInterfaces order vip) vip nodes

/-- A call that gets no id for a movable address has changed neither table. -/
theorem Movable.unchanged {order : List String} {nodes : List Node} (h : k.VipSound)
    (hidx : k.Indexed) (hmov : k.Movable order vip nodes)
    (hfail : (k.setBalancer nodeName order (.ok ()) vip nodes).1 =
      .error IDAllocator.errIDsExhausted) :
    (k.setBalancer nodeName order (.ok ()) vip nodes).2.vips = k.vips ∧
      (k.setBalancer nodeName order (.ok ()) vip nodes).2.instances = k.instances := by
  by_cases hif : k.getInterfaces order vip = ""
  · rw [setBalancer, if_pos hif]
    exact ⟨rfl, rfl⟩
  · have hrec := h.recorded_cleanOld nodeName order vip nodes
    rw [setBalancer_fst hif] at hfail
    rw [setBalancer_snd hif]
    generalize (k.cleanOld vip).addRecord nodeName (k.getInterfaces order vip) vip nodes = r
      at hrec hfail
    cases hrec with
    | ok _ _ _ => cases hfail
    | exhausted hvips hinst hn hall =>
      have hold : k.cleanOld vip = k := by
        rw [cleanOld, hmov.get_eq_none h hidx hif hn hall]
      rw [hold] at hvips hinst
      exact ⟨hvips, hinst⟩

/-- **`SetBalancer` for a movable address keeps the index exact.** -/
theorem Movable.indexed {order : List String} {nodes : List Node} (h : k.VipSound)
    (hidx : k.Indexed) (hmov : k.Movable order vip nodes) (io : Except String Unit) :
    (k.setBalancer nodeName order io vip nodes).2.Indexed := by
  by_cases hif : k.getInterfaces order vip = ""
  · rw [setBalancer, if_pos hif]
    exact hidx
  · have hrec := h.recorded_cleanOld nodeName order vip nodes
    rw [setBalancer_snd hif]
    generalize (k.cleanOld vip).addRecord nodeName (k.getInterfaces order vip) vip nodes = r
      at hrec
    intro w m
    cases hrec with
    | ok _ hvips hlists =>
      rw [hvips, hlists, h.lists_cleanOld, cleanOld_vips, Map.get_set, ← hidx w m]
      by_cases hw : w = vip
      · rw [if_pos hw]
        simp [hw, eq_comm]
      · rw [if_neg hw]
        simp [hw]
    | exhausted hvips hinst hn hall =>
      have hold : k.cleanOld vip = k := by
        rw [cleanOld, hmov.get_eq_none h hidx hif hn hall]
      rw [hold] at hvips hinst
      rw [Lists, hvips, hinst]
      exact hidx w m

/-- An address that is not movable loses its instance and keeps its entry. -/
theorem not_indexed_of_not_movable (nodeName : String) {order : List String} {nodes : List Node}
    (h : k.VipSound) (hidx : k.Indexed) (hmov : ¬ k.Movable order vip nodes) :
    ∃ n, k.vips.get vip = some n ∧
      (k.setBalancer nodeName order (.ok ()) vip nodes).1 =
        .error IDAllocator.errIDsExhausted ∧
      (k.setBalancer nodeName order (.ok ()) vip nodes).2.vips.get vip = some n ∧
      ¬ (k.setBalancer nodeName order (.ok ()) vip nodes).2.Lists n vip := by
  unfold Movable at hmov
  push Not at hmov
  obtain ⟨n, inst, hv, hn, hmore, hif, hnone, hall⟩ := hmov
  obtain ⟨inst', hn', hmem⟩ := (hidx vip n).mp hv
  cases hn.symm.trans hn'
  have hold : k.cleanOld vip = k.cleanRecord vip n := by rw [cleanOld, hv]
  obtain ⟨hids, hsome⟩ := isSome_get_cleanRecord hn (removeVip_ne_nil hmem hmore)
  have hrec := h.recorded_cleanOld nodeName order vip nodes
  have hlists : ¬ (k.cleanOld vip).Lists n vip := fun hl => (h.lists_cleanOld n vip).mp hl |>.2 rfl
  rw [setBalancer_fst hif, setBalancer_snd hif]
  refine ⟨n, hv, ?_⟩
  generalize (k.cleanOld vip).addRecord nodeName (k.getInterfaces order vip) vip nodes = r at hrec
  cases hrec with
  | ok hroom _ _ =>
    rw [hold, hids, hsome] at hroom
    rcases hroom with hroom | ⟨id, hid, hfree⟩
    · exact absurd hroom hnone
    · exact absurd (hall id hid) hfree
  | exhausted hvips hinst _ _ =>
    rw [Lists, ← hinst] at hlists
    exact ⟨rfl, by rw [hvips, cleanOld_vips, hv], hlists⟩

/-- `DelBalancer` keeps the index exact. -/
theorem Indexed.delBalancer (h : k.VipSound) (hidx : k.Indexed) (io : Except String Unit)
    (vip : String) : (k.delBalancer io vip).2.Indexed := by
  rw [KeepAlived.delBalancer]
  split
  · exact hidx
  · rename_i n hv
    obtain ⟨inst, hn, -⟩ := (hidx vip n).mp hv
    dsimp only
    rw [hn, if_neg (by simp)]
    intro w m
    have hvips : (({ k with vips := k.vips.delete vip } : KeepAlived).cleanRecord vip n).vips =
        k.vips.delete vip := cleanRecord_vips_eq ..
    have hlists : ({ k with vips := k.vips.delete vip } : KeepAlived).cleanRecord vip n =
        { k.cleanRecord vip n with vips := k.vips.delete vip } := cleanRecord_vips ..
    show (KeepAlived.cleanRecord _ vip n).vips.get w = some m ↔ (KeepAlived.cleanRecord _ vip n).Lists m w
    rw [hvips, hlists, Map.get_delete]
    refine Iff.trans ?_ (h.lists_cleanRecord hv m w).symm
    rw [← hidx w m]
    by_cases hw : w = vip
    · simp [hw]
    · simp [hw]

theorem Indexed.configureWithEIP (hidx : k.Indexed) (host : Host) (config : Config)
    (deleted : Bool) : (k.configureWithEIP host config deleted).2.Indexed := by
  rw [KeepAlived.configureWithEIP]
  split
  · exact hidx
  · split
    · exact hidx
    · exact hidx

end KeepAlived

/-! ## Runs -/

/-- The states that calls reach from a new speaker, if every `SetBalancer` is for an
address that is movable in the state before it. -/
inductive MovableReach (nodeName : String) : KeepAlived → Prop
  | new {k : KeepAlived} : newKeepAlived = some k → MovableReach nodeName k
  | setBalancer {k : KeepAlived} {order : List String} {vip : String} {nodes : List Node}
      (io : Except String Unit) : MovableReach nodeName k → k.configs.Ranges order →
      k.Movable order vip nodes → MovableReach nodeName (k.setBalancer nodeName order io vip nodes).2
  | delBalancer {k : KeepAlived} (io : Except String Unit) (vip : String) :
      MovableReach nodeName k → MovableReach nodeName (k.delBalancer io vip).2
  | configureWithEIP {k : KeepAlived} (host : Host) (config : Config) (deleted : Bool) :
      MovableReach nodeName k → MovableReach nodeName (k.configureWithEIP host config deleted).2

namespace MovableReach
variable {nodeName : String} {k : KeepAlived}

theorem reach (h : MovableReach nodeName k) : VipReach nodeName Set.univ k := by
  induction h with
  | new hk => exact .new hk
  | setBalancer io _ horder _ ih => exact ih.step (.setBalancer _ io _ _ horder trivial)
  | delBalancer io vip _ ih => exact ih.step (.delBalancer io vip)
  | configureWithEIP host config deleted _ ih =>
    exact ih.step (.configureWithEIP host config deleted)

theorem sound (h : MovableReach nodeName k) : k.VipSound := .of_reach h.reach

theorem indexed (h : MovableReach nodeName k) : k.Indexed := by
  induction h with
  | new hk =>
    obtain ⟨a, -, rfl⟩ := Option.map_eq_some_iff.mp hk
    intro vip n
    simp [KeepAlived.Lists]
  | setBalancer io hr _ hmov ih => exact hmov.indexed hr.sound ih io
  | delBalancer io vip hr ih => exact ih.delBalancer hr.sound io vip
  | configureWithEIP host config deleted _ ih => exact ih.configureWithEIP host config deleted

end MovableReach

/-- **The index of the addresses is exact.**  In every run of calls, failed ones
included, in which every `SetBalancer` is for an address that is movable in the state
before it, the index names an instance exactly if that instance lists the address.  And
in such a state the next `SetBalancer` leaves the index exact, and both tables as they
were if it gets no id, exactly if its address is movable. -/
theorem index_exact {nodeName : String} {k : KeepAlived} (h : MovableReach nodeName k) :
    (∀ vip n, k.vips.get vip = some n ↔
      ∃ inst, k.instances.get n = some inst ∧ vip ∈ inst.svcips) ∧
    ∀ order vip nodes, k.configs.Ranges order →
      (k.Movable order vip nodes ↔
        (k.setBalancer nodeName order (.ok ()) vip nodes).2.Indexed ∧
        ((k.setBalancer nodeName order (.ok ()) vip nodes).1 =
            .error IDAllocator.errIDsExhausted →
          (k.setBalancer nodeName order (.ok ()) vip nodes).2.vips = k.vips ∧
          (k.setBalancer nodeName order (.ok ()) vip nodes).2.instances = k.instances)) := by
  refine ⟨h.indexed, fun order vip nodes _ => ⟨fun hmov => ?_, fun ⟨hidx, _⟩ => ?_⟩⟩
  · exact ⟨hmov.indexed h.sound h.indexed (.ok ()), hmov.unchanged h.sound h.indexed⟩
  · by_contra hmov
    obtain ⟨n, -, -, hv, hl⟩ :=
      KeepAlived.not_indexed_of_not_movable nodeName h.sound h.indexed hmov
    exact hl ((hidx vip n).mp hv)

theorem movable_of_vips_empty {k : KeepAlived} (h : k.vips = Map.empty) (order : List String)
    (vip : String) (nodes : List Node) : k.Movable order vip nodes := by
  intro n inst hv
  rw [h, Map.get_empty] at hv
  cases hv

theorem index_exact_oneAddress :
    ∃ k n, MovableReach "node1" k ∧ k.vips.get "192.0.2.1" = some n ∧
      ∃ inst, k.instances.get n = some inst ∧ "192.0.2.1" ∈ inst.svcips := by
  have hrun : (configuredVip.map fun k =>
      (decide (k.configs.Ranges ["pool"]), decide (k.vips = Map.empty),
        (k.setBalancer "node1" ["pool"] (.ok ()) "192.0.2.1" [{ name := "node1" }]).2.vips.get
          "192.0.2.1")) =
      some (true, true, some (instanceName [{ name := "node1" }] "eth0")) := by
    decide +kernel
  obtain ⟨k, hk, he⟩ := Option.map_eq_some_iff.mp hrun
  simp only [Prod.mk.injEq] at he
  obtain ⟨horder, hempty, hget⟩ := he
  have hconf : MovableReach "node1" k := by
    obtain ⟨k₀, hk₀, rfl⟩ := Option.map_eq_some_iff.mp hk
    exact .configureWithEIP vipHost vipConfig false (.new hk₀)
  have hmov := movable_of_vips_empty (of_decide_eq_true hempty) ["pool"] "192.0.2.1"
    [{ name := "node1" }]
  have hreach := hconf.setBalancer (.ok ()) (of_decide_eq_true horder) hmov
  exact ⟨_, _, hreach, hget, ((index_exact hreach).1 _ _).mp hget⟩

/-! ## An index entry without an instance

One node serves the addresses of a pool whose interface is changed again and again.  An
address that is set after a change gets an instance of its own, until the ids are used
up. -/

/-- The interfaces of the pool. -/
def lanIface (b : UInt8) : String := "eth" ++ String.ofList (appendDecimal b.toNat)

/-- The range of the pool. -/
def lanRange : IpRange.Range :=
  ⟨.v4Family, v4InV6Prefix ++ [192, 0, 2, 0], v4InV6Prefix ++ [192, 0, 2, 255]⟩

/-- The pool, on one of the interfaces. -/
def lanConfig (b : UInt8) : Config := ⟨"pool", lanRange, lanIface b⟩

/-- The addresses of the pool. -/
def lanVip (b : UInt8) : String := ipString [192, 0, 2, b]

/-- The nodes that serve them. -/
def lanNodes : List Node := [{ name := "node1" }]

theorem lanVip_inj {b c : UInt8} (h : lanVip b = lanVip c) : b = c := by
  have h16 := ipString_inj (.inl rfl) (.inl rfl) h
  simpa [to16] using h16

theorem lanIface_inj {b c : UInt8} (h : lanIface b = lanIface c) : b = c := by
  have hlist : appendDecimal b.toNat = appendDecimal c.toNat := by
    simpa [lanIface] using congrArg String.toList h
  have hb := parseOctet_appendDecimal b
  rw [hlist, parseOctet_appendDecimal c] at hb
  exact (Option.some.inj hb).symm

theorem lanIface_ne_empty (b : UInt8) : lanIface b ≠ "" := by
  intro he
  have hlist := congrArg String.toList he
  simp [lanIface] at hlist

theorem lanName_inj {b c : UInt8}
    (h : instanceName lanNodes (lanIface b) = instanceName lanNodes (lanIface c)) : b = c := by
  have hlist := congrArg String.toList h
  simp only [instanceName, String.toList_append, List.append_cancel_left_eq] at hlist
  exact lanIface_inj (String.toList_injective hlist)

theorem parseInterface_lan (b : UInt8) :
    parseInterface vipHost (lanIface b) =
      .ok { name := lanIface b, addrs := .ok ["192.0.2.254/24"] } := by
  have hcolon : ':' ∉ (lanIface b).toList := by
    rw [lanIface, String.toList_append, List.mem_append]
    rintro (h | h)
    · exact absurd h (by decide)
    · rw [String.toList_ofList] at h
      obtain ⟨d, hd, he⟩ := mem_appendDecimal h b.toNat_lt
      exact (digitChar_ne_sep hd).2.1 he.symm
  rw [parseInterface, splitTwo_of_notMem hcolon]
  rfl

theorem configureWithEIP_lan (k : KeepAlived) (b : UInt8) :
    (k.configureWithEIP vipHost (lanConfig b) false).2 =
      { k with configs := k.configs.set "pool" (lanConfig b) } := by
  have hvalid : validateInterface { name := lanIface b, addrs := .ok ["192.0.2.254/24"] }
      lanRange = .ok () := by
    have hcidr : parseCIDR "192.0.2.254/24" = some (v4InV6Prefix ++ [192, 0, 2, 254],
        ⟨[192, 0, 2, 0], [255, 255, 255, 0]⟩) := by decide +kernel
    show validateAddrs (lanIface b) lanRange ["192.0.2.254/24"] = _
    rw [validateAddrs, hcidr]
    exact if_pos (by decide)
  rw [KeepAlived.configureWithEIP, show (lanConfig b).iface = lanIface b from rfl,
    parseInterface_lan]
  dsimp only
  rw [show (lanConfig b).ipRange = lanRange from rfl, hvalid]
  rfl

theorem getInterfaces_lan {k : KeepAlived} {b : UInt8}
    (h : k.configs.get "pool" = some (lanConfig b)) (c : UInt8) :
    k.getInterfaces ["pool"] (lanVip c) = lanIface b := by
  have key : ∀ x : Fin 256,
      lanRange.contains (v4InV6Prefix ++ [192, 0, 2, UInt8.ofNat x.val]) = true := by decide +kernel
  have hin := key ⟨c.toNat, c.toNat_lt⟩
  rw [UInt8.ofNat_toNat] at hin
  rw [KeepAlived.getInterfaces, lanVip, parseIP_ipString (.inl rfl)]
  simp only [List.filterMap_cons, List.filterMap_nil, h]
  rw [List.find?_cons_of_pos]
  · rfl
  · exact hin

/-- The name of an instance of the pool. -/
def lanName (b : UInt8) : String := instanceName lanNodes (lanIface b)

/-- A call for a new address of the pool adds it to the instance of the interface, or
finds all ids in use. -/
theorem setBalancer_lan {k : KeepAlived} {b c : UInt8} (h : MovableReach "node1" k)
    (horder : k.configs.Ranges ["pool"]) (hconf : k.configs.get "pool" = some (lanConfig b))
    (hnew : k.vips.get (lanVip c) = none) :
    (∃ k', MovableReach "node1" k' ∧ k'.configs = k.configs ∧
        k'.vips = k.vips.set (lanVip c) (lanName b) ∧
        ∀ n w, k'.Lists n w ↔ k.Lists n w ∨ n = lanName b ∧ w = lanVip c) ∨
      k.instances.get (lanName b) = none ∧ ∀ id < 256, id ∈ k.idAlloc.used := by
  have hiface := getInterfaces_lan hconf c
  have hif : k.getInterfaces ["pool"] (lanVip c) ≠ "" := hiface ▸ lanIface_ne_empty b
  have hmov : k.Movable ["pool"] (lanVip c) lanNodes := by
    intro n inst hv
    rw [hnew] at hv
    cases hv
  have hreach := h.setBalancer (.ok ()) horder hmov
  have hrec := h.sound.recorded_cleanOld "node1" ["pool"] (lanVip c) lanNodes
  have hclean : k.cleanOld (lanVip c) = k := by rw [KeepAlived.cleanOld, hnew]
  rw [KeepAlived.setBalancer_snd hif] at hreach
  rw [hclean, hiface] at hrec hreach
  have hconfigs := k.addRecord_configs "node1" (lanIface b) (lanVip c) lanNodes
  generalize k.addRecord "node1" (lanIface b) (lanVip c) lanNodes = r at hrec hreach hconfigs
  cases hrec with
  | ok _ hvips hlists => exact .inl ⟨_, hreach, hconfigs, hvips, hlists⟩
  | exhausted _ _ hn hall => exact .inr ⟨hn, hall⟩

/-- The addresses up to the `m`th are in the instances of the interfaces before the `m`th,
the first two in one. -/
structure LanStage (m : Nat) (k : KeepAlived) : Prop where
  reach : MovableReach "node1" k
  order : k.configs.Ranges ["pool"]
  names : ∀ n, (∃ w, k.Lists n w) ↔ ∃ b : UInt8, b.toNat < m ∧ n = lanName b
  vips : ∀ w, (k.vips.get w).isSome → ∃ b : UInt8, b.toNat ≤ m ∧ w = lanVip b
  first : k.Lists (lanName 0) (lanVip 0)
  second : k.Lists (lanName 0) (lanVip 1)

namespace LanStage
variable {m : Nat} {k : KeepAlived}

theorem configure (h : LanStage m k) (b : UInt8) :
    LanStage m { k with configs := k.configs.set "pool" (lanConfig b) } where
  reach := by
    have hreach := h.reach.configureWithEIP vipHost (lanConfig b) false
    rwa [configureWithEIP_lan] at hreach
  order := by
    refine ⟨h.order.1, fun name => ?_⟩
    show _ ↔ ((k.configs.set "pool" (lanConfig b)).get name).isSome
    rw [Map.get_set]
    split
    · rename_i he
      simp [he]
    · exact h.order.2 name
  names := h.names
  vips := h.vips
  first := h.first
  second := h.second

/-- One more interface and one more address, unless all ids are in use. -/
theorem next (h : LanStage m k) (hm : m < 255) :
    (∃ k', LanStage (m + 1) k') ∨ ∀ id < 256, id ∈ k.idAlloc.used := by
  have hb : (UInt8.ofNat m).toNat = m := by
    rw [UInt8.toNat_ofNat', Nat.mod_eq_of_lt (by omega)]
  have hc : (UInt8.ofNat (m + 1)).toNat = m + 1 := by
    rw [UInt8.toNat_ofNat', Nat.mod_eq_of_lt (by omega)]
  have hconf := h.configure (UInt8.ofNat m)
  have hnew : k.vips.get (lanVip (UInt8.ofNat (m + 1))) = none := by
    by_contra hsome
    obtain ⟨b, hle, he⟩ := h.vips _ (Option.isSome_iff_ne_none.mpr hsome)
    have hval := congrArg UInt8.toNat (lanVip_inj he)
    omega
  rcases setBalancer_lan hconf.reach hconf.order (Map.get_set_self ..) hnew with
    ⟨k', hreach, hconfigs, hvips, hlists⟩ | ⟨-, hall⟩
  · refine .inl ⟨k', hreach, ?_, fun n => ?_, fun w hw => ?_, ?_, ?_⟩
    · rw [hconfigs]
      exact hconf.order
    · simp only [hlists]
      constructor
      · rintro ⟨w, hl | ⟨rfl, -⟩⟩
        · obtain ⟨b, hlt, rfl⟩ := (h.names n).mp ⟨w, hl⟩
          exact ⟨b, by omega, rfl⟩
        · exact ⟨UInt8.ofNat m, by omega, rfl⟩
      · rintro ⟨b, hlt, rfl⟩
        by_cases hbm : b.toNat < m
        · obtain ⟨w, hl⟩ := (h.names _).mpr ⟨b, hbm, rfl⟩
          exact ⟨w, .inl hl⟩
        · obtain rfl : b = UInt8.ofNat m := UInt8.toNat_inj.mp (by omega)
          exact ⟨_, .inr ⟨rfl, rfl⟩⟩
    · rw [hvips, Map.get_set] at hw
      split at hw
      · exact ⟨UInt8.ofNat (m + 1), by omega, ‹_›⟩
      · obtain ⟨b, hle, rfl⟩ := h.vips w hw
        exact ⟨b, by omega, rfl⟩
    · exact (hlists _ _).mpr (.inl h.first)
    · exact (hlists _ _).mpr (.inl h.second)
  · exact .inr hall

/-- With 255 instances all ids are in use. -/
theorem full (h : LanStage 255 k) : ∀ id < 256, id ∈ k.idAlloc.used := by
  have hs := h.reach.sound
  have hval : ∀ i : Fin 255, (UInt8.ofNat i.val).toNat = i.val := by
    intro i
    have hi := i.isLt
    rw [UInt8.toNat_ofNat', Nat.mod_eq_of_lt (by omega)]
  have hex : ∀ i : Fin 255, ∃ inst, k.instances.get (lanName (UInt8.ofNat i.val)) = some inst := by
    intro i
    obtain ⟨w, inst, hget, -⟩ := (h.names (lanName (UInt8.ofNat i.val))).mpr
      ⟨UInt8.ofNat i.val, by rw [hval]; exact i.isLt, rfl⟩
    exact ⟨inst, hget⟩
  choose inst hinst using hex
  -- the ids of the instances, counted from 0
  let f : Fin 255 → Fin 255 := fun i => ⟨(inst i).routeID - 1, by
    have hr := hs.range _ _ (hinst i)
    omega⟩
  have hinj : Function.Injective f := by
    intro i j he
    have hid : (inst i).routeID - 1 = (inst j).routeID - 1 := congrArg Fin.val he
    have hi := hs.range _ _ (hinst i)
    have hj := hs.range _ _ (hinst j)
    have hname := hs.distinct _ _ _ _ (hinst i) (hinst j) (by omega)
    have hb := congrArg UInt8.toNat (lanName_inj hname)
    rw [hval, hval] at hb
    exact Fin.ext hb
  intro id hid
  by_cases h0 : id = 0
  · exact (hs.used id).mpr (.inl h0)
  · obtain ⟨i, hi⟩ := Finite.injective_iff_surjective.mp hinj ⟨id - 1, by omega⟩
    have hr := hs.range _ _ (hinst i)
    have hid : (inst i).routeID - 1 = id - 1 := congrArg Fin.val hi
    exact (hs.used id).mpr (.inr ⟨_, _, hinst i, by omega⟩)

/-- The ids are used up at some stage. -/
theorem exists_full {d : Nat} (h : LanStage m k) (hd : m + d = 255) :
    ∃ m' k', m' ≤ 255 ∧ LanStage m' k' ∧ ∀ id < 256, id ∈ k'.idAlloc.used := by
  induction d generalizing m k with
  | zero =>
    obtain rfl : m = 255 := hd
    exact ⟨255, k, le_refl _, h, h.full⟩
  | succ d ih =>
    rcases h.next (by omega) with ⟨k', h'⟩ | hall
    · exact ih h' (by omega)
    · exact ⟨m, k, by omega, h, hall⟩

theorem ranges_lanConfig (b : UInt8) : (Map.empty.set "pool" (lanConfig b)).Ranges ["pool"] := by
  refine ⟨List.nodup_singleton _, fun name => ?_⟩
  rw [Map.get_set]
  split
  · rename_i he
    simp [he]
  · rename_i hne
    simp [hne]

/-- The first address gets an instance of its own: the ids are not used up by then. -/
theorem exists_first : ∃ k : KeepAlived, MovableReach "node1" k ∧
    k.configs = Map.empty.set "pool" (lanConfig 0) ∧
    k.vips = Map.empty.set (lanVip 0) (lanName 0) ∧
    ∀ n w, k.Lists n w ↔ n = lanName 0 ∧ w = lanVip 0 := by
  obtain ⟨a, hnew⟩ := Option.isSome_iff_exists.mp (show (IDAllocator.new 256).isSome by decide)
  have h₀ : MovableReach "node1" ⟨Map.empty, Map.empty, Map.empty, a⟩ := .new (by
    rw [newKeepAlived, hnew, Option.map_some])
  have h₁ := h₀.configureWithEIP vipHost (lanConfig 0) false
  rw [configureWithEIP_lan] at h₁
  have hempty : ∀ (n : String) inst, ¬ (Map.empty : Map String Instance).get n = some inst := by
    intro n inst hget
    rw [Map.get_empty] at hget
    cases hget
  rcases setBalancer_lan (c := 0) h₁ (ranges_lanConfig 0) (Map.get_set_self ..)
      (Map.get_empty _) with ⟨k, hreach, hconf, hvips, hlists⟩ | ⟨-, hall⟩
  · refine ⟨k, hreach, hconf, hvips, fun n w => (hlists n w).trans (or_iff_right ?_)⟩
    rintro ⟨inst, hget, -⟩
    exact hempty n inst hget
  · rcases (h₁.sound.used 1).mp (hall 1 (by decide)) with h0 | ⟨n, inst, hget, -⟩
    · cases h0
    · exact absurd hget (hempty n inst)

/-- Two addresses in the first instance. -/
theorem exists_one : ∃ k, LanStage 1 k := by
  obtain ⟨k, hreach, hconf, hvips, hlists⟩ := exists_first
  have hfirst : k.Lists (lanName 0) (lanVip 0) := (hlists _ _).mpr ⟨rfl, rfl⟩
  have hnew : k.vips.get (lanVip 1) = none := by
    rw [hvips, Map.get_set_ne _ _ (fun he => absurd (lanVip_inj he) (by decide)), Map.get_empty]
  rcases setBalancer_lan (b := 0) (c := 1) hreach (by rw [hconf]; exact ranges_lanConfig 0)
      (by rw [hconf]; exact Map.get_set_self ..) hnew with
    ⟨k', hreach', hconf', hvips', hlists'⟩ | ⟨hget, -⟩
  swap
  · obtain ⟨inst, hinst, -⟩ := hfirst
    cases hget.symm.trans hinst
  refine ⟨k', hreach', by rw [hconf', hconf]; exact ranges_lanConfig 0, fun n => ?_,
    fun w hw => ?_, (hlists' _ _).mpr (.inl hfirst), (hlists' _ _).mpr (.inr ⟨rfl, rfl⟩)⟩
  · simp only [hlists', hlists]
    constructor
    · rintro ⟨w, ⟨rfl, -⟩ | ⟨rfl, -⟩⟩
      · exact ⟨0, by decide, rfl⟩
      · exact ⟨0, by decide, rfl⟩
    · rintro ⟨b, hb, rfl⟩
      obtain rfl : b = 0 := UInt8.toNat_inj.mp (by simpa using hb)
      exact ⟨_, .inr ⟨rfl, rfl⟩⟩
  · rw [hvips', hvips, Map.get_set, Map.get_set] at hw
    split at hw
    · exact ⟨1, by decide, ‹_›⟩
    · split at hw
      · exact ⟨0, by decide, ‹_›⟩
      · rw [Map.get_empty] at hw
        cases hw

/-- When all ids are in use, the first address cannot be moved to a new interface. -/
theorem not_movable (h : LanStage m k) (hm : m ≤ 255) (hall : ∀ id < 256, id ∈ k.idAlloc.used) :
    ¬ KeepAlived.Movable { k with configs := k.configs.set "pool" (lanConfig (UInt8.ofNat m)) }
      ["pool"] (lanVip 0) lanNodes := by
  intro hmov
  obtain ⟨inst, hget, h0⟩ := h.first
  obtain ⟨inst', hget', h1⟩ := h.second
  cases hget.symm.trans hget'
  have hiface : KeepAlived.getInterfaces
      { k with configs := k.configs.set "pool" (lanConfig (UInt8.ofNat m)) } ["pool"] (lanVip 0) =
      lanIface (UInt8.ofNat m) := getInterfaces_lan (Map.get_set_self ..) 0
  have hmore : inst.svcips ≠ [lanVip 0] := by
    intro he
    rw [he, List.mem_singleton] at h1
    exact absurd (lanVip_inj h1) (by decide)
  have hv : k.vips.get (lanVip 0) = some (lanName 0) :=
    (h.reach.indexed _ _).mpr ⟨inst, hget, h0⟩
  rcases hmov (lanName 0) inst hv hget hmore with hif | hsome | ⟨id, hid, hfree⟩
  · exact lanIface_ne_empty _ (hiface ▸ hif)
  · rw [hiface] at hsome
    obtain ⟨inst₁, hget₁⟩ := Option.isSome_iff_exists.mp hsome
    have hne := h.reach.sound.nonempty _ _ hget₁
    obtain ⟨w, hw⟩ := List.exists_mem_of_ne_nil _ hne
    obtain ⟨b, hb, he⟩ := (h.names _).mp ⟨w, inst₁, hget₁, hw⟩
    have hval := congrArg UInt8.toNat (lanName_inj he)
    rw [UInt8.toNat_ofNat', Nat.mod_eq_of_lt (by omega)] at hval
    omega
  · exact hfree (hall id hid)

end LanStage

/-- **An index entry without an instance.**  All ids are in use, and an address shares its
instance with another one.  `SetBalancer` for it, with a new interface, fails for want of
an id; the index still names the old instance, which does not list the address any more. -/
theorem index_stale :
    ∃ k n, VipReach "node1" Set.univ k ∧ k.configs.Ranges ["pool"] ∧
      (∃ inst, k.instances.get n = some inst ∧ "192.0.2.0" ∈ inst.svcips) ∧
      (k.setBalancer "node1" ["pool"] (.ok ()) "192.0.2.0" [{ name := "node1" }]).1 =
        .error IDAllocator.errIDsExhausted ∧
      (k.setBalancer "node1" ["pool"] (.ok ()) "192.0.2.0" [{ name := "node1" }]).2.vips.get
        "192.0.2.0" = some n ∧
      ¬ ∃ inst, (k.setBalancer "node1" ["pool"] (.ok ()) "192.0.2.0"
        [{ name := "node1" }]).2.instances.get n = some inst ∧ "192.0.2.0" ∈ inst.svcips := by
  obtain ⟨k₁, h₁⟩ := LanStage.exists_one
  obtain ⟨m, k, hm, h, hall⟩ := h₁.exists_full (d := 254) rfl
  have hconf := h.configure (UInt8.ofNat m)
  have hmov := h.not_movable hm hall
  rw [show lanVip 0 = "192.0.2.0" by decide] at hmov
  obtain ⟨n, hv, hfail, hentry, hlost⟩ := KeepAlived.not_indexed_of_not_movable "node1"
    hconf.reach.sound hconf.reach.indexed hmov
  exact ⟨_, n, hconf.reach.reach, hconf.order, (hconf.reach.indexed _ _).mp hv, hfail, hentry, hlost⟩

end OpenELB
