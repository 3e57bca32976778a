import OpenELB.KeepAlived

/-! # Router ids and virtual addresses stay in step

Over every run of calls, also those that fail, the ids the allocator has marked are 0
and the router ids of the instances, no two instances share one, and an instance has at
least one address and none twice (`router_ids_exact`).

Three tables have to agree for that, the bitmap, the instances and the index of the
addresses, and a call changes them one after the other.  `VipSound` is what holds
between calls.  Inside a call it holds as well, as soon as the address that is being
moved is in no instance (`Unlisted`): then its entry in the index does not matter. -/
namespace OpenELB
open Go

namespace KeepAlived

/-- No instance has the address. -/
def Unlisted (k : KeepAlived) (vip : String) : Prop :=
  ∀ n inst, k.instances.get n = some inst → vip ∉ inst.svcips

/-- The tables of the speaker agree. -/
structure VipSound (k : KeepAlived) : Prop where
  numIDs : k.idAlloc.numIDs = 256
  used : ∀ id, id ∈ k.idAlloc.used ↔
    id = 0 ∨ ∃ n inst, k.instances.get n = some inst ∧ inst.routeID = id
  distinct : ∀ n n' inst inst', k.instances.get n = some inst → k.instances.get n' = some inst' →
    inst.routeID = inst'.routeID → n = n'
  range : ∀ n inst, k.instances.get n = some inst → 0 < inst.routeID ∧ inst.routeID < 256
  nonempty : ∀ n inst, k.instances.get n = some inst → inst.svcips ≠ []
  nodup : ∀ n inst, k.instances.get n = some inst → inst.svcips.Nodup
  listed : ∀ n inst vip, k.instances.get n = some inst → vip ∈ inst.svcips →
    k.vips.get vip = some n

namespace VipSound
variable {k : KeepAlived} {vip n : String} {inst : Instance}

theorem mem_used (h : k.VipSound) (hn : k.instances.get n = some inst) :
    inst.routeID ∈ k.idAlloc.used :=
  (h.used _).mpr (.inr ⟨n, inst, hn, rfl⟩)

/-- The index may be changed at an address that is in no instance. -/
theorem of_vips (h : k.VipSound) (hun : k.Unlisted vip) {vips : Map String String}
    (hother : ∀ w, w ≠ vip → vips.get w = k.vips.get w) : VipSound { k with vips := vips } where
  numIDs := h.numIDs
  used := h.used
  distinct := h.distinct
  range := h.range
  nonempty := h.nonempty
  nodup := h.nodup
  listed := by
    intro m inst w hm hw
    have hne : w ≠ vip := fun he => hun m inst hm (he ▸ hw)
    exact (hother w hne).trans (h.listed m inst w hm hw)

/-- An instance keeps its id and gets other addresses. -/
theorem of_set (h : k.VipSound) (hn : k.instances.get n = some inst) {inst' : Instance}
    (hid : inst'.routeID = inst.routeID) (hne : inst'.svcips ≠ []) (hnodup : inst'.svcips.Nodup)
    (hlisted : ∀ w ∈ inst'.svcips, k.vips.get w = some n) :
    VipSound { k with instances := k.instances.set n inst' } := by
  -- every instance after the change has the id of the one before
  have hold : ∀ m i, (k.instances.set n inst').get m = some i →
      ∃ i₀, k.instances.get m = some i₀ ∧ i₀.routeID = i.routeID :=
    Map.forall_get_set ⟨inst, hn, hid.symm⟩ fun m i _ hm => ⟨i, hm, rfl⟩
  have hnew : ∀ m i₀, k.instances.get m = some i₀ →
      ∃ i, (k.instances.set n inst').get m = some i ∧ i.routeID = i₀.routeID := by
    intro m i₀ hm
    rw [Map.get_set]
    split
    · rename_i he
      subst he
      cases hn.symm.trans hm
      exact ⟨inst', rfl, hid⟩
    · exact ⟨i₀, hm, rfl⟩
  refine ⟨h.numIDs, fun id => ?_, ?_, ?_, ?_, ?_, ?_⟩
  · refine (h.used id).trans (or_congr_right ⟨?_, ?_⟩)
    · rintro ⟨m, i₀, hm, rfl⟩
      obtain ⟨i, hi, he⟩ := hnew m i₀ hm
      exact ⟨m, i, hi, he⟩
    · rintro ⟨m, i, hm, rfl⟩
      obtain ⟨i₀, hi₀, he⟩ := hold m i hm
      exact ⟨m, i₀, hi₀, he⟩
  · intro m m' i i' hm hm' he
    obtain ⟨i₀, hi₀, he₀⟩ := hold m i hm
    obtain ⟨i₀', hi₀', he₀'⟩ := hold m' i' hm'
    exact h.distinct m m' i₀ i₀' hi₀ hi₀' (he₀.trans (he.trans he₀'.symm))
  · intro m i hm
    obtain ⟨i₀, hi₀, he₀⟩ := hold m i hm
    exact he₀ ▸ h.range m i₀ hi₀
  · exact Map.forall_get_set hne fun m i _ => h.nonempty m i
  · exact Map.forall_get_set hnodup fun m i _ => h.nodup m i
  · have hall := Map.forall_get_set (P := fun m i => ∀ w ∈ i.svcips, k.vips.get w = some m)
      hlisted fun m i _ hm w hw => h.listed m i w hm hw
    exact fun m i w hm hw => hall m i hm w hw

/-- An instance goes, and its id is freed. -/
theorem of_delete (h : k.VipSound) (hn : k.instances.get n = some inst) :
    VipSound { k with
      instances := k.instances.delete n
      idAlloc := k.idAlloc.free inst.routeID } := by
  have hold : ∀ m i, (k.instances.delete n).get m = some i → m ≠ n ∧ k.instances.get m = some i :=
    Map.forall_get_delete fun m i hmn hm => ⟨hmn, hm⟩
  have hblock := k.idAlloc.used_lt (h.mem_used hn)
  refine ⟨h.numIDs, fun id => ?_, ?_, ?_, ?_, ?_, ?_⟩
  · show id ∈ (k.idAlloc.free inst.routeID).used ↔ _
    rw [IDAllocator.used_free _ hblock, Set.mem_sdiff, Set.mem_singleton_iff, h.used]
    constructor
    · rintro ⟨rfl | ⟨m, i, hm, rfl⟩, hne⟩
      · exact .inl rfl
      · have hmn : m ≠ n := by
          rintro rfl
          cases hn.symm.trans hm
          exact hne rfl
        exact .inr ⟨m, i, by rw [Map.get_delete, if_neg hmn]; exact hm, rfl⟩
    · rintro (rfl | ⟨m, i, hm, rfl⟩)
      · have hpos := (h.range n inst hn).1
        exact ⟨.inl rfl, by omega⟩
      · obtain ⟨hmn, hm⟩ := hold m i hm
        exact ⟨.inr ⟨m, i, hm, rfl⟩, fun he => hmn (h.distinct m n i inst hm hn he)⟩
  · intro m m' i i' hm hm'
    exact h.distinct m m' i i' (hold m i hm).2 (hold m' i' hm').2
  · exact fun m i hm => h.range m i (hold m i hm).2
  · exact fun m i hm => h.nonempty m i (hold m i hm).2
  · exact fun m i hm => h.nodup m i (hold m i hm).2
  · exact fun m i w hm => h.listed m i w (hold m i hm).2

/-- An instance with one address comes, with an id that was free. -/
theorem of_new (h : k.VipSound) (hn : k.instances.get n = none) {a : IDAllocator} {start : Nat}
    (hfree : Probing.FirstFree k.idAlloc.used k.idAlloc.numIDs start inst.routeID)
    (hused : a.used = insert inst.routeID k.idAlloc.used) (hmax : a.maxBlocks = k.idAlloc.maxBlocks)
    (hvip : inst.svcips = [vip]) (hlisted : k.vips.get vip = some n) :
    VipSound { k with instances := k.instances.set n inst, idAlloc := a } := by
  have hnotin : ∀ m i, k.instances.get m = some i → m ≠ n ∧ i.routeID ≠ inst.routeID := by
    intro m i hm
    refine ⟨?_, fun he => hfree.notMem (he ▸ h.mem_used hm)⟩
    rintro rfl
    cases hn.symm.trans hm
  have hcase : ∀ m i, (k.instances.set n inst).get m = some i →
      m = n ∧ i = inst ∨ m ≠ n ∧ k.instances.get m = some i :=
    Map.forall_get_set (.inl ⟨rfl, rfl⟩) fun m i hmn hm => .inr ⟨hmn, hm⟩
  have hpos : 0 < inst.routeID := by
    by_contra h0
    exact hfree.notMem ((h.used _).mpr (.inl (by omega)))
  refine ⟨?_, fun id => ?_, ?_, ?_, ?_, ?_, ?_⟩
  · show a.numIDs = 256
    rw [IDAllocator.numIDs_eq, hmax, ← IDAllocator.numIDs_eq, h.numIDs]
  · show id ∈ a.used ↔ _
    rw [hused, Set.mem_insert_iff, h.used]
    constructor
    · rintro (rfl | rfl | ⟨m, i, hm, rfl⟩)
      · exact .inr ⟨n, inst, Map.get_set_self .., rfl⟩
      · exact .inl rfl
      · refine .inr ⟨m, i, ?_, rfl⟩
        rw [Map.get_set, if_neg (hnotin m i hm).1]
        exact hm
    · rintro (rfl | ⟨m, i, hm, rfl⟩)
      · exact .inr (.inl rfl)
      · rcases hcase m i hm with ⟨-, rfl⟩ | ⟨-, hm⟩
        · exact .inl rfl
        · exact .inr (.inr ⟨m, i, hm, rfl⟩)
  · intro m m' i i' hm hm' he
    rcases hcase m i hm with ⟨hmn, hi⟩ | ⟨-, hold⟩ <;>
      rcases hcase m' i' hm' with ⟨hmn', hi'⟩ | ⟨-, hold'⟩
    · exact hmn.trans hmn'.symm
    · exact absurd (hi ▸ he.symm) (hnotin m' i' hold').2
    · exact absurd (hi' ▸ he) (hnotin m i hold).2
    · exact h.distinct m m' i i' hold hold' he
  · exact Map.forall_get_set ⟨hpos, h.numIDs ▸ hfree.lt⟩ fun m i _ => h.range m i
  · refine Map.forall_get_set ?_ fun m i _ => h.nonempty m i
    rw [hvip]
    exact List.cons_ne_nil _ _
  · refine Map.forall_get_set ?_ fun m i _ => h.nodup m i
    rw [hvip]
    exact List.nodup_singleton vip
  · intro m i w hm hw
    rcases hcase m i hm with ⟨rfl, rfl⟩ | ⟨-, hm⟩
    · rw [hvip, List.mem_singleton] at hw
      exact hw ▸ hlisted
    · exact h.listed m i w hm hw

/-! ## The methods -/

/-- Cleaning the record of an address takes it out of its instance. -/
theorem cleanRecord (h : k.VipSound) (hv : k.vips.get vip = some n) :
    (k.cleanRecord vip n).VipSound ∧ (k.cleanRecord vip n).Unlisted vip := by
  -- the address can only be in the instance that the index names
  have hun : ∀ m inst, m ≠ n → k.instances.get m = some inst → vip ∉ inst.svcips := by
    intro m inst hmn hm hvip
    exact hmn (Option.some.inj ((h.listed m inst vip hm hvip).symm.trans hv))
  rw [KeepAlived.cleanRecord]
  split
  · rename_i hnone
    refine ⟨h, fun m inst hm => hun m inst ?_ hm⟩
    rintro rfl
    cases hnone.symm.trans hm
  · rename_i inst hn
    have hnotin : vip ∉ removeVip inst.svcips vip := by
      rw [removeVip_eq, (h.nodup n inst hn).mem_erase_iff]
      exact fun hmem => hmem.1 rfl
    dsimp only
    split
    · exact ⟨h.of_delete hn, Map.forall_get_delete hun⟩
    · rename_i hne
      have hsub : ∀ w ∈ removeVip inst.svcips vip, w ∈ inst.svcips := by
        rw [removeVip_eq]
        exact fun w hw => List.mem_of_mem_erase hw
      refine ⟨h.of_set hn rfl hne ?_ fun w hw => h.listed n inst w hn (hsub w hw),
        Map.forall_get_set hnotin hun⟩
      rw [removeVip_eq]
      exact (h.nodup n inst hn).erase vip

theorem cleanOld (h : k.VipSound) : (k.cleanOld vip).VipSound ∧ (k.cleanOld vip).Unlisted vip := by
  rw [KeepAlived.cleanOld]
  split
  · exact h.cleanRecord ‹_›
  · rename_i hnone
    refine ⟨h, fun m inst hm hvip => ?_⟩
    cases hnone.symm.trans (h.listed m inst vip hm hvip)

/-- The allocator may have grown. -/
theorem of_idAlloc (h : k.VipSound) {a : IDAllocator} (hused : a.used = k.idAlloc.used)
    (hmax : a.maxBlocks = k.idAlloc.maxBlocks) : VipSound { k with idAlloc := a } where
  numIDs := by
    show a.numIDs = 256
    rw [IDAllocator.numIDs_eq, hmax, ← IDAllocator.numIDs_eq, h.numIDs]
  used := fun id => (Set.ext_iff.mp hused id).trans (h.used id)
  distinct := h.distinct
  range := h.range
  nonempty := h.nonempty
  nodup := h.nodup
  listed := h.listed

/-- Adding an address that is in no instance. -/
theorem addRecord (h : k.VipSound) (hun : k.Unlisted vip) (nodeName iface : String)
    (nodes : List Node) : (k.addRecord nodeName iface vip nodes).2.VipSound := by
  have hset : ∀ n w, w ≠ vip → (k.vips.set vip n).get w = k.vips.get w :=
    fun n w hw => Map.get_set_ne _ _ hw
  rw [KeepAlived.addRecord]
  split
  · rename_i inst hn
    refine (h.of_vips hun (hset _)).of_set hn rfl (by simp) ?_ ?_
    · exact (h.nodup _ inst hn).append (List.nodup_singleton vip)
        (List.disjoint_singleton.mpr (hun _ inst hn))
    · intro w hw
      rcases List.mem_append.mp hw with hw | hw
      · have hne : w ≠ vip := fun he => hun _ inst hn (he ▸ hw)
        exact (hset _ w hne).trans (h.listed _ inst w hn hw)
      · rw [List.mem_singleton.mp hw]
        exact Map.get_set_self ..
  · rename_i hn
    have halloc := k.idAlloc.allocateWithHash_spec (getNodeSha256Bytes nodes)
      (by rw [h.numIDs]; decide)
    split
    · rename_i he
      rw [he] at halloc
      cases halloc with
      | exhausted _ hused hmax => exact h.of_idAlloc hused hmax
    · rename_i he
      rw [he] at halloc
      cases halloc with
      | found hfree hused hmax =>
        exact (h.of_vips hun (hset _)).of_new hn hfree hused hmax rfl (Map.get_set_self ..)

end VipSound

/-- Cleaning does not look at the index. -/
theorem cleanRecord_vips (k : KeepAlived) (vips : Map String String) (vip n : String) :
    { k with vips := vips }.cleanRecord vip n = { k.cleanRecord vip n with vips := vips } := by
  rw [cleanRecord, cleanRecord]
  dsimp only
  split
  · rfl
  · split <;> rfl

theorem cleanRecord_vips_eq (k : KeepAlived) (vip n : String) :
    (k.cleanRecord vip n).vips = k.vips := by
  rw [cleanRecord]
  split
  · rfl
  · dsimp only
    split <;> rfl

/-- What one call leaves: the tables as they are, or with a new record for an address, or
without the one it had, or with other configurations. -/
inductive VipEffect (nodeName : String) (T : Set (List Node)) (k : KeepAlived) : KeepAlived → Prop
  | same : VipEffect nodeName T k k
  | recorded {iface vip : String} {nodes : List Node} : nodes ∈ T →
      VipEffect nodeName T k ((k.cleanOld vip).addRecord nodeName iface vip nodes).2
  | unindexed {vip n : String} : k.vips.get vip = some n → k.instances.get n = none →
      VipEffect nodeName T k { k with vips := k.vips.delete vip }
  | cleaned {vip n : String} : k.vips.get vip = some n →
      VipEffect nodeName T k { k.cleanRecord vip n with vips := k.vips.delete vip }
  | configured (configs : Map String Config) : VipEffect nodeName T k { k with configs := configs }

theorem vipEffect_of_step {nodeName : String} {T : Set (List Node)} {k k' : KeepAlived}
    {r : Except String Unit} (hs : VipStep nodeName T k r k') : VipEffect nodeName T k k' := by
  cases hs with
  | setBalancer order io vip nodes _ hT =>
    have hrec : VipEffect nodeName T k ((k.cleanOld vip).addRecord nodeName
        (k.getInterfaces order vip) vip nodes).2 := .recorded hT
    rw [KeepAlived.setBalancer]
    split
    · exact .same
    · split
      · rename_i he
        rw [he] at hrec
        exact hrec
      · rename_i he
        rw [he] at hrec
        exact hrec
  | delBalancer io vip =>
    rw [KeepAlived.delBalancer]
    split
    · exact .same
    · rename_i n hn
      dsimp only
      split
      · rename_i hnone
        exact .unindexed hn (Option.isNone_iff_eq_none.mp hnone)
      · rw [cleanRecord_vips]
        exact .cleaned hn
  | configureWithEIP host config deleted =>
    rw [KeepAlived.configureWithEIP]
    split
    · exact .same
    · split
      · exact .same
      · exact .configured _

/-- **One call keeps the tables in step.** -/
theorem VipSound.step {nodeName : String} {T : Set (List Node)} {k k' : KeepAlived}
    {r : Except String Unit} (h : k.VipSound) (hs : VipStep nodeName T k r k') : k'.VipSound := by
  have hdel : ∀ vip w, w ≠ vip → (k.vips.delete vip).get w = k.vips.get w := by
    intro vip w hw
    rw [Map.get_delete, if_neg hw]
  cases vipEffect_of_step hs with
  | same => exact h
  | @recorded iface vip nodes _ =>
    have hclean : (k.cleanOld vip).VipSound ∧ (k.cleanOld vip).Unlisted vip := h.cleanOld
    exact hclean.1.addRecord hclean.2 nodeName iface nodes
  | unindexed hn hnone =>
    -- an index entry without an instance: the address is in no instance
    obtain ⟨-, hun⟩ := h.cleanRecord hn
    rw [KeepAlived.cleanRecord, hnone] at hun
    exact h.of_vips hun (hdel _)
  | cleaned hn =>
    obtain ⟨hsound, hun⟩ := h.cleanRecord hn
    exact hsound.of_vips hun fun w hw => (hdel _ w hw).trans (by rw [cleanRecord_vips_eq])
  | configured configs =>
    exact ⟨h.numIDs, h.used, h.distinct, h.range, h.nonempty, h.nodup, h.listed⟩

theorem VipSound.of_new_speaker {k : KeepAlived} (h : newKeepAlived = some k) : k.VipSound := by
  obtain ⟨a, ha, rfl⟩ := Option.map_eq_some_iff.mp h
  obtain ⟨hused, hnum⟩ := IDAllocator.new_spec ha
  refine ⟨hnum, fun id => ?_, ?_, ?_, ?_, ?_, ?_⟩
  · show id ∈ a.used ↔ _
    rw [hused, Set.mem_singleton_iff]
    simp
  all_goals
    intro n
    simp

theorem VipSound.of_reach {nodeName : String} {T : Set (List Node)} {k : KeepAlived}
    (h : VipReach nodeName T k) : k.VipSound := by
  induction h with
  | new hk => exact .of_new_speaker hk
  | step _ hs ih => exact ih.step hs

end KeepAlived

/-- **VRRP ids never leak and never clash.**  After every run of calls, failed ones
included, the ids marked used are 0 and the router ids of the instances; these differ,
and lie between 1 and 255; and every instance has an address, and none twice. -/
theorem router_ids_exact {nodeName : String} {k : KeepAlived} (h : VipReach nodeName Set.univ k) :
    k.idAlloc.used =
        insert 0 {id | ∃ n inst, k.instances.get n = some inst ∧ inst.routeID = id} ∧
      (∀ n n' inst inst', k.instances.get n = some inst → k.instances.get n' = some inst' →
        n ≠ n' → inst.routeID ≠ inst'.routeID) ∧
      ∀ n inst, k.instances.get n = some inst →
        1 ≤ inst.routeID ∧ inst.routeID ≤ 255 ∧ inst.svcips ≠ [] ∧ inst.svcips.Nodup := by
  have hs := KeepAlived.VipSound.of_reach h
  refine ⟨Set.ext hs.used, ?_, ?_⟩
  · intro n n' inst inst' hn hn' hne he
    exact hne (hs.distinct n n' inst inst' hn hn' he)
  · intro n inst hn
    have hr := hs.range n inst hn
    exact ⟨by omega, by omega, hs.nonempty n inst hn, hs.nodup n inst hn⟩

/-- A host with one interface, in the network of the addresses below. -/
def vipHost : Host where
  interfaceByName name := .ok { name := name, addrs := .ok ["192.0.2.254/24"] }
  routeGet _ := .error "network is unreachable"
  interfaceByIndex _ := .error "no such network interface"

/-- The configuration of a pool on the interface. -/
def vipConfig : Config where
  name := "pool"
  ipRange := ⟨.v4Family, v4InV6Prefix ++ [192, 0, 2, 1], v4InV6Prefix ++ [192, 0, 2, 9]⟩
  iface := "eth0"

/-- A speaker that has been configured. -/
def configuredVip : Option KeepAlived :=
  newKeepAlived.map fun k => (k.configureWithEIP vipHost vipConfig false).2

theorem VipReach.of_configured {nodeName : String} {T : Set (List Node)} {k : KeepAlived}
    (h : configuredVip = some k) : VipReach nodeName T k := by
  obtain ⟨k₀, hk₀, rfl⟩ := Option.map_eq_some_iff.mp h
  exact .step (.new hk₀) (.configureWithEIP vipHost vipConfig false)

theorem router_ids_exact_oneAddress :
    ∃ k n inst, VipReach "node1" Set.univ k ∧ k.instances.get n = some inst ∧
      inst.svcips = ["192.0.2.1"] ∧ k.idAlloc.used =
        insert 0 {id | ∃ n inst, k.instances.get n = some inst ∧ inst.routeID = id} ∧
      1 ≤ inst.routeID ∧ inst.routeID ≤ 255 := by
  have hrun : (configuredVip.map fun k =>
      (decide (k.configs.Ranges ["pool"]),
        ((k.setBalancer "node1" ["pool"] (.ok ()) "192.0.2.1" [{ name := "node1" }]).2.instances.get
          (instanceName [{ name := "node1" }] "eth0")).map Instance.svcips)) =
      some (true, some ["192.0.2.1"]) := by
    decide +kernel
  obtain ⟨k, hk, he⟩ := Option.map_eq_some_iff.mp hrun
  obtain ⟨horder, hget⟩ := Prod.mk.inj he
  obtain ⟨inst, hinst, hips⟩ := Option.map_eq_some_iff.mp hget
  have hconf : VipReach "node1" Set.univ k := .of_configured hk
  have hreach := hconf.step (.setBalancer ["pool"] (.ok ()) "192.0.2.1" [{ name := "node1" }]
    (of_decide_eq_true horder) trivial)
  obtain ⟨hused, -, hinsts⟩ := router_ids_exact hreach
  have hid := hinsts _ inst hinst
  exact ⟨_, _, inst, hreach, hinst, hips, hused, hid.1, hid.2.1⟩

end OpenELB
