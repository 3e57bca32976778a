import OpenELB.VipInvariant

/-! # Assignments of virtual addresses are last-write-wins

Giving an address to the nodes `A` and then to `B` leaves what giving it to `B` alone
does, if all configurations with the address are for one interface, and giving it to `A` and
then taking it away leaves what taking it away does (`last_write_wins`).  If two configurations
with the address name two interfaces, `getInterfaces` returns the one that the loop over the
map comes to first, and that may be another one each time (`last_write_depends_on_order`).

Both follow from one fact: cleaning the record of an address undoes the record that was
just made (`undo`).  An instance that was made for the address goes and frees its id; one
that was there loses the last of its addresses again.  Only the flag `Enabled` is written
anew, from the nodes of the call, and the instance has it from other nodes.  They have
the same hash, so the same names if no two lists collide (`NoCollision`) and names are
names (`NodesNamed`), and the flag is the same (`EnabledBy`). -/
namespace OpenELB
open Go

/-- Two of the lists of nodes have one hash only if their joined names are the same. -/
def NoCollision (T : Set (List Node)) : Prop :=
  ∀ l ∈ T, ∀ l' ∈ T, getNodeSha256Bytes l = getNodeSha256Bytes l' →
    join ',' (nodeNames l) = join ',' (nodeNames l')

/-- The nodes have names as the cluster gives them: not empty, and without a comma. -/
def NodesNamed (T : Set (List Node)) : Prop :=
  ∀ l ∈ T, ∀ node ∈ l, node.name ≠ "" ∧ ',' ∉ node.name.toList

theorem join_inj {sep : Char} {l l' : List String} (hl : ∀ x ∈ l, x ≠ "" ∧ sep ∉ x.toList)
    (hl' : ∀ x ∈ l', x ≠ "" ∧ sep ∉ x.toList) (h : join sep l = join sep l') : l = l' := by
  -- the empty list splits like a list with one empty name, which is no name
  have hsplit : ∀ {l : List String}, (∀ x ∈ l, x ≠ "" ∧ sep ∉ x.toList) →
      split sep (join sep l) = if l = [] then [""] else l := by
    intro l hl
    split
    · subst l
      exact split_join_nil
    · exact split_join ‹_› fun x hx => (hl x hx).2
  have heq : (if l = [] then [""] else l) = if l' = [] then [""] else l' := by
    rw [← hsplit hl, ← hsplit hl', h]
  by_cases h0 : l = []
  · by_cases h1 : l' = []
    · rw [h0, h1]
    · rw [if_pos h0, if_neg h1] at heq
      obtain ⟨hne, -⟩ := hl' "" (heq ▸ List.mem_singleton_self _)
      exact absurd rfl hne
  · by_cases h1 : l' = []
    · rw [if_neg h0, if_pos h1] at heq
      exact absurd rfl (hl "" (heq ▸ List.mem_singleton_self _)).1
    · rwa [if_neg h0, if_neg h1] at heq

theorem nodeNames_of_hash {T : Set (List Node)} (hcol : NoCollision T) (hnamed : NodesNamed T)
    {l l' : List Node} (hl : l ∈ T) (hl' : l' ∈ T)
    (h : getNodeSha256Bytes l = getNodeSha256Bytes l') : nodeNames l = nodeNames l' := by
  have hnames : ∀ {l : List Node}, l ∈ T → ∀ x ∈ nodeNames l, x ≠ "" ∧ ',' ∉ x.toList := by
    intro l hl x hx
    rw [nodeNames, List.mem_insertionSort, List.mem_map] at hx
    obtain ⟨node, hnode, rfl⟩ := hx
    exact hnamed l hl node hnode
  exact join_inj (hnames hl) (hnames hl') (hcol l hl l' hl' h)

theorem mem_nodeNames {nodeName : String} {nodes : List Node} :
    nodeName ∈ nodeNames nodes ↔ isNodeInList nodeName nodes = true := by
  rw [nodeNames, List.mem_insertionSort, isNodeInList]
  simp

theorem isNodeInList_congr {nodeName : String} {l l' : List Node} (h : nodeNames l = nodeNames l') :
    isNodeInList nodeName l = isNodeInList nodeName l' := by
  rw [Bool.eq_iff_iff, ← mem_nodeNames, ← mem_nodeNames, h]

/-- The name of an instance gives the hash of its nodes. -/
theorem hash_of_instanceName {l l' : List Node} {iface iface' : String}
    (h : instanceName l iface = instanceName l' iface') :
    getNodeSha256Bytes l = getNodeSha256Bytes l' := by
  rw [instanceName, instanceName, String.append_assoc, String.append_assoc] at h
  refine (hexEncode_append_inj ?_ h).1
  rw [getNodeSha256Bytes, getNodeSha256Bytes, length_sum256, length_sum256]

namespace KeepAlived
variable {nodeName vip : String} {T : Set (List Node)} {k k' : KeepAlived}

/-- Every instance is named after nodes in `T`, and is enabled if this node is one of
them. -/
def EnabledBy (nodeName : String) (T : Set (List Node)) (k : KeepAlived) : Prop :=
  ∀ n inst, k.instances.get n = some inst →
    ∃ nodes ∈ T, ∃ iface, n = instanceName nodes iface ∧ inst.enabled = isNodeInList nodeName nodes

theorem EnabledBy.cleanRecord (h : k.EnabledBy nodeName T) (n : String) :
    (k.cleanRecord vip n).EnabledBy nodeName T := by
  rw [KeepAlived.cleanRecord]
  split
  · exact h
  · rename_i inst hn
    dsimp only
    split
    · exact Map.forall_get_delete fun m i _ => h m i
    · exact Map.forall_get_set (h n inst hn) fun m i _ => h m i

theorem EnabledBy.cleanOld (h : k.EnabledBy nodeName T) : (k.cleanOld vip).EnabledBy nodeName T := by
  rw [KeepAlived.cleanOld]
  split
  · exact h.cleanRecord _
  · exact h

theorem EnabledBy.addRecord (h : k.EnabledBy nodeName T) {iface : String} {nodes : List Node}
    (hT : nodes ∈ T) : (k.addRecord nodeName iface vip nodes).2.EnabledBy nodeName T := by
  have hset : ∀ inst : Instance, inst.enabled = isNodeInList nodeName nodes → ∀ m i,
      (k.instances.set (instanceName nodes iface) inst).get m = some i →
        ∃ nodes ∈ T, ∃ iface, m = instanceName nodes iface ∧ i.enabled = isNodeInList nodeName nodes := by
    intro inst he
    exact Map.forall_get_set ⟨nodes, hT, iface, rfl, he⟩ fun m i _ => h m i
  rw [KeepAlived.addRecord]
  split
  · exact hset _ rfl
  · split
    · exact h
    · exact hset _ rfl

theorem EnabledBy.step {r : Except String Unit} (h : k.EnabledBy nodeName T)
    (hs : VipStep nodeName T k r k') : k'.EnabledBy nodeName T := by
  cases vipEffect_of_step hs with
  | same => exact h
  | recorded hT => exact h.cleanOld.addRecord hT
  | unindexed => exact h
  | cleaned => exact h.cleanRecord _
  | configured => exact h

theorem EnabledBy.of_reach (h : VipReach nodeName T k) : k.EnabledBy nodeName T := by
  induction h with
  | new hk =>
    obtain ⟨a, -, rfl⟩ := Option.map_eq_some_iff.mp hk
    intro n inst hn
    cases hn
  | step _ hs ih => exact ih.step hs

/-! ## Cleaning undoes a record -/

/-- The same instances and ids in use, and the same index but at one address. -/
structure SameBut (vip : String) (k k' : KeepAlived) : Prop where
  instances : ∀ n, k.instances.get n = k'.instances.get n
  used : k.idAlloc.used = k'.idAlloc.used
  maxBlocks : k.idAlloc.maxBlocks = k'.idAlloc.maxBlocks
  vips : ∀ w, w ≠ vip → k.vips.get w = k'.vips.get w

/-- The same index, the same instances and the same ids in use. -/
structure Same (k k' : KeepAlived) : Prop where
  vips : ∀ w, k.vips.get w = k'.vips.get w
  instances : ∀ n, k.instances.get n = k'.instances.get n
  used : k.idAlloc.used = k'.idAlloc.used

theorem removeVip_append {svcips : List String} (h : vip ∉ svcips) :
    removeVip (svcips ++ [vip]) vip = svcips := by
  rw [removeVip_eq, List.erase_append_right _ h]
  simp

/-- The record that was made is cleaned: the index entry names the instance. -/
theorem cleanOld_enlist (k : KeepAlived) (n : String) (nodes : List Node) {inst : Instance}
    (hvip : vip ∉ inst.svcips) :
    (k.enlist nodeName n vip nodes inst).cleanOld vip =
      if inst.svcips = [] then
        { k.enlist nodeName n vip nodes inst with
          instances := (k.enlist nodeName n vip nodes inst).instances.delete n
          idAlloc := k.idAlloc.free inst.routeID }
      else
        { k.enlist nodeName n vip nodes inst with
          instances := (k.enlist nodeName n vip nodes inst).instances.set n
            { inst with enabled := isNodeInList nodeName nodes } } := by
  have hv : (k.enlist nodeName n vip nodes inst).vips.get vip = some n := Map.get_set_self ..
  have hn : (k.enlist nodeName n vip nodes inst).instances.get n =
      some { inst with enabled := isNodeInList nodeName nodes, svcips := inst.svcips ++ [vip] } :=
    Map.get_set_self ..
  rw [KeepAlived.cleanOld, hv]
  dsimp only
  rw [KeepAlived.cleanRecord, hn]
  dsimp only
  rw [removeVip_append hvip]
  rfl

/-- **Cleaning undoes the record that was just made.** -/
theorem undo (hs : k.VipSound) (hun : k.Unlisted vip) (hen : k.EnabledBy nodeName T)
    (hcol : NoCollision T) (hnamed : NodesNamed T) {nodes : List Node} (hT : nodes ∈ T)
    {iface : String}
    (hok : (k.addRecord nodeName iface vip nodes).1 = .ok ()) :
    SameBut vip ((k.addRecord nodeName iface vip nodes).2.cleanOld vip) k := by
  have hvips : ∀ w, w ≠ vip →
      (k.vips.set vip (instanceName nodes iface)).get w = k.vips.get w :=
    fun w hw => Map.get_set_ne _ _ hw
  rw [KeepAlived.addRecord] at hok ⊢
  split
  · rename_i inst hn
    have hnonempty := hs.nonempty _ inst hn
    -- the flag has been written for nodes with the same hash
    have hflag : isNodeInList nodeName nodes = inst.enabled := by
      obtain ⟨nodes', hT', iface', hname, he⟩ := hen _ inst hn
      have hhash := hash_of_instanceName hname
      rw [he, isNodeInList_congr (nodeNames_of_hash hcol hnamed hT hT' hhash)]
    rw [cleanOld_enlist _ _ _ (hun _ inst hn), if_neg hnonempty]
    refine ⟨fun m => ?_, rfl, rfl, hvips⟩
    show ((k.instances.set _ _).set _ _).get m = _
    rw [Map.get_set, hflag]
    split
    · rename_i he
      rw [he, hn]
    · rename_i hm
      exact Map.get_set_ne _ _ hm
  · rename_i hn
    rw [hn] at hok
    have halloc := k.idAlloc.allocateWithHash_spec (getNodeSha256Bytes nodes)
      (by rw [hs.numIDs]; decide)
    split
    · rename_i he
      dsimp only at hok
      rw [he] at hok
      cases hok
    · rename_i id a he
      rw [he] at halloc
      cases halloc with
      | found hfree hused hmax =>
        have hblock : id / 64 < a.bits.length := a.used_lt (by rw [hused]; exact Set.mem_insert _ _)
        rw [cleanOld_enlist _ _ _ (by simp), if_pos rfl]
        refine ⟨fun m => ?_, ?_, hmax, hvips⟩
        · show ((k.instances.set _ _).delete _).get m = _
          rw [Map.get_delete]
          split
          · rename_i hm
            rw [hm, hn]
          · rename_i hm
            exact Map.get_set_ne _ _ hm
        · show (a.free id).used = _
          rw [IDAllocator.used_free _ hblock, hused]
          exact Set.insert_sdiff_self_of_notMem hfree.notMem

/-- Adding an address looks at nothing else. -/
theorem SameBut.addRecord (h : SameBut vip k k') (hs : k.VipSound) (hs' : k'.VipSound)
    {nodes : List Node} {iface : String}
    (hok : (k.addRecord nodeName iface vip nodes).1 = .ok ())
    (hok' : (k'.addRecord nodeName iface vip nodes).1 = .ok ()) :
    Same (k.addRecord nodeName iface vip nodes).2 (k'.addRecord nodeName iface vip nodes).2 := by
  have henlist : ∀ (a a' : IDAllocator) (inst : Instance), a.used = a'.used →
      Same ({ k with idAlloc := a }.enlist nodeName (instanceName nodes iface) vip nodes inst)
        ({ k' with idAlloc := a' }.enlist nodeName (instanceName nodes iface) vip nodes inst) := by
    intro a a' inst hused
    refine ⟨fun w => ?_, fun m => ?_, hused⟩
    · show (k.vips.set _ _).get w = (k'.vips.set _ _).get w
      rw [Map.get_set, Map.get_set]
      split
      · rfl
      · exact h.vips w ‹_›
    · show (k.instances.set _ _).get m = (k'.instances.set _ _).get m
      rw [Map.get_set, Map.get_set, h.instances]
  rw [KeepAlived.addRecord] at hok hok' ⊢
  rw [KeepAlived.addRecord, ← h.instances]
  rw [← h.instances] at hok'
  split
  · exact henlist k.idAlloc k'.idAlloc _ h.used
  · rename_i hn
    rw [hn] at hok hok'
    have halloc := k.idAlloc.allocateWithHash_spec (getNodeSha256Bytes nodes)
      (by rw [hs.numIDs]; decide)
    have halloc' := k'.idAlloc.allocateWithHash_spec (getNodeSha256Bytes nodes)
      (by rw [hs'.numIDs]; decide)
    have hstart : k.idAlloc.initialID (getNodeSha256Bytes nodes) =
        k'.idAlloc.initialID (getNodeSha256Bytes nodes) := by
      rw [IDAllocator.initialID, IDAllocator.initialID, hs.numIDs, hs'.numIDs]
    dsimp only at hok hok'
    generalize k.idAlloc.allocateWithHash _ = p at *
    generalize k'.idAlloc.allocateWithHash _ = p' at *
    cases halloc with
    | exhausted _ _ _ => cases hok
    | found hfree hused _ =>
      cases halloc' with
      | exhausted _ _ _ => cases hok'
      | found hfree' hused' _ =>
        rw [h.used, hs.numIDs, hstart] at hfree
        rw [hs'.numIDs] at hfree'
        obtain rfl := hfree.unique hfree'
        exact henlist _ _ _ (by rw [hused, hused', h.used])

/-! ## The calls -/

/-- What a call of `SetBalancer` that succeeds has done. -/
theorem setBalancer_ok {order : List String} {io : Except String Unit} {nodes : List Node}
    (hok : (k.setBalancer nodeName order io vip nodes).1 = .ok ()) :
    k.getInterfaces order vip ≠ "" ∧
    ((k.cleanOld vip).addRecord nodeName (k.getInterfaces order vip) vip nodes).1 = .ok () ∧
      (k.setBalancer nodeName order io vip nodes).2 =
        ((k.cleanOld vip).addRecord nodeName (k.getInterfaces order vip) vip nodes).2 := by
  rw [KeepAlived.setBalancer] at hok ⊢
  split at hok
  · cases hok
  · rename_i hiface
    rw [if_neg hiface]
    generalize (k.cleanOld vip).addRecord nodeName (k.getInterfaces order vip) vip nodes = p at *
    obtain ⟨⟨⟩ | ⟨⟩, k'⟩ := p
    · cases hok
    · exact ⟨hiface, rfl, rfl⟩

/-- All configurations that contain the address name one interface. -/
def OneInterface (k : KeepAlived) (vip : String) : Prop :=
  ∀ n c n' c', k.configs.get n = some c → k.configs.get n' = some c' →
    c.ipRange.contains ((parseIP vip).getD []) → c'.ipRange.contains ((parseIP vip).getD []) →
    c.iface = c'.iface

/-- The interface that is found is that of a configuration with the address. -/
theorem exists_of_getInterfaces {order : List String} (h : k.getInterfaces order vip ≠ "") :
    ∃ n c, k.configs.get n = some c ∧ c.ipRange.contains ((parseIP vip).getD []) ∧
      k.getInterfaces order vip = c.iface := by
  rw [KeepAlived.getInterfaces] at h ⊢
  split at h
  · rename_i c hc
    obtain ⟨n, -, hn⟩ := List.mem_filterMap.mp (List.mem_of_find?_eq_some hc)
    exact ⟨n, c, hn, by simpa using List.find?_some hc, rfl⟩
  · exact absurd rfl h

theorem OneInterface.getInterfaces_eq (h : k.OneInterface vip) {order order' : List String}
    (hne : k.getInterfaces order vip ≠ "") (hne' : k.getInterfaces order' vip ≠ "") :
    k.getInterfaces order vip = k.getInterfaces order' vip := by
  obtain ⟨n, c, hn, hc, heq⟩ := exists_of_getInterfaces hne
  obtain ⟨n', c', hn', hc', heq'⟩ := exists_of_getInterfaces hne'
  rw [heq, heq', h n c n' c' hn hn' hc hc']

theorem addRecord_configs (k : KeepAlived) (nodeName iface vip : String) (nodes : List Node) :
    (k.addRecord nodeName iface vip nodes).2.configs = k.configs := by
  rw [KeepAlived.addRecord]
  split
  · rfl
  · split <;> rfl

theorem cleanOld_configs (k : KeepAlived) (vip : String) :
    (k.cleanOld vip).configs = k.configs := by
  rw [KeepAlived.cleanOld]
  split
  · rw [KeepAlived.cleanRecord]
    split
    · rfl
    · dsimp only
      split <;> rfl
  · rfl

theorem cleanOld_vips (k : KeepAlived) (vip : String) : (k.cleanOld vip).vips = k.vips := by
  rw [KeepAlived.cleanOld]
  split
  · exact cleanRecord_vips_eq ..
  · rfl

/-- What `DelBalancer` leaves: the old record is cleaned and the index entry is gone. -/
theorem delBalancer_same (k : KeepAlived) (io : Except String Unit) (vip : String) :
    Same (k.delBalancer io vip).2 { k.cleanOld vip with vips := k.vips.delete vip } := by
  cases hv : k.vips.get vip with
  | none =>
    have hclean : k.cleanOld vip = k := by rw [KeepAlived.cleanOld, hv]
    rw [KeepAlived.delBalancer, hv, hclean]
    refine ⟨fun w => ?_, fun _ => rfl, rfl⟩
    show k.vips.get w = (k.vips.delete vip).get w
    rw [Map.get_delete]
    split
    · rename_i hw
      rw [hw, hv]
    · rfl
  | some n =>
    have hclean : k.cleanOld vip = k.cleanRecord vip n := by rw [KeepAlived.cleanOld, hv]
    rw [KeepAlived.delBalancer, hv, hclean]
    dsimp only
    split
    · rename_i hnone
      have hsame : k.cleanRecord vip n = k := by
        rw [KeepAlived.cleanRecord, Option.isNone_iff_eq_none.mp hnone]
      rw [hsame]
      exact ⟨fun _ => rfl, fun _ => rfl, rfl⟩
    · rw [cleanRecord_vips]
      exact ⟨fun _ => rfl, fun _ => rfl, rfl⟩

theorem Same.symm (h : Same k k') : Same k' k :=
  ⟨fun w => (h.vips w).symm, fun n => (h.instances n).symm, h.used.symm⟩

theorem Same.trans {k'' : KeepAlived} (h : Same k k') (h' : Same k' k'') : Same k k'' :=
  ⟨fun w => (h.vips w).trans (h'.vips w), fun n => (h.instances n).trans (h'.instances n),
    h.used.trans h'.used⟩

end KeepAlived

open KeepAlived

/-- **Assignments of virtual addresses are last-write-wins.**  In every state that calls
reach, if giving the address to the nodes `A` succeeds, then giving it to `B` afterwards
leaves what giving it to `B` alone leaves, if the address has one interface; and taking it
away leaves what taking it away alone leaves: the same index, the same instances and the same
ids in use. -/
theorem last_write_wins {nodeName vip : String} {T : Set (List Node)} {k : KeepAlived}
    (h : VipReach nodeName T k) (hcol : NoCollision T) (hnamed : NodesNamed T) {A : List Node}
    (hA : A ∈ T) {orderA : List String} {ioA : Except String Unit}
    (hokA : (k.setBalancer nodeName orderA ioA vip A).1 = .ok ()) :
    (k.OneInterface vip →
      ∀ (B : List Node) (order order' : List String) (io io' : Except String Unit),
      ((k.setBalancer nodeName orderA ioA vip A).2.setBalancer nodeName order io vip B).1 = .ok () →
      (k.setBalancer nodeName order' io' vip B).1 = .ok () →
      Same ((k.setBalancer nodeName orderA ioA vip A).2.setBalancer nodeName order io vip B).2
        (k.setBalancer nodeName order' io' vip B).2) ∧
    ∀ io io', Same ((k.setBalancer nodeName orderA ioA vip A).2.delBalancer io vip).2
      (k.delBalancer io' vip).2 := by
  obtain ⟨-, hadd, hkA⟩ := setBalancer_ok hokA
  have hs := VipSound.of_reach h
  obtain ⟨hsclean, hun⟩ : (k.cleanOld vip).VipSound ∧ (k.cleanOld vip).Unlisted vip := hs.cleanOld
  have hsA : (k.setBalancer nodeName orderA ioA vip A).2.VipSound := by
    rw [hkA]
    exact hsclean.addRecord hun _ _ _
  have hundo : SameBut vip ((k.setBalancer nodeName orderA ioA vip A).2.cleanOld vip)
      (k.cleanOld vip) := by
    rw [hkA]
    exact undo hsclean hun (EnabledBy.of_reach h).cleanOld hcol hnamed hA hadd
  have hconfigs : (k.setBalancer nodeName orderA ioA vip A).2.configs = k.configs := by
    rw [hkA, addRecord_configs, cleanOld_configs]
  generalize (k.setBalancer nodeName orderA ioA vip A).2 = kA at *
  refine ⟨fun hone B order order' io io' hok hok' => ?_, fun io io' => ?_⟩
  · obtain ⟨hne, haddB, hkB⟩ := setBalancer_ok hok
    obtain ⟨hne', haddB', hkB'⟩ := setBalancer_ok hok'
    have hfaceA : kA.getInterfaces order vip = k.getInterfaces order vip := by
      rw [KeepAlived.getInterfaces, KeepAlived.getInterfaces, hconfigs]
    have hface : kA.getInterfaces order vip = k.getInterfaces order' vip :=
      hfaceA.trans (hone.getInterfaces_eq (hfaceA ▸ hne) hne')
    rw [hface] at haddB hkB
    rw [hkB, hkB']
    exact hundo.addRecord hsA.cleanOld.1 hsclean haddB haddB'
  · refine (delBalancer_same kA io vip).trans (Same.trans ?_ (delBalancer_same k io' vip).symm)
    refine ⟨fun w => ?_, hundo.instances, hundo.used⟩
    show (kA.vips.delete vip).get w = (k.vips.delete vip).get w
    rw [Map.get_delete, Map.get_delete]
    split
    · rfl
    · rename_i hw
      have hother := hundo.vips w hw
      rwa [cleanOld_vips, cleanOld_vips] at hother

/-! ## Two pools with one address -/

/-- Two lists of nodes. -/
def nodeLists : List (List Node) := [[{ name := "node1" }], [{ name := "node2" }, { name := "node1" }]]

theorem noCollision_nodeLists : NoCollision {l | l ∈ nodeLists} := by
  show ∀ l ∈ nodeLists, ∀ l' ∈ nodeLists, _
  decide +kernel

theorem nodesNamed_nodeLists : NodesNamed {l | l ∈ nodeLists} := by
  show ∀ l ∈ nodeLists, _
  decide +kernel

/-- The pool, and a second one with the same addresses on the given interface. -/
def twoConfigs (iface : String) : Option KeepAlived :=
  configuredVip.map fun k =>
    (k.configureWithEIP vipHost { vipConfig with name := "other", iface := iface } false).2

theorem VipReach.of_twoConfigs {nodeName iface : String} {T : Set (List Node)} {k : KeepAlived}
    (h : twoConfigs iface = some k) : VipReach nodeName T k := by
  obtain ⟨k₀, hk₀, rfl⟩ := Option.map_eq_some_iff.mp h
  exact .step (.of_configured hk₀) (.configureWithEIP vipHost _ false)

/-- The address is given to one node. -/
def KeepAlived.setFirst (k : KeepAlived) : Except String Unit × KeepAlived :=
  k.setBalancer "node1" ["pool", "other"] (.ok ()) "192.0.2.1" [{ name := "node1" }]

/-- It is given to two nodes, with the pools in either order. -/
def KeepAlived.setBoth (k : KeepAlived) (order : List String) : Except String Unit × KeepAlived :=
  k.setBalancer "node1" order (.ok ()) "192.0.2.1" [{ name := "node2" }, { name := "node1" }]

/-- The loop may visit the pools in either order, and all calls succeed. -/
def KeepAlived.EitherOrder (k : KeepAlived) : Prop :=
  k.configs.Ranges ["pool", "other"] ∧ k.configs.Ranges ["other", "pool"] ∧
    k.setFirst.1 = .ok () ∧ (k.setFirst.2.setBoth ["pool", "other"]).1 = .ok () ∧
    (k.setBoth ["other", "pool"]).1 = .ok ()

instance (k : KeepAlived) : Decidable k.EitherOrder := inferInstanceAs (Decidable (_ ∧ _))

/-- Both pools are on one interface. -/
theorem last_write_wins_twoPools : ∃ k : KeepAlived, VipReach "node1" {l | l ∈ nodeLists} k ∧
    k.EitherOrder ∧
    Same (k.setFirst.2.setBoth ["pool", "other"]).2 (k.setBoth ["other", "pool"]).2 ∧
    Same (k.setFirst.2.delBalancer (.ok ()) "192.0.2.1").2
      (k.delBalancer (.ok ()) "192.0.2.1").2 := by
  have hrun : ((twoConfigs "eth0").map fun k => (decide k.EitherOrder,
      decide (∀ n ∈ ["pool", "other"], (k.configs.get n).map Config.iface = some "eth0"))) =
      some (true, true) := by
    decide +kernel
  obtain ⟨k, hk, he⟩ := Option.map_eq_some_iff.mp hrun
  simp only [Prod.mk.injEq, decide_eq_true_eq] at he
  obtain ⟨heither, hiface⟩ := he
  have hone : k.OneInterface "192.0.2.1" := by
    have hface : ∀ n c, k.configs.get n = some c → c.iface = "eth0" := by
      intro n c hn
      have heq := hiface n ((heither.1.2 n).mpr (by rw [hn]; rfl))
      rw [hn] at heq
      exact Option.some.inj heq
    intro n c n' c' hn hn' _ _
    rw [hface n c hn, hface n' c' hn']
  have hreach : VipReach "node1" {l | l ∈ nodeLists} k := .of_twoConfigs hk
  obtain ⟨hset, hdel⟩ := last_write_wins hreach noCollision_nodeLists nodesNamed_nodeLists
    (show [{ name := "node1" }] ∈ nodeLists from .head _) heither.2.2.1
  exact ⟨k, hreach, heither, hset hone _ _ _ _ _ heither.2.2.2.1 heither.2.2.2.2, hdel _ _⟩

/-- **The interface is the first one that the loop over the configurations finds.**  The pools
are on two interfaces, and the loop visits them in one order in one call and in the other in
another: the address is then given to instances on two interfaces. -/
theorem last_write_depends_on_order : NoCollision {l | l ∈ nodeLists} ∧
    ∃ k : KeepAlived, VipReach "node1" {l | l ∈ nodeLists} k ∧ k.EitherOrder ∧
      ¬ Same (k.setFirst.2.setBoth ["pool", "other"]).2 (k.setBoth ["other", "pool"]).2 := by
  have hrun : ((twoConfigs "eth1").map fun k => (decide k.EitherOrder,
      decide ((k.setFirst.2.setBoth ["pool", "other"]).2.vips.get "192.0.2.1" ≠
        (k.setBoth ["other", "pool"]).2.vips.get "192.0.2.1"))) = some (true, true) := by
    decide +kernel
  obtain ⟨k, hk, he⟩ := Option.map_eq_some_iff.mp hrun
  simp only [Prod.mk.injEq, decide_eq_true_eq] at he
  obtain ⟨heither, hne⟩ := he
  exact ⟨noCollision_nodeLists, k, .of_twoConfigs hk, heither, fun h => hne (h.vips _)⟩

end OpenELB
