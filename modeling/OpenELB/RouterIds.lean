import OpenELB.VipAssignments

/-! # Router ids on two nodes

Two nodes give the same addresses to the same lists of nodes, each in an order of its
own.  The ids of the instances agree on both exactly if no two instances have the same
first slot (`router_ids_agree_iff`): the first four bytes of the hash of the names modulo
256, and 1 in place of 0, which is never free.

The ids of a speaker are a table that is filled by linear probing, and `Probing` says
when such a table depends on the order.  What is left is that the calls fill the table
(`setAll_fills`) and that they succeed as long as there are at most 255 instances
(`setAll_isSome`). -/
namespace OpenELB
open Go Probing

/-- An address and the nodes it is given to. -/
structure Assignment where
  vip : String
  nodes : List Node

/-- Where the search for the id of an instance of these nodes starts. -/
def hashID (nodes : List Node) : Nat := beNat ((getNodeSha256Bytes nodes).take 4) % 256

/-- The id that is looked at first and is not 0. -/
def firstSlot (id : Nat) : Nat := if id = 0 then 1 else id

theorem firstFree_firstSlot {id : Nat} (h : id < 256) : FirstFree {0} 256 id (firstSlot id) := by
  rw [firstSlot]
  split
  · subst id
    refine ⟨1, by decide, rfl, by decide, fun j hj => ?_⟩
    obtain rfl : j = 0 := by omega
    rfl
  · exact .of_free h (by simpa)

namespace KeepAlived
variable {nodeName : String} {k k' : KeepAlived}

/-- The calls of `SetBalancer` for assignments, each with the order in which its loop
visits the configurations; all of them succeed. -/
def setAll (nodeName : String) : KeepAlived → List (Assignment × List String) → Option KeepAlived
  | k, [] => some k
  | k, (a, order) :: calls =>
    match k.setBalancer nodeName order (.ok ()) a.vip a.nodes with
    | (.ok (), k) => setAll nodeName k calls
    | (.error _, _) => none

/-- The router id of an instance. -/
def routeIDOf (k : KeepAlived) (name : String) : Option Nat :=
  (k.instances.get name).map Instance.routeID

/-- The instance of a call, and where the search for its id starts. -/
def keyOf (k : KeepAlived) (c : Assignment × List String) : String × Nat :=
  (instanceName c.1.nodes (k.getInterfaces c.2 c.1.vip), hashID c.1.nodes)

theorem used_eq_taken (hs : k.VipSound) : k.idAlloc.used = taken {0} k.routeIDOf := by
  ext id
  rw [hs.used id, taken, Set.mem_union, Set.mem_singleton_iff, Set.mem_ofPred_eq]
  simp only [routeIDOf, Option.map_eq_some_iff]

theorem routeIDOf_enlist (k : KeepAlived) (name vip : String) (nodes : List Node) (inst : Instance)
    (n : String) :
    (k.enlist nodeName name vip nodes inst).routeIDOf n =
      if n = name then some inst.routeID else k.routeIDOf n := by
  show ((k.instances.set _ _).get n).map Instance.routeID = _
  rw [Map.get_set]
  split <;> rfl

/-- What a call for a new address does. -/
def recordOf (nodeName : String) (k : KeepAlived) (c : Assignment × List String) :
    Except String Unit × KeepAlived :=
  k.addRecord nodeName (k.getInterfaces c.2 c.1.vip) c.1.vip c.1.nodes

/-- It inserts the instance into the table, or finds the table full. -/
theorem recordOf_insert (hs : k.VipSound) (c : Assignment × List String) :
    ((k.recordOf nodeName c).1 = .ok () ∧
      Insert {0} 256 (k.keyOf c).1 (k.keyOf c).2 k.routeIDOf (k.recordOf nodeName c).2.routeIDOf) ∨
    (k.recordOf nodeName c).1 ≠ .ok () ∧
      k.routeIDOf (k.keyOf c).1 = none ∧ ∀ id < 256, id ∈ taken {0} k.routeIDOf := by
  rw [recordOf, keyOf, KeepAlived.addRecord]
  generalize instanceName c.1.nodes (k.getInterfaces c.2 c.1.vip) = name
  cases hn : k.instances.get name with
  | some inst =>
    have hid : k.routeIDOf name = some inst.routeID := by rw [routeIDOf, hn, Option.map_some]
    refine .inl ⟨rfl, .present (by rw [hid]; rfl) fun n => ?_⟩
    rw [routeIDOf_enlist]
    split
    · rename_i he
      rw [he, hid]
    · rfl
  | none =>
    have hid : k.routeIDOf name = none := by rw [routeIDOf, hn, Option.map_none]
    have halloc := k.idAlloc.allocateWithHash_spec (getNodeSha256Bytes c.1.nodes)
      (by rw [hs.numIDs]; decide)
    have hstart : k.idAlloc.initialID (getNodeSha256Bytes c.1.nodes) = hashID c.1.nodes := by
      rw [IDAllocator.initialID, hs.numIDs, hashID]
    rw [hstart] at halloc
    generalize k.idAlloc.allocateWithHash _ = p at *
    cases halloc with
    | found hfree _ _ =>
      rw [used_eq_taken hs, hs.numIDs] at hfree
      refine .inl ⟨rfl, .placed _ hid hfree ?_ fun n hne => ?_⟩
      · rw [routeIDOf_enlist, if_pos rfl]
      · rw [routeIDOf_enlist, if_neg hne]
        rfl
    | exhausted hfull _ _ =>
      rw [used_eq_taken hs, hs.numIDs] at hfull
      exact .inr ⟨fun he => (by cases he), hid, hfull⟩

/-! ## The calls of a run -/

/-- A speaker before calls for addresses it does not know, each at most once. -/
structure Before (k : KeepAlived) (calls : List (Assignment × List String)) : Prop where
  sound : k.VipSound
  fresh : ∀ c ∈ calls, k.vips.get c.1.vip = none
  nodup : (calls.map fun c => c.1.vip).Nodup

section Calls
variable {c : Assignment × List String} {calls : List (Assignment × List String)}

/-- The first call for an address only adds its record. -/
theorem setBalancer_first (hv : k.vips.get c.1.vip = none)
    (hiface : k.getInterfaces c.2 c.1.vip ≠ "") :
    k.setBalancer nodeName c.2 (.ok ()) c.1.vip c.1.nodes = k.recordOf nodeName c := by
  have hclean : k.cleanOld c.1.vip = k := by rw [KeepAlived.cleanOld, hv]
  rw [KeepAlived.setBalancer, if_neg hiface, hclean, recordOf]
  generalize k.addRecord nodeName (k.getInterfaces c.2 c.1.vip) c.1.vip c.1.nodes = p
  obtain ⟨_ | _, k'⟩ := p <;> rfl

theorem setAll_cons (hk : k.Before (c :: calls)) :
    k.setAll nodeName (c :: calls) = some k' ↔
      k.getInterfaces c.2 c.1.vip ≠ "" ∧ (k.recordOf nodeName c).1 = .ok () ∧
        (k.recordOf nodeName c).2.setAll nodeName calls = some k' := by
  rw [setAll]
  by_cases hiface : k.getInterfaces c.2 c.1.vip = ""
  · rw [KeepAlived.setBalancer, if_pos hiface]
    simp [hiface]
  · rw [setBalancer_first (hk.fresh c List.mem_cons_self) hiface]
    obtain ⟨_ | _, k₁⟩ := k.recordOf nodeName c <;> simp [hiface]

theorem recordOf_vips {w : String} (hw : w ≠ c.1.vip) :
    (k.recordOf nodeName c).2.vips.get w = k.vips.get w := by
  rw [recordOf, KeepAlived.addRecord]
  split
  · exact Map.get_set_ne _ _ hw
  · split
    · rfl
    · exact Map.get_set_ne _ _ hw

theorem Before.next (h : k.Before (c :: calls)) : (k.recordOf nodeName c).2.Before calls := by
  obtain ⟨hnotMem, hnodup⟩ := List.nodup_cons.mp h.nodup
  have hun : k.Unlisted c.1.vip := by
    intro n inst hn hmem
    cases (h.sound.listed n inst _ hn hmem).symm.trans (h.fresh c List.mem_cons_self)
  refine ⟨h.sound.addRecord hun nodeName _ c.1.nodes, fun c' hc' => ?_, hnodup⟩
  have hne : c'.1.vip ≠ c.1.vip := by
    intro he
    refine hnotMem (List.mem_map.mpr ⟨c', hc', he⟩)
  rw [recordOf_vips hne]
  exact h.fresh c' (List.mem_cons_of_mem _ hc')

theorem recordOf_getInterfaces :
    (k.recordOf nodeName c).2.getInterfaces = k.getInterfaces := by
  funext order vip
  rw [KeepAlived.getInterfaces, KeepAlived.getInterfaces, recordOf, addRecord_configs]

theorem keyOf_recordOf : (k.recordOf nodeName c).2.keyOf = k.keyOf := by
  funext c'
  rw [keyOf, keyOf, recordOf_getInterfaces]

/-- **The calls fill the table of the router ids**, and have found an interface each. -/
theorem setAll_fills (hk : k.Before calls) (h : k.setAll nodeName calls = some k') :
    Fills {0} 256 k.routeIDOf (calls.map k.keyOf) k'.routeIDOf ∧
      ∀ c ∈ calls, k.getInterfaces c.2 c.1.vip ≠ "" := by
  induction calls generalizing k with
  | nil =>
    cases h
    exact ⟨.nil, fun _ hc => absurd hc List.not_mem_nil⟩
  | cons c calls ih =>
    obtain ⟨hiface, hok, hrest⟩ := (setAll_cons hk).mp h
    obtain ⟨hfills, hifaces⟩ := ih hk.next hrest
    rw [keyOf_recordOf] at hfills
    rw [recordOf_getInterfaces] at hifaces
    rcases recordOf_insert hk.sound c with ⟨-, hins⟩ | ⟨herr, -⟩
    · exact ⟨.cons hins hfills, List.forall_mem_cons.mpr ⟨hiface, hifaces⟩⟩
    · exact absurd hok herr

/-- The calls succeed if there is an id for every instance. -/
theorem setAll_isSome (hk : k.Before calls) (hiface : ∀ c ∈ calls, k.getInterfaces c.2 c.1.vip ≠ "")
    {S : Finset String} (hold : ∀ n, (k.routeIDOf n).isSome → n ∈ S)
    (hnew : ∀ c ∈ calls, (k.keyOf c).1 ∈ S) (hcard : S.card ≤ 255) :
    ∃ k', k.setAll nodeName calls = some k' := by
  induction calls generalizing k with
  | nil => exact ⟨k, rfl⟩
  | cons c calls ih =>
    obtain ⟨hifc, hifs⟩ := List.forall_mem_cons.mp hiface
    obtain ⟨hc, hcs⟩ := List.forall_mem_cons.mp hnew
    rcases @recordOf_insert nodeName k hk.sound c with ⟨hok, hins⟩ | ⟨-, hnone, hfull⟩
    · obtain ⟨k', hk'⟩ := ih hk.next (by rwa [recordOf_getInterfaces])
        (fun n hn => ((hins.isSome_iff n).mp hn).elim (fun he => he ▸ hc) (hold n))
        (by rwa [keyOf_recordOf])
      exact ⟨k', (setAll_cons hk).mpr ⟨hifc, hok, hk'⟩⟩
    · -- a full table has 255 instances, and this one is not among them
      have hF : ∀ id ∈ Finset.Ico 1 256, id < 256 ∧ id ∉ ({0} : Set Nat) := by
        intro id hid
        rw [Finset.mem_Ico] at hid
        exact ⟨hid.2, by simp; omega⟩
      have hothers : ∀ n, (k.routeIDOf n).isSome → n ∈ S.erase (k.keyOf c).1 := by
        intro n hn
        refine Finset.mem_erase.mpr ⟨?_, hold n hn⟩
        rintro rfl
        rw [hnone] at hn
        cases hn
      have hle := card_le_of_full hfull hF hothers
      rw [Nat.card_Ico, Finset.card_erase_of_mem hc] at hle
      have hpos : 0 < S.card := Finset.card_pos.mpr ⟨_, hc⟩
      omega

end Calls

/-- The names of the instances of the calls. -/
def names (k : KeepAlived) (calls : List (Assignment × List String)) : Finset String :=
  (calls.map fun c => (k.keyOf c).1).toFinset

/-- The calls execute the assignments, in some order. -/
def Executes (k : KeepAlived) (assignments : List Assignment)
    (calls : List (Assignment × List String)) : Prop :=
  (calls.map Prod.fst).Perm assignments ∧ ∀ c ∈ calls, k.configs.Ranges c.2

/-- Every call finds an interface, and there are at most 255 instances. -/
def Fits (k : KeepAlived) (calls : List (Assignment × List String)) : Prop :=
  (∀ c ∈ calls, k.getInterfaces c.2 c.1.vip ≠ "") ∧ (k.names calls).card ≤ 255

theorem mem_names {name : String} {calls : List (Assignment × List String)} :
    name ∈ k.names calls ↔ ∃ c ∈ calls, (k.keyOf c).1 = name := by
  simp [names]

section Perm
variable {assignments : List Assignment} {calls calls' : List (Assignment × List String)}

theorem Executes.perm (h : k.Executes assignments calls) (hp : calls'.Perm calls) :
    k.Executes assignments calls' :=
  ⟨(hp.map _).trans h.1, fun c hc => h.2 c (hp.mem_iff.mp hc)⟩

theorem Fits.perm (h : k.Fits calls) (hp : calls'.Perm calls) : k.Fits calls' := by
  refine ⟨fun c hc => h.1 c (hp.mem_iff.mp hc), ?_⟩
  rw [names, List.toFinset_eq_of_perm _ _ (hp.map _)]
  exact h.2

/-- Any of the calls can be made first. -/
theorem exists_perm_cons {c : Assignment × List String} (hc : c ∈ calls) :
    ∃ rest, (c :: rest).Perm calls := by
  obtain ⟨s, t, rfl⟩ := List.append_of_mem hc
  exact ⟨s ++ t, List.perm_middle.symm⟩

end Perm

/-! ## A new speaker -/

/-- Nothing has been assigned yet. -/
structure Empty (k : KeepAlived) : Prop where
  sound : k.VipSound
  vips : ∀ vip, k.vips.get vip = none
  instances : ∀ n, k.instances.get n = none

section Empty
variable {assignments : List Assignment} {calls : List (Assignment × List String)}

theorem Empty.before (h : k.Empty) (hvips : (assignments.map Assignment.vip).Nodup)
    (he : k.Executes assignments calls) : k.Before calls := by
  refine ⟨h.sound, fun c _ => h.vips _, ?_⟩
  have hp := he.1.map Assignment.vip
  rw [List.map_map] at hp
  exact hp.nodup_iff.mpr hvips

theorem Empty.routeIDOf (h : k.Empty) : k.routeIDOf = fun _ => none := by
  funext n
  rw [KeepAlived.routeIDOf, h.instances, Option.map_none]

/-- Calls that fit succeed. -/
theorem Empty.run (h : k.Empty) (hk : k.Before calls) (hfits : k.Fits calls) :
    ∃ k', k.setAll nodeName calls = some k' := by
  refine setAll_isSome hk hfits.1 (fun n hn => ?_) (fun c hc => mem_names.mpr ⟨c, hc, rfl⟩) hfits.2
  rw [h.routeIDOf] at hn
  cases hn

/-- The table that calls that succeed leave. -/
theorem Empty.fills (h : k.Empty) (hk : k.Before calls) (hrun : k.setAll nodeName calls = some k') :
    Fills {0} 256 (fun _ => none) (calls.map k.keyOf) k'.routeIDOf := by
  have hfills := (setAll_fills hk hrun).1
  rwa [h.routeIDOf] at hfills

theorem Empty.isSome_iff (h : k.Empty) (hk : k.Before calls)
    (hrun : k.setAll nodeName calls = some k') (name : String) :
    (k'.routeIDOf name).isSome ↔ name ∈ k.names calls := by
  rw [(h.fills hk hrun).isSome_iff, mem_names]
  simp

/-- Calls that succeed fit. -/
theorem Empty.fits (h : k.Empty) (hk : k.Before calls) (hrun : k.setAll nodeName calls = some k') :
    k.Fits calls := by
  refine ⟨(setAll_fills hk hrun).2, ?_⟩
  have hproper := (h.fills hk hrun).proper .empty
  have hle : (k.names calls).card ≤ (Finset.Ico 1 256).card := by
    refine hproper.card_le (fun name hname => (h.isSome_iff hk hrun name).mpr hname) ?_
    intro id hlt hne
    rw [Set.mem_singleton_iff] at hne
    exact Finset.mem_Ico.mpr ⟨by omega, hlt⟩
  rwa [Nat.card_Ico] at hle

end Empty

theorem hashID_lt (nodes : List Node) : hashID nodes < 256 := Nat.mod_lt _ (by decide)

/-- The name of an instance gives the start of the search. -/
theorem hashID_of_name {c c' : Assignment × List String} (h : (k.keyOf c).1 = (k.keyOf c').1) :
    hashID c.1.nodes = hashID c'.1.nodes := by
  rw [hashID, hashID, hash_of_instanceName h]

/-- Instances with different names have different first slots. -/
def DistinctSlots (k : KeepAlived) (calls : List (Assignment × List String)) : Prop :=
  ∀ c ∈ calls, ∀ c' ∈ calls, (k.keyOf c).1 ≠ (k.keyOf c').1 →
    firstSlot (hashID c.1.nodes) ≠ firstSlot (hashID c'.1.nodes)

/-- Then every instance gets its first slot. -/
theorem Empty.routeIDOf_of_distinct {calls : List (Assignment × List String)} (h : k.Empty)
    (hk : k.Before calls) (hrun : k.setAll nodeName calls = some k') (hd : k.DistinctSlots calls)
    {c : Assignment × List String} (hc : c ∈ calls) :
    k'.routeIDOf (k.keyOf c).1 = some (firstSlot (hashID c.1.nodes)) := by
  refine (h.fills hk hrun).of_distinct ?_ ?_ ?_ (List.mem_map_of_mem hc)
  · intro p hp
    obtain ⟨c, -, rfl⟩ := List.mem_map.mp hp
    exact firstFree_firstSlot (hashID_lt _)
  · intro p hp q hq he
    obtain ⟨c, -, rfl⟩ := List.mem_map.mp hp
    obtain ⟨c', -, rfl⟩ := List.mem_map.mp hq
    exact hashID_of_name he
  · intro p hp q hq hne
    obtain ⟨c, hc, rfl⟩ := List.mem_map.mp hp
    obtain ⟨c', hc', rfl⟩ := List.mem_map.mp hq
    exact hd c hc c' hc' hne

end KeepAlived

open KeepAlived

/-- A new speaker that has been given configurations. -/
def newSpeaker (configs : Map String Config) : Option KeepAlived :=
  newKeepAlived.map fun k => { k with configs := configs }

theorem KeepAlived.Empty.of_newSpeaker {configs : Map String Config} {k : KeepAlived}
    (h : newSpeaker configs = some k) : k.Empty := by
  obtain ⟨k₀, hk₀, rfl⟩ := Option.map_eq_some_iff.mp h
  have hs := VipSound.of_new_speaker hk₀
  obtain ⟨a, -, rfl⟩ := Option.map_eq_some_iff.mp hk₀
  exact ⟨⟨hs.numIDs, hs.used, hs.distinct, hs.range, hs.nonempty, hs.nodup, hs.listed⟩,
    fun _ => rfl, fun _ => rfl⟩

/-- **When the router ids agree on two nodes.**  Two speakers start empty with the same
configurations, and execute the same assignments, each in an order of its own and with
all calls succeeding.  They always end with the same router ids if and only if,
whichever interfaces the calls find, they make the same instances, and no two of these
have the same first slot; the interfaces matter only where every call finds one and no
more than 255 instances are made. -/
theorem router_ids_agree_iff {configs : Map String Config} {k : KeepAlived}
    (hnew : newSpeaker configs = some k) (nodeName₁ nodeName₂ : String)
    {assignments : List Assignment} (hvips : (assignments.map Assignment.vip).Nodup) :
    (∀ calls₁ calls₂ k₁ k₂, k.Executes assignments calls₁ → k.Executes assignments calls₂ →
      k.setAll nodeName₁ calls₁ = some k₁ → k.setAll nodeName₂ calls₂ = some k₂ →
      ∀ name, k₁.routeIDOf name = k₂.routeIDOf name) ↔
    ∀ calls₁ calls₂, k.Executes assignments calls₁ → k.Executes assignments calls₂ →
      k.Fits calls₁ → k.Fits calls₂ → k.names calls₁ = k.names calls₂ ∧ k.DistinctSlots calls₁ := by
  have hempty := Empty.of_newSpeaker hnew
  constructor
  · intro hagree calls₁ calls₂ he₁ he₂ hfits₁ hfits₂
    constructor
    · obtain ⟨k₁, hrun₁⟩ := hempty.run (hempty.before hvips he₁) hfits₁
      obtain ⟨k₂, hrun₂⟩ := hempty.run (hempty.before hvips he₂) hfits₂
      ext name
      rw [← hempty.isSome_iff (hempty.before hvips he₁) hrun₁,
        ← hempty.isSome_iff (hempty.before hvips he₂) hrun₂,
        hagree calls₁ calls₂ k₁ k₂ he₁ he₂ hrun₁ hrun₂]
    · -- each of two instances with the same first slot may be the first to come
      intro c hc c' hc' hne hslot
      obtain ⟨rest, hp⟩ := exists_perm_cons hc
      obtain ⟨rest', hp'⟩ := exists_perm_cons hc'
      have hb := hempty.before hvips (he₁.perm hp)
      have hb' := hempty.before hvips (he₁.perm hp')
      obtain ⟨k₁, hrun₁⟩ := hempty.run hb (hfits₁.perm hp)
      obtain ⟨k₂, hrun₂⟩ := hempty.run hb' (hfits₁.perm hp')
      have hfirst := firstFree_firstSlot (hashID_lt c.1.nodes)
      have hfirst' := firstFree_firstSlot (hashID_lt c'.1.nodes)
      rw [← hslot] at hfirst'
      exact Fills.ne_of_clash hne hfirst hfirst' (hempty.fills hb hrun₁) (hempty.fills hb' hrun₂)
        (hagree _ _ k₁ k₂ (he₁.perm hp) (he₁.perm hp') hrun₁ hrun₂ _)
  · intro hcond calls₁ calls₂ k₁ k₂ he₁ he₂ hrun₁ hrun₂ name
    have hb₁ := hempty.before hvips he₁
    have hb₂ := hempty.before hvips he₂
    have hfits₁ := hempty.fits hb₁ hrun₁
    have hfits₂ := hempty.fits hb₂ hrun₂
    obtain ⟨hnames, hd₁⟩ := hcond calls₁ calls₂ he₁ he₂ hfits₁ hfits₂
    obtain ⟨-, hd₂⟩ := hcond calls₂ calls₁ he₂ he₁ hfits₂ hfits₁
    by_cases hname : name ∈ k.names calls₁
    · obtain ⟨c, hc, rfl⟩ := mem_names.mp hname
      obtain ⟨c', hc', he⟩ := mem_names.mp (hnames ▸ hname)
      rw [hempty.routeIDOf_of_distinct hb₁ hrun₁ hd₁ hc, ← he,
        hempty.routeIDOf_of_distinct hb₂ hrun₂ hd₂ hc', hashID_of_name he]
    · have hnone₁ := hname
      have hnone₂ := hname
      rw [← hempty.isSome_iff hb₁ hrun₁, Option.not_isSome_iff_eq_none] at hnone₁
      rw [hnames, ← hempty.isSome_iff hb₂ hrun₂, Option.not_isSome_iff_eq_none] at hnone₂
      rw [hnone₁, hnone₂]

/-- A second pool, on another interface. -/
def dmzConfig : Config where
  name := "dmz"
  ipRange := ⟨.v4Family, v4InV6Prefix ++ [198, 51, 100, 1], v4InV6Prefix ++ [198, 51, 100, 9]⟩
  iface := "eth1"

/-- An address of the first pool, for two nodes. -/
def lanAssignment : Assignment := ⟨"192.0.2.1", [{ name := "node1" }, { name := "node2" }]⟩

/-- An address of the second pool, for the same nodes. -/
def dmzAssignment : Assignment := ⟨"198.51.100.1", [{ name := "node1" }, { name := "node2" }]⟩

/-- The hash does not see the interface: of two instances for the same nodes, the one
that comes first gets the id. -/
theorem router_ids_swapped :
    ∃ k k₁ k₂, newSpeaker (Map.ofList [("pool", vipConfig), ("dmz", dmzConfig)]) = some k ∧
      k.Executes [lanAssignment, dmzAssignment]
        [(lanAssignment, ["pool", "dmz"]), (dmzAssignment, ["pool", "dmz"])] ∧
      k.Executes [lanAssignment, dmzAssignment]
        [(dmzAssignment, ["pool", "dmz"]), (lanAssignment, ["pool", "dmz"])] ∧
      k.setAll "node1"
        [(lanAssignment, ["pool", "dmz"]), (dmzAssignment, ["pool", "dmz"])] = some k₁ ∧
      k.setAll "node2"
        [(dmzAssignment, ["pool", "dmz"]), (lanAssignment, ["pool", "dmz"])] = some k₂ ∧
      k₁.routeIDOf (instanceName lanAssignment.nodes "eth0") = some 219 ∧
      k₂.routeIDOf (instanceName lanAssignment.nodes "eth0") = some 220 := by
  have hrun : (newSpeaker (Map.ofList [("pool", vipConfig), ("dmz", dmzConfig)])).map (fun k =>
      (decide (k.configs.Ranges ["pool", "dmz"]),
        (k.setAll "node1" [(lanAssignment, ["pool", "dmz"]), (dmzAssignment, ["pool", "dmz"])]).map
          (fun k => k.routeIDOf (instanceName lanAssignment.nodes "eth0")),
        (k.setAll "node2" [(dmzAssignment, ["pool", "dmz"]), (lanAssignment, ["pool", "dmz"])]).map
          (fun k => k.routeIDOf (instanceName lanAssignment.nodes "eth0")))) =
      some (true, some (some 219), some (some 220)) := by
    decide +kernel
  obtain ⟨k, hk, he⟩ := Option.map_eq_some_iff.mp hrun
  simp only [Prod.mk.injEq, decide_eq_true_eq, Option.map_eq_some_iff] at he
  obtain ⟨hranges, ⟨k₁, hk₁, hid₁⟩, ⟨k₂, hk₂, hid₂⟩⟩ := he
  exact ⟨k, k₁, k₂, hk, ⟨.refl _, by simp [hranges]⟩, ⟨.swap .., by simp [hranges]⟩, hk₁, hk₂, hid₁, hid₂⟩

/-- Two addresses of one pool, each for a node of its own. -/
def oneNodeEach : List Assignment :=
  [⟨"192.0.2.1", [{ name := "node1" }]⟩, ⟨"192.0.2.2", [{ name := "node2" }]⟩]

theorem router_ids_agree_oneNodeEach :
    ∃ k, newSpeaker (Map.ofList [("pool", vipConfig)]) = some k ∧
      ∀ calls₁ calls₂ k₁ k₂, k.Executes oneNodeEach calls₁ → k.Executes oneNodeEach calls₂ →
        k.setAll "node1" calls₁ = some k₁ → k.setAll "node2" calls₂ = some k₂ →
        ∀ name, k₁.routeIDOf name = k₂.routeIDOf name := by
  have hnew : (newSpeaker (Map.ofList [("pool", vipConfig)])).isSome := by decide +kernel
  obtain ⟨k, hk⟩ := Option.isSome_iff_exists.mp hnew
  have hconfigs : k.configs = Map.ofList [("pool", vipConfig)] := by
    obtain ⟨k₀, -, rfl⟩ := Option.map_eq_some_iff.mp hk
    rfl
  have hvips : (oneNodeEach.map Assignment.vip).Nodup := by decide
  refine ⟨k, hk, (router_ids_agree_iff hk "node1" "node2" hvips).mpr ?_⟩
  -- there is one order to visit one configuration in
  have hranges : k.configs.Ranges ["pool"] := by
    rw [hconfigs]
    decide +kernel
  have hcall : ∀ {calls}, k.Executes oneNodeEach calls → ∀ c ∈ calls, c.2 = ["pool"] :=
    fun he c hc => List.perm_singleton.mp ((he.2 c hc).perm hranges)
  have hnames : ∀ {calls}, k.Executes oneNodeEach calls → k.names calls =
      (oneNodeEach.map fun a => (k.keyOf (a, ["pool"])).1).toFinset := by
    intro calls he
    rw [names, ← List.toFinset_eq_of_perm _ _ (he.1.map _), List.map_map]
    congr 1
    refine List.map_congr_left fun c hc => ?_
    rw [Function.comp_apply, ← hcall he c hc]
  have hslots : ∀ a ∈ oneNodeEach, ∀ a' ∈ oneNodeEach, a.nodes.map Node.name ≠ a'.nodes.map Node.name →
      firstSlot (hashID a.nodes) ≠ firstSlot (hashID a'.nodes) := by
    decide +kernel
  have hnodes : ∀ a ∈ oneNodeEach, ∀ a' ∈ oneNodeEach,
      a.nodes.map Node.name = a'.nodes.map Node.name → a = a' := by
    simp [oneNodeEach]
  intro calls₁ calls₂ he₁ he₂ _ _
  refine ⟨(hnames he₁).trans (hnames he₂).symm, fun c hc c' hc' hne => ?_⟩
  have hmem : ∀ c ∈ calls₁, c.1 ∈ oneNodeEach :=
    fun c hc => he₁.1.mem_iff.mp (List.mem_map_of_mem hc)
  refine hslots _ (hmem c hc) _ (hmem c' hc') fun he => hne ?_
  rw [keyOf, keyOf, hcall he₁ c hc, hcall he₁ c' hc', hnodes _ (hmem c hc) _ (hmem c' hc') he]

end OpenELB
