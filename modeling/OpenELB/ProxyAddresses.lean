import OpenELB.ProxyRuns
import Mathlib.Data.List.Dedup
import Mathlib.Data.List.Sort
import Mathlib.Data.String.Basic

/-! # The addresses in the annotations of a node-proxy service

The annotations of a node-proxy service are to list, in order and once each, the external and
the internal addresses of the nodes that run a proxy pod.  What `reconcileNPNormal` lists are
the host addresses of the pods.  A pod has one host address, so of a node with an external and
an internal address only one is listed; two pods of a node list its address twice; and if no
pod runs, then the annotations stay as they were.

`proxy_annotations_iff` says when the annotations are right nevertheless.  What is listed does
not depend on the order in which nodes and pods are listed (`proxy_annotations_order`). -/
namespace OpenELB
open Go Code

/-! ## Lists of addresses in order -/

/-- The text for a list of addresses; there is none for an empty list. -/
def ipsText (ips : List String) : Option String :=
  if ips ≠ [] then some (join ',' (ips.insertionSort (· ≤ ·))) else none

/-- Sorting forgets the order. -/
theorem sorted_of_perm {l l' : List String} (h : l.Perm l') :
    l.insertionSort (· ≤ ·) = l'.insertionSort (· ≤ ·) := by
  have hsorted : ∀ l : List String, (l.insertionSort (· ≤ ·)).Pairwise (· ≤ ·) :=
    List.pairwise_insertionSort _
  have hperm := ((List.perm_insertionSort (· ≤ ·) l).trans h).trans
    (List.perm_insertionSort (· ≤ ·) l').symm
  exact hperm.eq_of_pairwise (fun a b _ _ hab hba => String.le_antisymm hab hba) (hsorted l)
    (hsorted l')

theorem nil_iff_of_perm {α : Type} {l l' : List α} (h : l.Perm l') : l = [] ↔ l' = [] := by
  rw [← List.length_eq_zero_iff, h.length_eq, List.length_eq_zero_iff]

theorem ipsText_of_perm {l l' : List String} (h : l.Perm l') : ipsText l = ipsText l' := by
  rw [ipsText, ipsText, sorted_of_perm h]
  simp only [ne_eq, nil_iff_of_perm h]

/-- Texts without commas can be read back. -/
theorem perm_of_ipsText {l l' : List String} (hl : ∀ x ∈ l, ',' ∉ x.toList)
    (hl' : ∀ x ∈ l', ',' ∉ x.toList) (h : ipsText l = ipsText l') : l.Perm l' := by
  have hsplit : ∀ {l : List String}, l ≠ [] → (∀ x ∈ l, ',' ∉ x.toList) →
      split ',' (join ',' (l.insertionSort (· ≤ ·))) = l.insertionSort (· ≤ ·) := by
    intro l hne hl
    have hperm := List.perm_insertionSort (· ≤ ·) l
    refine split_join (fun hnil => hne ?_) fun x hx => hl x (hperm.mem_iff.mp hx)
    rw [hnil] at hperm
    exact List.nil_perm.mp hperm
  rw [ipsText, ipsText] at h
  by_cases h0 : l = []
  · by_cases h1 : l' = []
    · rw [h0, h1]
    · rw [if_neg (not_not.mpr h0), if_pos h1] at h
      exact nomatch h
  · by_cases h1 : l' = []
    · rw [if_pos h0, if_neg (not_not.mpr h1)] at h
      exact nomatch h
    · rw [if_pos h0, if_pos h1] at h
      have heq := congrArg (split ',') (Option.some.inj h)
      rw [hsplit h0 hl, hsplit h1 hl'] at heq
      exact (List.perm_insertionSort _ l).symm.trans (heq ▸ List.perm_insertionSort _ l')

theorem get_setIPs (m : Map String String) (key : String) (ips : List String) (k : String) :
    (setIPs m key ips).get k = if k = key then ipsText ips else m.get k := by
  rw [setIPs, ipsText]
  by_cases hips : ips ≠ []
  · rw [if_pos hips, if_pos hips, Map.get_set]
  · rw [if_neg hips, if_neg hips, Map.get_delete]

theorem setIPs_of_perm (m : Map String String) (key : String) {l l' : List String}
    (h : l.Perm l') : setIPs m key l = setIPs m key l' := by
  rw [setIPs, setIPs, sorted_of_perm h]
  simp only [ne_eq, nil_iff_of_perm h]

/-! ## The annotations that are stored -/

section Exposed
variable {svc : Service} {nodes nodes' : List (Version Node)} {pods pods' : List Pod}

theorem mem_withProxyFinalizer (svc : Service) :
    nodeProxyFinalizerName ∈ svc.withProxyFinalizer.finalizers := by
  rw [Service.withProxyFinalizer]
  by_cases hfin : nodeProxyFinalizerName ∈ svc.finalizers
  · rwa [if_pos hfin]
  · have hmem := mem_addFinalizer svc.finalizers nodeProxyFinalizerName
    rw [if_neg hfin, (Service.updated_spec svc
      { svc with finalizers := addFinalizer svc.finalizers nodeProxyFinalizerName }
      (List.ne_nil_of_mem hmem)).2.1]
    exact hmem

theorem get_withProxyFinalizer (svc : Service) (k : String) :
    svc.withProxyFinalizer.annotations.get k = svc.annotations.get k := by
  rw [Service.withProxyFinalizer]
  split
  · rfl
  · have hne := List.ne_nil_of_mem (mem_addFinalizer svc.finalizers nodeProxyFinalizerName)
    rw [(Service.updated_spec svc
      { svc with finalizers := addFinalizer svc.finalizers nodeProxyFinalizerName } hne).2.2,
      Map.get_omitEmpty]

/-- If no pod runs, the annotations stay. -/
theorem get_exposed_nil (k : String) :
    (exposed svc nodes []).annotations.get k = svc.annotations.get k :=
  get_withProxyFinalizer svc k

theorem get_withProxyIPs {external internal : List String} (k : String) :
    (svc.withProxyIPs external internal pods).annotations.get k =
      if k = nodeProxyInternalIPAnnotationKey then ipsText (podsIn internal pods)
      else if k = nodeProxyExternalIPAnnotationKey then ipsText (podsIn external pods)
      else svc.annotations.get k := by
  rw [Service.withProxyIPs, get_setIPs, get_setIPs]

/-- Otherwise the two are those of the pods, and the others stay. -/
theorem get_exposed (hpods : pods ≠ []) (k : String) :
    (exposed svc nodes pods).annotations.get k =
      if k = nodeProxyInternalIPAnnotationKey then
        ipsText (podsIn (nodesWithIP .internalIP nodes) pods)
      else if k = nodeProxyExternalIPAnnotationKey then
        ipsText (podsIn (nodesWithIP .externalIP nodes) pods)
      else svc.annotations.get k := by
  have hne := List.ne_nil_of_mem (mem_withProxyFinalizer svc)
  rw [exposed, Service.withPods, if_neg hpods,
    (Service.updated_spec svc.withProxyFinalizer (svc.withProxyFinalizer.withProxyIPs _ _ pods)
      hne).2.2, Map.get_omitEmpty, get_withProxyIPs, get_withProxyFinalizer]

theorem proxyKind_exposed (svc : Service) (nodes : List (Version Node)) (pods : List Pod) :
    proxyKind (exposed svc nodes pods) = proxyKind svc := by
  have hget : (exposed svc nodes pods).annotations.get nodeProxyTypeAnnotationKey =
      svc.annotations.get nodeProxyTypeAnnotationKey := by
    by_cases hpods : pods = []
    · rw [hpods, get_exposed_nil]
    · rw [get_exposed hpods, if_neg (by decide), if_neg (by decide)]
  rw [proxyKind, proxyKind, hget]

theorem podsIn_perm {ips ips' : List String} (hips : ∀ ip, ip ∈ ips ↔ ip ∈ ips')
    (h : pods.Perm pods') : (podsIn ips pods).Perm (podsIn ips' pods') := by
  rw [podsIn, podsIn]
  simp only [hips]
  exact (h.map _).filter _

/-- **The order of the lists does not matter.** -/
theorem exposed_perm (hnodes : ∀ type ip, ip ∈ nodesWithIP type nodes ↔ ip ∈ nodesWithIP type nodes')
    (h : pods.Perm pods') : exposed svc nodes pods = exposed svc nodes' pods' := by
  have hips : ∀ svc : Service, svc.withProxyIPs (nodesWithIP .externalIP nodes)
      (nodesWithIP .internalIP nodes) pods = svc.withProxyIPs (nodesWithIP .externalIP nodes')
        (nodesWithIP .internalIP nodes') pods' := by
    intro svc
    rw [Service.withProxyIPs, Service.withProxyIPs, setIPs_of_perm _ _ (podsIn_perm (hnodes .externalIP) h),
      setIPs_of_perm _ _ (podsIn_perm (hnodes .internalIP) h)]
  rw [exposed, exposed, Service.withPods, Service.withPods, hips]
  simp only [nil_iff_of_perm h]

/-- An update of the annotations alone. -/
theorem updated_annotations (hfin : svc.finalizers ≠ []) (m : Map String String) :
    svc.updated { svc with annotations := m } =
      { svc with labels := svc.labels.omitEmpty, annotations := m.omitEmpty } := by
  rw [Service.updated, Service.applyUpdate, if_neg fun hdel => hfin hdel.2]
  rfl

/-- Writing the addresses a second time changes nothing. -/
theorem withPods_withPods {external internal : List String} (hfin : svc.finalizers ≠ []) :
    (svc.withPods external internal pods).withPods external internal pods =
      svc.withPods external internal pods := by
  by_cases hpods : pods = []
  · rw [Service.withPods, Service.withPods, if_pos hpods, if_pos hpods]
  · have hwrite : ∀ svc : Service, svc.finalizers ≠ [] →
        svc.withPods external internal pods = { svc with
          labels := svc.labels.omitEmpty
          annotations := (svc.withProxyIPs external internal pods).annotations.omitEmpty } := by
      intro svc hfin
      rw [Service.withPods, if_neg hpods]
      exact updated_annotations hfin _
    have hfin' : (svc.withPods external internal pods).finalizers = svc.finalizers := by
      rw [hwrite svc hfin]
    have hlabels : (svc.withPods external internal pods).labels = svc.labels.omitEmpty := by
      rw [hwrite svc hfin]
    have hann : (svc.withPods external internal pods).annotations =
        (svc.withProxyIPs external internal pods).annotations.omitEmpty := by
      rw [hwrite svc hfin]
    rw [hwrite _ (hfin'.symm ▸ hfin)]
    -- the labels and the annotations are already as they come back
    have hlabels' : (svc.withPods external internal pods).labels.omitEmpty =
        (svc.withPods external internal pods).labels := by
      rw [hlabels]
      exact Map.omitEmpty_congr (Map.get_omitEmpty _)
    have hann' : ((svc.withPods external internal pods).withProxyIPs external internal
        pods).annotations.omitEmpty = (svc.withPods external internal pods).annotations := by
      rw [hann]
      refine Map.omitEmpty_congr fun k => ?_
      rw [get_withProxyIPs, hann, Map.get_omitEmpty, get_withProxyIPs]
      split
      · rfl
      · split <;> rfl
    rw [hlabels', hann']

theorem exposed_exposed : exposed (exposed svc nodes pods) nodes pods = exposed svc nodes pods := by
  have hfin := mem_withProxyFinalizer svc
  have hstays : nodeProxyFinalizerName ∈ (exposed svc nodes pods).finalizers := by
    rw [exposed, Service.withPods]
    split
    · exact hfin
    · rw [(Service.updated_spec svc.withProxyFinalizer (svc.withProxyFinalizer.withProxyIPs _ _ pods)
        (List.ne_nil_of_mem hfin)).2.1]
      exact hfin
  have hsame : (exposed svc nodes pods).withProxyFinalizer = exposed svc nodes pods := by
    rw [Service.withProxyFinalizer, if_pos hstays]
  rw [exposed, hsame]
  exact withPods_withPods (List.ne_nil_of_mem hfin)

end Exposed

/-! ## What should be listed -/

/-- Some node has the address. -/
def NodeHas (s : Cluster) (type : NodeAddressType) (ip : String) : Prop :=
  ∃ v, s.nodes.get v.obj.name = some v ∧ ip ∈ Node.addressesOf type v.obj.addresses

/-- Every running proxy pod of the service is on a node of the cluster, and its host address is
an address of that node. -/
structure Placed (env : Env) (k : NamespacedName) (s : Cluster) (place : Pod → Node) : Prop where
  node : ∀ p ∈ runningPods env k s, ∃ v, s.nodes.get (place p).name = some v ∧ v.obj = place p
  host : ∀ p ∈ runningPods env k s, ∃ a ∈ (place p).addresses, a.address = p.hostIP

/-- The addresses of the nodes that run the pods, once each. -/
def wantedIPs (type : NodeAddressType) (place : Pod → Node) (pods : List Pod) : List String :=
  (pods.flatMap fun p => Node.addressesOf type (place p).addresses).dedup

/-- **The annotations are right**: each has, in order, the addresses of the nodes that run a
proxy pod, or is absent if there are none. -/
def AnnotationsRight (env : Env) (k : NamespacedName) (s : Cluster) (place : Pod → Node)
    (svc : Service) : Prop :=
  svc.annotations.get nodeProxyExternalIPAnnotationKey =
      ipsText (wantedIPs .externalIP place (runningPods env k s)) ∧
    svc.annotations.get nodeProxyInternalIPAnnotationKey =
      ipsText (wantedIPs .internalIP place (runningPods env k s))

/-- The host addresses of the pods that some node has for an address of the type differ, and
they are the addresses of the type of the nodes that run the pods. -/
structure HostsListed (s : Cluster) (type : NodeAddressType) (place : Pod → Node)
    (pods : List Pod) : Prop where
  once : pods.Pairwise fun p q =>
    NodeHas s type p.hostIP → NodeHas s type q.hostIP → p.hostIP ≠ q.hostIP
  hosts : ∀ ip, (NodeHas s type ip ∧ ∃ p ∈ pods, p.hostIP = ip) ↔
    ∃ p ∈ pods, ip ∈ Node.addressesOf type (place p).addresses

/-- When the annotations come out right: no pod runs and there are none, or the pods have the
right host addresses for both. -/
def HostsRight (env : Env) (s : Cluster) (place : Pod → Node) (svc : Service) : Prop :=
  if runningPods env svc.key s = [] then
    svc.annotations.get nodeProxyExternalIPAnnotationKey = none ∧
      svc.annotations.get nodeProxyInternalIPAnnotationKey = none
  else HostsListed s .externalIP place (runningPods env svc.key s) ∧
    HostsListed s .internalIP place (runningPods env svc.key s)

/-- No address of a node has a comma in it. -/
def NoCommas (s : Cluster) : Prop :=
  ∀ v : Version Node, s.nodes.get v.obj.name = some v → ∀ a ∈ v.obj.addresses, ',' ∉ a.address.toList

section Listed
variable {env : Env} {s : Cluster} {place : Pod → Node} {type : NodeAddressType}
  {nodes : List (Version Node)} {pods running : List Pod}

theorem mem_nodesWithIP (h : s.nodes.Lists nodes) (ip : String) :
    ip ∈ nodesWithIP type nodes ↔ NodeHas s type ip := by
  rw [nodesWithIP, List.mem_flatMap]
  exact exists_congr fun v => and_congr_left' h.mem_iff

theorem SameHosts.nodeHas {s' : Cluster} (h : SameHosts s s') {ip : String}
    (hip : NodeHas s type ip) : NodeHas s' type ip := by
  obtain ⟨v, hv, hmem⟩ := hip
  have hnode := h.nodes v.obj.name
  rw [hv, Option.map_some] at hnode
  obtain ⟨v', hv', haddr⟩ := Option.map_eq_some_iff.mp hnode
  have hname : v'.obj.name = v.obj.name := VStore.key_of_get hv'
  exact ⟨v', hname ▸ hv', haddr ▸ hmem⟩

theorem mem_podsIn {ips : List String} {ip : String} :
    ip ∈ podsIn ips pods ↔ ip ∈ ips ∧ ∃ p ∈ pods, p.hostIP = ip := by
  rw [podsIn, List.mem_filter, List.mem_map, decide_eq_true_iff, and_comm]

theorem nodup_podsIn {ips : List String} :
    (podsIn ips pods).Nodup ↔
      pods.Pairwise fun p q => p.hostIP ∈ ips → q.hostIP ∈ ips → p.hostIP ≠ q.hostIP := by
  rw [podsIn, List.Nodup, List.pairwise_filter, List.pairwise_map]
  simp only [decide_eq_true_iff]

theorem mem_wantedIPs {ip : String} :
    ip ∈ wantedIPs type place pods ↔ ∃ p ∈ pods, ip ∈ Node.addressesOf type (place p).addresses := by
  rw [wantedIPs, List.mem_dedup, List.mem_flatMap]

/-- What is listed is what should be, up to the order, exactly if the pods have the right host
addresses. -/
theorem podsIn_perm_wantedIPs_iff (hlists : s.nodes.Lists nodes) (hperm : pods.Perm running) :
    (podsIn (nodesWithIP type nodes) pods).Perm (wantedIPs type place running) ↔
      HostsListed s type place running := by
  have hlisted : (podsIn (nodesWithIP type nodes) pods).Perm
      (podsIn (nodesWithIP type nodes) running) := podsIn_perm (fun _ => Iff.rfl) hperm
  have hmem : ∀ ip, ip ∈ podsIn (nodesWithIP type nodes) running ↔
      NodeHas s type ip ∧ ∃ p ∈ running, p.hostIP = ip := by
    intro ip
    rw [mem_podsIn, mem_nodesWithIP hlists]
  have honce : (podsIn (nodesWithIP type nodes) running).Nodup ↔ running.Pairwise fun p q =>
      NodeHas s type p.hostIP → NodeHas s type q.hostIP → p.hostIP ≠ q.hostIP := by
    rw [nodup_podsIn]
    simp only [mem_nodesWithIP hlists]
  have hwanted : (wantedIPs type place running).Nodup := List.nodup_dedup _
  constructor
  · intro h
    have hsame := hlisted.symm.trans h
    refine ⟨honce.mp (hsame.nodup_iff.mpr hwanted), fun ip => ?_⟩
    rw [← hmem, hsame.mem_iff, mem_wantedIPs]
  · intro h
    refine hlisted.trans ((List.perm_ext_iff_of_nodup (honce.mpr h.once) hwanted).mpr fun ip => ?_)
    rw [hmem, h.hosts, mem_wantedIPs]

theorem addressesOf_noComma {as : List NodeAddress} (h : ∀ a ∈ as, ',' ∉ a.address.toList) :
    ∀ ip ∈ Node.addressesOf type as, ',' ∉ ip.toList := by
  intro ip hip
  obtain ⟨a, ha, rfl⟩ := List.mem_map.mp hip
  exact h a (List.mem_of_mem_filter ha)

/-- The text is right if the pods have the right host addresses, and only then if addresses
have no commas. -/
theorem ipsText_eq_iff {k : NamespacedName} (hlists : s.nodes.Lists nodes)
    (hperm : pods.Perm (runningPods env k s)) (hplace : Placed env k s place)
    (hcommas : NoCommas s) :
    ipsText (podsIn (nodesWithIP type nodes) pods) =
      ipsText (wantedIPs type place (runningPods env k s)) ↔
      HostsListed s type place (runningPods env k s) := by
  rw [← podsIn_perm_wantedIPs_iff hlists hperm]
  refine ⟨fun h => perm_of_ipsText (fun ip hip => ?_) (fun ip hip => ?_) h, ipsText_of_perm⟩
  · obtain ⟨v, hv, hmem⟩ := (mem_nodesWithIP hlists ip).mp (mem_podsIn.mp hip).1
    exact addressesOf_noComma (hcommas v hv) ip hmem
  · obtain ⟨p, hp, hmem⟩ := mem_wantedIPs.mp hip
    obtain ⟨v, hv, hobj⟩ := hplace.node p hp
    rw [← hobj] at hv hmem
    exact addressesOf_noComma (hcommas v hv) ip hmem

end Listed

/-! ## The results -/

/-- **When the annotations of a node-proxy service are right** after a reconcile that returns,
for a service whose workload exists: if no pod runs and the annotations were not there, or if
the host addresses of the pods are, once each, the external and the internal addresses of the
nodes that run them.  Unless an address has a comma in it, they are right only then. -/
theorem proxy_annotations_iff {env : Env} {f : Faults} {s s' : Cluster}
    {log : List (Prog.Event Call Reply)} {v : Version Service} {kind : WorkloadKind}
    {place : Pod → Node} (hf : f.stale = false) (hv : s.services.get v.obj.key = some v)
    (hkind : proxyKind v.obj = some kind)
    (hwork : (s.workloads.get (proxyKey env v.obj.key kind)).isSome)
    (hplace : Placed env v.obj.key s place)
    (h : Prog.Run (exec f) s (reconcileNPNormal env v) log (.ok ()) s') :
    ∃ w, s'.services.get v.obj.key = some w ∧
      (HostsRight env s place v.obj → AnnotationsRight env v.obj.key s place w.obj) ∧
      (NoCommas s → AnnotationsRight env v.obj.key s place w.obj →
        HostsRight env s place v.obj) := by
  obtain ⟨-, nodes, pods, w, hlists, hperm, hget, hobj⟩ :=
    run_reconcileNPNormal hf hv hkind hwork h
  refine ⟨w, hget, ?_⟩
  rw [AnnotationsRight, HostsRight, hobj]
  by_cases hnone : runningPods env v.obj.key s = []
  · rw [hnone] at hperm
    obtain rfl := List.perm_nil.mp hperm
    rw [if_pos hnone, get_exposed_nil, get_exposed_nil, hnone]
    exact ⟨id, fun _ => id⟩
  · have hpods : pods ≠ [] := fun h0 => hnone ((nil_iff_of_perm hperm).mp h0)
    rw [if_neg hnone, get_exposed hpods, get_exposed hpods, if_neg (by decide), if_pos rfl,
      if_pos rfl]
    constructor
    · rintro ⟨hext, hint⟩
      exact ⟨ipsText_of_perm ((podsIn_perm_wantedIPs_iff hlists hperm).mpr hext),
        ipsText_of_perm ((podsIn_perm_wantedIPs_iff hlists hperm).mpr hint)⟩
    · rintro hcommas ⟨hext, hint⟩
      exact ⟨(ipsText_eq_iff hlists hperm hplace hcommas).mp hext,
        (ipsText_eq_iff hlists hperm hplace hcommas).mp hint⟩

/-- A node with two addresses. -/
def dualNode : Node where
  name := "node"
  labels := Map.nil.set labelNodeProxyExternalIPPreffered ""
  addresses := [⟨.externalIP, "198.51.100.1"⟩, ⟨.internalIP, "192.0.2.1"⟩]

/-- A node with an internal address alone. -/
def innerNode : Node where
  name := "node"
  addresses := [⟨.internalIP, "192.0.2.1"⟩]

/-- A proxy pod of the service, on a node with the address. -/
def proxyPod : Pod where
  ns := plainEnv.envNamespace
  name := "node-proxy-a-b-c-0"
  labels := Map.nil.set "name" "node-proxy-a-b-c"
  phase := "Running"
  hostIP := "192.0.2.1"

/-- A service with its Deployment, one node and one pod. -/
def proxyCluster (node : Node) : Cluster :=
  { clusterOf [] [serviceA] with
    nodes := VStore.empty.put node
    workloads := VStore.empty.put
      { kind := .deployment, ns := plainEnv.envNamespace, name := "node-proxy-a-b-c" }
    pods := [proxyPod] }

/-- Without failures. -/
def nodeOracle : Oracle where
  order := ["node"]

theorem placed_proxyCluster {node : Node}
    (hip : ∃ a ∈ node.addresses, a.address = "192.0.2.1") :
    Placed plainEnv serviceA.key (proxyCluster node) fun _ => node := by
  refine ⟨fun p _ => ⟨⟨1, node⟩, VStore.get_put_self .., rfl⟩, fun p hp => ?_⟩
  obtain rfl : p = proxyPod := List.mem_singleton.mp (List.mem_of_mem_filter hp)
  exact hip

theorem nodeHas_proxyCluster {node : Node} {type : NodeAddressType} {ip : String} :
    NodeHas (proxyCluster node) type ip ↔ ip ∈ Node.addressesOf type node.addresses := by
  constructor
  · rintro ⟨v, hv, hmem⟩
    have hget : (VStore.empty.put node).get v.obj.name = some v := hv
    rw [VStore.get_put] at hget
    split at hget
    · obtain rfl := Option.some.inj hget
      exact hmem
    · exact nomatch hget
  · exact fun hmem => ⟨⟨1, node⟩, VStore.get_put_self .., hmem⟩

theorem runningPods_proxyCluster (node : Node) :
    runningPods plainEnv serviceA.key (proxyCluster node) = [proxyPod] := by
  have hpod : proxyPod.ns = plainEnv.envNamespace ∧ proxyPod.labels.get "name" =
      some (proxyRescName serviceA.key.name serviceA.key.ns) ∧ proxyPod.phase = "Running" := by
    decide +kernel
  rw [runningPods]
  exact List.filter_cons_of_pos (decide_eq_true hpod)

/-- One pod lists one address: that is right for a node with one address. -/
theorem hostsRight_innerNode :
    HostsRight plainEnv (proxyCluster innerNode) (fun _ => innerNode) serviceA := by
  have hlisted : ∀ type, (∀ ip ∈ Node.addressesOf type innerNode.addresses, "192.0.2.1" = ip) →
      HostsListed (proxyCluster innerNode) type (fun _ => innerNode) [proxyPod] := by
    intro type hone
    refine ⟨List.pairwise_singleton _ _, fun ip => ?_⟩
    simp only [nodeHas_proxyCluster, List.mem_singleton, exists_eq_left]
    exact ⟨And.left, fun hip => ⟨hip, hone ip hip⟩⟩
  rw [HostsRight, runningPods_proxyCluster, if_neg (List.cons_ne_nil _ _)]
  exact ⟨hlisted _ (by decide), hlisted _ (by decide)⟩

theorem proxyCluster_innerNode :
    (proxyCluster innerNode).services.get serviceA.key = some ⟨1, serviceA⟩ ∧
      proxyKind serviceA = some .deployment ∧
      ((proxyCluster innerNode).workloads.get
        (proxyKey plainEnv serviceA.key .deployment)).isSome := by
  decide +kernel

theorem run_innerNode :
    ∃ log s', Prog.Run (exec {}) (proxyCluster innerNode)
      (reconcileNPNormal plainEnv ⟨1, serviceA⟩) log (.ok ()) s' := by
  have hans := exec_of_steady nodeOracle (f := {})
  obtain ⟨log, s', hrun, -⟩ := run_of_eval (g := fun _ => ()) hans
    (show (Prog.eval (answer nodeOracle) (reconcileNPNormal plainEnv ⟨1, serviceA⟩)
      (proxyCluster innerNode)).map (fun x => (x.1, ())) = some (.ok (), ()) by decide +kernel)
  exact ⟨log, s', hrun⟩

theorem proxy_annotations_iff_innerNode :
    ∃ log s' w, Prog.Run (exec {}) (proxyCluster innerNode)
        (reconcileNPNormal plainEnv ⟨1, serviceA⟩) log (.ok ()) s' ∧
      s'.services.get serviceA.key = some w ∧
      AnnotationsRight plainEnv serviceA.key (proxyCluster innerNode) (fun _ => innerNode) w.obj := by
  obtain ⟨log, s', hrun⟩ := run_innerNode
  obtain ⟨hv, hkind, hwork⟩ := proxyCluster_innerNode
  have hplace : Placed plainEnv serviceA.key (proxyCluster innerNode) fun _ => innerNode :=
    placed_proxyCluster ⟨_, List.mem_cons_self, rfl⟩
  obtain ⟨w, hw, hright, -⟩ :=
    proxy_annotations_iff (v := ⟨1, serviceA⟩) rfl hv hkind hwork hplace hrun
  exact ⟨log, s', w, hrun, hw, hright hostsRight_innerNode⟩

/-- **A node's external address is missing.**  The node of the pod has two addresses; the host
address of the pod is the internal one. -/
theorem proxy_annotations_missing :
    ∃ log s', Prog.Run (exec {}) (proxyCluster dualNode)
        (reconcileNPNormal plainEnv ⟨1, serviceA⟩) log (.ok ()) s' ∧
      Placed plainEnv serviceA.key (proxyCluster dualNode) (fun _ => dualNode) ∧
      ipsText (wantedIPs .externalIP (fun _ => dualNode)
        (runningPods plainEnv serviceA.key (proxyCluster dualNode))) = some "198.51.100.1" ∧
      (s'.services.get serviceA.key).map (fun w =>
        w.obj.annotations.get nodeProxyExternalIPAnnotationKey) = some none := by
  have hans := exec_of_steady nodeOracle (f := {})
  obtain ⟨log, s', hrun, hgone⟩ := run_of_eval
    (g := fun s' => (s'.services.get serviceA.key).map fun w =>
      w.obj.annotations.get nodeProxyExternalIPAnnotationKey) hans
    (show (Prog.eval (answer nodeOracle) (reconcileNPNormal plainEnv ⟨1, serviceA⟩)
      (proxyCluster dualNode)).map (fun x => (x.1, (x.2.services.get serviceA.key).map fun w =>
        w.obj.annotations.get nodeProxyExternalIPAnnotationKey)) = some (.ok (), some none) by
      decide +kernel)
  refine ⟨log, s', hrun, placed_proxyCluster ⟨⟨.internalIP, "192.0.2.1"⟩, ?_, rfl⟩, ?_, hgone⟩
  · decide
  · rw [runningPods_proxyCluster]
    decide +kernel

/-- **The annotations do not depend on the order** in which the server lists nodes and pods.
Two reconciles of one service in one state of the cluster, whatever the orders, leave the same
object, and a further one, after the first, leaves it as it is. -/
theorem proxy_annotations_order {env : Env} {f : Faults} {s s₁ s₂ : Cluster}
    {log₁ log₂ : List (Prog.Event Call Reply)} {v : Version Service} {kind : WorkloadKind}
    (hf : f.stale = false) (hv : s.services.get v.obj.key = some v)
    (hkind : proxyKind v.obj = some kind)
    (hwork : (s.workloads.get (proxyKey env v.obj.key kind)).isSome)
    (h₁ : Prog.Run (exec f) s (reconcileNPNormal env v) log₁ (.ok ()) s₁)
    (h₂ : Prog.Run (exec f) s (reconcileNPNormal env v) log₂ (.ok ()) s₂) :
    ∃ w₁ w₂, s₁.services.get v.obj.key = some w₁ ∧ s₂.services.get v.obj.key = some w₂ ∧
      w₁.obj = w₂.obj ∧
      ∀ log₃ s₃, Prog.Run (exec f) s₁ (reconcileNPNormal env w₁) log₃ (.ok ()) s₃ →
        ∃ w₃, s₃.services.get v.obj.key = some w₃ ∧ w₃.obj = w₁.obj := by
  obtain ⟨honly, nodes₁, pods₁, w₁, hlists₁, hperm₁, hget₁, hobj₁⟩ :=
    run_reconcileNPNormal hf hv hkind hwork h₁
  obtain ⟨-, nodes₂, pods₂, w₂, hlists₂, hperm₂, hget₂, hobj₂⟩ :=
    run_reconcileNPNormal hf hv hkind hwork h₂
  refine ⟨w₁, w₂, hget₁, hget₂, ?_, fun log₃ s₃ h₃ => ?_⟩
  · rw [hobj₁, hobj₂]
    refine exposed_perm (fun type ip => ?_) (hperm₁.trans hperm₂.symm)
    rw [mem_nodesWithIP hlists₁, mem_nodesWithIP hlists₂]
  · have hkey : w₁.obj.key = v.obj.key := VStore.key_of_get hget₁
    have hkind₁ : proxyKind w₁.obj = some kind := by
      rw [← hkind, hobj₁]
      exact proxyKind_exposed v.obj nodes₁ pods₁
    rw [← hkey] at hget₁ honly ⊢
    obtain ⟨-, nodes₃, pods₃, w₃, hlists₃, hperm₃, hget₃, hobj₃⟩ :=
      run_reconcileNPNormal hf hget₁ hkind₁ honly.there h₃
    -- the pods and the addresses of the nodes are those of the first run
    have hsame := sameHosts_of_run h₁
    rw [hkey, runningPods, hsame.pods, ← runningPods] at hperm₃
    refine ⟨w₃, hget₃, ?_⟩
    have hlisted : ∀ type ip, ip ∈ nodesWithIP type nodes₃ ↔ ip ∈ nodesWithIP type nodes₁ := by
      intro type ip
      rw [mem_nodesWithIP hlists₃, mem_nodesWithIP hlists₁]
      exact ⟨hsame.symm.nodeHas, hsame.nodeHas⟩
    calc w₃.obj = exposed w₁.obj nodes₃ pods₃ := hobj₃
      _ = exposed w₁.obj nodes₁ pods₁ := exposed_perm hlisted (hperm₃.trans hperm₁.symm)
      _ = exposed (exposed v.obj nodes₁ pods₁) nodes₁ pods₁ := by rw [← hobj₁]
      _ = exposed v.obj nodes₁ pods₁ := exposed_exposed
      _ = w₁.obj := hobj₁.symm

/-- A second node, with a second pod. -/
def twoHostCluster : Cluster :=
  { proxyCluster innerNode with
    nodes := (proxyCluster innerNode).nodes.put
      { innerNode with name := "other", addresses := [⟨.internalIP, "192.0.2.2"⟩] }
    pods := [proxyPod, { proxyPod with name := "node-proxy-a-b-c-1", hostIP := "192.0.2.2" }] }

/-- The server lists nodes and pods in one order, and in the other. -/
def listed (backwards : Bool) : Oracle where
  order := if backwards then ["other", "node"] else ["node", "other"]
  podsBackwards := backwards

theorem proxy_annotations_order_twoHosts :
    ∃ log₁ log₂ s₁ s₂ w₁ w₂,
      Prog.eval (answer (listed false)) (reconcileNPNormal plainEnv ⟨1, serviceA⟩) twoHostCluster =
        some (.ok (), s₁) ∧
      Prog.eval (answer (listed true)) (reconcileNPNormal plainEnv ⟨1, serviceA⟩) twoHostCluster =
        some (.ok (), s₂) ∧
      Prog.Run (exec {}) twoHostCluster (reconcileNPNormal plainEnv ⟨1, serviceA⟩) log₁ (.ok ()) s₁ ∧
      Prog.Run (exec {}) twoHostCluster (reconcileNPNormal plainEnv ⟨1, serviceA⟩) log₂ (.ok ()) s₂ ∧
      s₁.services.get serviceA.key = some w₁ ∧ s₂.services.get serviceA.key = some w₂ ∧
      w₁.obj.annotations.get nodeProxyInternalIPAnnotationKey = some "192.0.2.1,192.0.2.2" ∧
      w₁.obj = w₂.obj := by
  have heval : (Prog.eval (answer (listed false)) (reconcileNPNormal plainEnv ⟨1, serviceA⟩)
        twoHostCluster).map (fun x => (x.1, (x.2.services.get serviceA.key).map fun w =>
          w.obj.annotations.get nodeProxyInternalIPAnnotationKey)) =
        some (.ok (), some (some "192.0.2.1,192.0.2.2")) ∧
      (Prog.eval (answer (listed true)) (reconcileNPNormal plainEnv ⟨1, serviceA⟩)
        twoHostCluster).map (fun x => x.1) = some (.ok ()) ∧
      twoHostCluster.services.get serviceA.key = some ⟨1, serviceA⟩ ∧
      proxyKind serviceA = some .deployment ∧
      (twoHostCluster.workloads.get (proxyKey plainEnv serviceA.key .deployment)).isSome := by
    decide +kernel
  obtain ⟨h₁, h₂, hv, hkind, hwork⟩ := heval
  obtain ⟨⟨_, s₁⟩, hs₁, hx₁⟩ := Option.map_eq_some_iff.mp h₁
  obtain ⟨⟨_, s₂⟩, hs₂, rfl⟩ := Option.map_eq_some_iff.mp h₂
  obtain ⟨rfl, hann⟩ := Prod.mk.inj hx₁
  have hans := fun b => exec_of_steady (listed b) (f := {})
  obtain ⟨log₁, hrun₁⟩ := Prog.run_eval (hans false) hs₁
  obtain ⟨log₂, hrun₂⟩ := Prog.run_eval (hans true) hs₂
  obtain ⟨w₁, w₂, hw₁, hw₂, hobj, -⟩ :=
    proxy_annotations_order (v := ⟨1, serviceA⟩) rfl hv hkind hwork hrun₁ hrun₂
  rw [hw₁] at hann
  exact ⟨log₁, log₂, s₁, s₂, w₁, w₂, hs₁, hs₂, hrun₁, hrun₂, hw₁, hw₂, Option.some.inj hann, hobj⟩

end OpenELB
