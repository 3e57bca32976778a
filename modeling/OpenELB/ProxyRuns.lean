import OpenELB.ProxyCleanup

/-! # What a node-proxy reconcile stores

`reconcileNPNormal` goes through the nodes and collects their external and internal
addresses, brings the workload up to date, and writes into the annotations of the service the
host addresses of the running proxy pods that are among them.  If no pod runs, it returns
before it comes to the annotations.

`run_reconcileNPNormal` describes a run that returns, for a service whose workload exists: the
stored service is `exposed`, which is made of the service as it was and of the lists of nodes
and of pods that the server answered with.  `SameHosts` is what the run leaves alone: the
pods, and the addresses of the nodes. -/
namespace OpenELB
open Go Code

/-! ## The objects -/

/-- The addresses of a type of one node. -/
def Node.addressesOf (type : NodeAddressType) (as : List NodeAddress) : List String :=
  (as.filter fun a => a.type = type).map NodeAddress.address

/-- The addresses of a type of the listed nodes: the keys of `nodeWithExternalIP`, or of
`nodeWithInternalIP`. -/
def nodesWithIP (type : NodeAddressType) (nodes : List (Version Node)) : List String :=
  nodes.flatMap fun node => Node.addressesOf type node.obj.addresses

/-- The host addresses of the pods that are among the given ones: `podInExternalIPNode`, or
`podInInternalIPNode`. -/
def podsIn (ips : List String) (pods : List Pod) : List String :=
  (pods.map Pod.hostIP).filter (· ∈ ips)

/-- The running proxy pods of a service. -/
def runningPods (env : Env) (k : NamespacedName) (s : Cluster) : List Pod :=
  s.pods.filter fun p => p.ns = env.envNamespace ∧
    p.labels.get "name" = some (proxyRescName k.name k.ns) ∧ p.phase = "Running"

/-- What is stored after an update of a service that is not being removed. -/
def Service.updated (stored new : Service) : Service := (new.applyUpdate stored).getD stored

theorem Service.applyUpdate_eq {stored new : Service} (hfin : new.finalizers ≠ []) :
    new.applyUpdate stored = some (stored.updated new) := by
  rw [Service.updated, Service.applyUpdate, if_neg fun hdel => hfin hdel.2]
  rfl

/-- The fields of the stored service that the reconcile reads. -/
theorem Service.updated_spec (stored new : Service) (hfin : new.finalizers ≠ []) :
    (stored.updated new).key = stored.key ∧ (stored.updated new).finalizers = new.finalizers ∧
      (stored.updated new).annotations = new.annotations.omitEmpty := by
  rw [Service.updated, Service.applyUpdate, if_neg fun hdel => hfin hdel.2]
  exact ⟨rfl, rfl, rfl⟩

/-- The service with the finalizer. -/
def Service.withProxyFinalizer (svc : Service) : Service :=
  if nodeProxyFinalizerName ∈ svc.finalizers then svc
  else svc.updated { svc with finalizers := addFinalizer svc.finalizers nodeProxyFinalizerName }

/-- The service with the host addresses of the pods in its annotations. -/
def Service.withProxyIPs (svc : Service) (external internal : List String) (pods : List Pod) :
    Service :=
  let annotations := setIPs svc.annotations nodeProxyExternalIPAnnotationKey (podsIn external pods)
  let annotations := setIPs annotations nodeProxyInternalIPAnnotationKey (podsIn internal pods)
  { svc with annotations := annotations }

/-- The service after the last write, which is not made if no pod runs. -/
def Service.withPods (svc : Service) (external internal : List String) (pods : List Pod) :
    Service :=
  if pods = [] then svc else svc.updated (svc.withProxyIPs external internal pods)

/-- **What is stored after a reconcile**, for the nodes and pods that were listed. -/
def exposed (svc : Service) (nodes : List (Version Node)) (pods : List Pod) : Service :=
  svc.withProxyFinalizer.withPods (nodesWithIP .externalIP nodes) (nodesWithIP .internalIP nodes)
    pods

/-! ## The pods and the addresses of the nodes stay -/

/-- The pods are the same, and the nodes have the same addresses. -/
structure SameHosts (s s' : Cluster) : Prop where
  pods : s'.pods = s.pods
  nodes : ∀ name, (s'.nodes.get name).map (·.obj.addresses) =
    (s.nodes.get name).map (·.obj.addresses)

theorem SameHosts.refl (s : Cluster) : SameHosts s s := ⟨rfl, fun _ => rfl⟩

theorem SameHosts.symm {s s' : Cluster} (h : SameHosts s s') : SameHosts s' s :=
  ⟨h.pods.symm, fun name => (h.nodes name).symm⟩

theorem SameHosts.trans {s₁ s₂ s₃ : Cluster} (h : SameHosts s₁ s₂) (h' : SameHosts s₂ s₃) :
    SameHosts s₁ s₃ :=
  ⟨h'.pods.trans h.pods, fun name => (h'.nodes name).trans (h.nodes name)⟩

theorem addresses_of_writes {f : Faults} {nodes nodes' : VStore Node.name} {v : Version Node}
    {r : Except ApiErr (Version Node)} (h : VStore.Writes f nodes v v.obj.applyUpdate r nodes')
    (name : String) : (nodes'.get name).map (·.obj.addresses) =
      (nodes.get name).map (·.obj.addresses) := by
  have hkey : ∀ a b, v.obj.applyUpdate a = some b → b.name = a.name := by
    intro a b hb
    rw [← Option.some.inj hb]
  rcases h.cases hkey with ⟨rfl, -⟩ | ⟨w, ha, -⟩
  · rfl
  · by_cases hname : name = v.obj.name
    · have hobj := ha.obj
      rw [hname, ha.found]
      rw [Node.applyUpdate] at hobj
      obtain ⟨w', hw', hw⟩ := Option.map_eq_some_iff.mp hobj
      rw [hw', Option.map_some, Option.map_some, hw]
    · rw [ha.frame name hname]

/-- No call moves a pod or changes an address of a node. -/
theorem sameHosts_of_exec {f : Faults} {c : Call} {s s' : Cluster} {r : Reply c}
    (h : exec f c s r s') : SameHosts s s' := by
  have hsame : (s'.pods, s'.nodes) = (s.pods, s.nodes) → SameHosts s s' := by
    intro heq
    obtain ⟨hpods, hnodes⟩ := Prod.mk.inj heq
    exact ⟨hpods, fun name => by rw [hnodes]⟩
  cases c with
  | updateNode v =>
    obtain ⟨nodes, hw, rfl⟩ := h
    exact ⟨rfl, addresses_of_writes hw⟩
  | createWorkload w => exact hsame (WritesUnit.project (fun t => (t.pods, t.nodes)) h rfl)
  | updateWorkload w => exact hsame (WritesUnit.project (fun t => (t.pods, t.nodes)) h rfl)
  | deleteWorkload k => exact hsame (WritesUnit.project (fun t => (t.pods, t.nodes)) h rfl)
  | updateEip v => obtain ⟨_, -, rfl⟩ := h; exact hsame rfl
  | updateEipStatus v => obtain ⟨_, -, rfl⟩ := h; exact hsame rfl
  | updateService v => obtain ⟨_, -, rfl⟩ := h; exact hsame rfl
  | updateServiceStatus v => obtain ⟨_, -, rfl⟩ := h; exact hsame rfl
  | _ => exact h.1 ▸ SameHosts.refl s

theorem sameHosts_of_run {α : Type} {f : Faults} {p : Code α} {s s' : Cluster}
    {log : List (Prog.Event Call Reply)} {o : Outcome α} (h : Prog.Run (exec f) s p log o s') :
    SameHosts s s' := by
  induction h with
  | ret => exact SameHosts.refl _
  | call he _ ih => exact (sameHosts_of_exec he).trans ih

/-! ## The parts of a run -/

section Parts
variable {env : Env} {f : Faults} {s s' : Cluster} {log : List (Prog.Event Call Reply)}

/-- The loop over the addresses of a node collects them, whether it labels the node or not. -/
theorem run_labelNode {node : Version Node} {as : List NodeAddress} {external internal : List String}
    {ips : List String × List String}
    (h : Prog.Run (exec f) s (labelNode node as (external, internal)) log (.ok ips) s') :
    ips = (external ++ Node.addressesOf .externalIP as,
      internal ++ Node.addressesOf .internalIP as) := by
  induction as generalizing node external internal s log with
  | nil =>
    obtain ⟨-, ho, -⟩ := run_pure_iff.mp h
    obtain rfl := Outcome.ok.inj ho
    simp [Node.addressesOf]
  | cons a as ih =>
    rw [labelNode] at h
    obtain ⟨type, address⟩ := a
    rcases type with _ | _ | _
    · dsimp only at h
      split at h
      · rw [ih h]
        simp [Node.addressesOf]
      · split at h
        · obtain ⟨-, hend, -⟩ := run_crash_iff.mp h
          contradiction
        · obtain ⟨r, s₁, l₁, -, hrest, -⟩ := run_api h
          obtain ⟨node', l₂, l₃, s₂, -, hrest, -⟩ := run_bind_ok hrest
          rw [ih hrest]
          simp [Node.addressesOf]
    · rw [ih h]
      simp [Node.addressesOf]
    · rw [ih h]
      simp [Node.addressesOf]

theorem run_labelNodes {nodes : List (Version Node)} {external internal : List String}
    {ips : List String × List String}
    (h : Prog.Run (exec f) s (labelNodes nodes (external, internal)) log (.ok ips) s') :
    ips = (external ++ nodesWithIP .externalIP nodes,
      internal ++ nodesWithIP .internalIP nodes) := by
  induction nodes generalizing external internal s log with
  | nil =>
    obtain ⟨-, ho, -⟩ := run_pure_iff.mp h
    obtain rfl := Outcome.ok.inj ho
    simp [nodesWithIP]
  | cons node nodes ih =>
    obtain ⟨ips', l₁, l₂, s₁, hnode, hrest, -⟩ := run_bind_ok h
    obtain rfl := run_labelNode hnode
    rw [ih hrest]
    simp [nodesWithIP]

/-- What a successful update of a service stores, if the service keeps a finalizer. -/
theorem updated_of_writes {services : VStore Service.key} {new : Service} {v v' : Version Service}
    (hv : s.services.get v.obj.key = some v)
    (h : VStore.Writes f s.services ⟨v.rv, new⟩ new.applyUpdate (.ok v') services)
    (hkey : new.key = v.obj.key) (hfin : new.finalizers ≠ []) :
    services.get v.obj.key = some v' ∧ v'.obj = v.obj.updated new := by
  rcases h.cases fun _ _ => Service.applyUpdate_key with ⟨-, e, he⟩ | ⟨w, ha, hok⟩
  · exact nomatch he
  · have hfound := ha.found
    rw [show Service.key (⟨v.rv, new⟩ : Version Service).obj = v.obj.key from hkey] at hfound
    obtain rfl : w = v := Option.some.inj (hfound.symm.trans hv)
    have hstored := hok v' rfl _ (Service.applyUpdate_eq hfin)
    rw [show Service.key (⟨w.rv, new⟩ : Version Service).obj = w.obj.key from hkey] at hstored
    exact hstored

/-- The service after the branch for a workload that exists. -/
theorem run_updateProxy (hf : f.stale = false) {v : Version Service} {kind : WorkloadKind}
    {external internal : List String} (hv : s.services.get v.obj.key = some v)
    (hfin : v.obj.finalizers ≠ [])
    (h : Prog.Run (exec f) s (updateProxy env v kind external internal) log (.ok ()) s') :
    ∃ pods w, pods.Perm (runningPods env v.obj.key s) ∧ s'.services.get v.obj.key = some w ∧
      w.obj = v.obj.withPods external internal pods := by
  unfold updateProxy at h
  obtain ⟨resc, l₁, l₂, s₁, hnew, hrest, -⟩ := run_bind_ok h
  have hs₁ := services_of_run (all_newProxyResc (fun _ => trivial) kind v.obj) hnew
  obtain ⟨r, s₂, l₃, hexec, -, hrun⟩ := run_must_unit hrest
  have hs₂ := services_of_exec (c := .updateWorkload resc) trivial hexec
  have hpods := ((sameHosts_of_run hnew).trans (sameHosts_of_exec hexec)).pods
  obtain ⟨r, s₃, l₄, ⟨rfl, hread⟩, hlast, -⟩ := run_api hrun
  have hget : s₃.services.get v.obj.key = some v := by rw [hs₂, hs₁, hv]
  rcases r with e | pods
  · exact nomatch (run_fail_iff.mp hlast).2.1
  · have hperm : pods.Perm (runningPods env v.obj.key s) := by
      rcases hread with hstale | hperm
      · exact absurd hstale (by rw [hf]; decide)
      · rwa [hpods] at hperm
    rcases pods with _ | ⟨p, ps⟩
    · obtain ⟨-, -, rfl⟩ := run_pure_iff.mp hlast
      exact ⟨[], v, hperm, hget, rfl⟩
    · obtain ⟨r, s₄, l₅, ⟨services, hw, rfl⟩, hmust, -⟩ := run_api hlast
      obtain ⟨w, l₆, l₇, s₅, hr, hret, -⟩ := run_bind_ok hmust
      obtain ⟨rfl, rfl⟩ := run_must_ok hr
      obtain ⟨-, -, rfl⟩ := run_pure_iff.mp hret
      obtain ⟨hstored, hobj⟩ := updated_of_writes hget hw rfl hfin
      exact ⟨p :: ps, w, hperm, hstored, hobj.trans (if_neg (List.cons_ne_nil p ps)).symm⟩

theorem run_ensureProxy (hf : f.stale = false) {v : Version Service} {kind : WorkloadKind}
    {external internal : List String} (hv : s.services.get v.obj.key = some v)
    (hfin : v.obj.finalizers ≠ [])
    (hwork : (s.workloads.get (proxyKey env v.obj.key kind)).isSome)
    (h : Prog.Run (exec f) s (ensureProxy env v kind external internal) log (.ok ()) s') :
    ∃ pods w, pods.Perm (runningPods env v.obj.key s) ∧ s'.services.get v.obj.key = some w ∧
      w.obj = v.obj.withPods external internal pods := by
  unfold ensureProxy at h
  obtain ⟨r, s₁, l₁, ⟨rfl, hread⟩, hrest, -⟩ := run_api h
  rcases r with (_ | _ | msg) | w
  · rw [show s₁.workloads.get (proxyKey env v.obj.key kind) = none from
      VStore.Reads.get_none hf hread] at hwork
    exact nomatch hwork
  · exact nomatch (run_fail_iff.mp hrest).2.1
  · exact nomatch (run_fail_iff.mp hrest).2.1
  · exact run_updateProxy hf hv hfin hrest

/-- The service after the part that follows the finalizer. -/
theorem run_runProxy (hf : f.stale = false) {v : Version Service} {kind : WorkloadKind}
    (hv : s.services.get v.obj.key = some v) (hfin : v.obj.finalizers ≠ [])
    (hkind : proxyKind v.obj = some kind)
    (hwork : (s.workloads.get (proxyKey env v.obj.key kind)).isSome)
    (h : Prog.Run (exec f) s (runProxy env v) log (.ok ()) s') :
    ∃ nodes pods w, s.nodes.Lists nodes ∧ pods.Perm (runningPods env v.obj.key s) ∧
      s'.services.get v.obj.key = some w ∧ w.obj = v.obj.withPods
        (nodesWithIP .externalIP nodes) (nodesWithIP .internalIP nodes) pods := by
  unfold runProxy at h
  obtain ⟨r, s₁, l₁, ⟨rfl, hread⟩, hrest, -⟩ := run_api h
  obtain ⟨nodes, l₂, l₃, s₂, hnodes, hlabel, -⟩ := run_bind_ok hrest
  obtain ⟨rfl, rfl⟩ := run_must_ok hnodes
  obtain ⟨ips, l₄, l₅, s₃, hips, hlast, -⟩ := run_bind_ok hlabel
  obtain rfl := run_labelNodes hips
  rw [hkind] at hlast
  obtain ⟨r, s₄, l₆, ⟨rfl, -⟩, hother, -⟩ := run_api hlast
  -- the loop over the nodes has changed nodes only
  have hserv := services_of_run (all_labelNodes (fun _ => trivial) nodes ([], [])) hips
  have hlab := workloads_of_run (all_labelNodes (fun _ => rfl) nodes ([], [])) hips
  have hpods : runningPods env v.obj.key s₄ = runningPods env v.obj.key s₂ := by
    rw [runningPods, (sameHosts_of_run hips).pods, runningPods]
  rw [← hserv] at hv
  rw [← hlab] at hwork
  rw [← hpods]
  refine ⟨nodes, ?_⟩
  simp only [VStore.ReadsAll.lists hf hread, true_and]
  rcases r with (_ | _ | msg) | old
  · exact run_ensureProxy hf hv hfin hwork hother
  · exact nomatch (run_fail_iff.mp hother).2.1
  · exact nomatch (run_fail_iff.mp hother).2.1
  · obtain ⟨r, s₅, l₇, hexec, hr, hrun⟩ := run_must_unit hother
    subst hr
    obtain ⟨-, rfl⟩ := WritesUnit.of_ok hexec
    have hthere : ((s₄.workloads.remove (proxyKey env v.obj.key kind.other)).get
        (proxyKey env v.obj.key kind)).isSome := by
      rwa [VStore.get_remove, if_neg (proxyKey_other_ne env v.obj.key kind).symm]
    exact run_ensureProxy (s := { s₄ with workloads := s₄.workloads.remove _ })
      hf hv hfin hthere hrun

end Parts

/-! ## The whole run -/

/-- **What a reconcile that returns has stored**, for a service whose workload exists. -/
theorem run_reconcileNPNormal {env : Env} {f : Faults} {s s' : Cluster}
    {log : List (Prog.Event Call Reply)} (hf : f.stale = false) {v : Version Service}
    {kind : WorkloadKind} (hv : s.services.get v.obj.key = some v)
    (hkind : proxyKind v.obj = some kind)
    (hwork : (s.workloads.get (proxyKey env v.obj.key kind)).isSome)
    (h : Prog.Run (exec f) s (reconcileNPNormal env v) log (.ok ()) s') :
    OnlyProxy env v.obj.key kind s' ∧
      ∃ nodes pods w, s.nodes.Lists nodes ∧ pods.Perm (runningPods env v.obj.key s) ∧
        s'.services.get v.obj.key = some w ∧ w.obj = exposed v.obj nodes pods := by
  unfold reconcileNPNormal at h
  unfold exposed Service.withProxyFinalizer
  by_cases hfin : nodeProxyFinalizerName ∈ v.obj.finalizers
  · rw [if_pos hfin] at h ⊢
    exact ⟨onlyProxy_of_runProxy hf hkind h,
      run_runProxy hf hv (List.ne_nil_of_mem hfin) hkind hwork h⟩
  · rw [if_neg hfin] at h ⊢
    obtain ⟨r, s₁, l₁, ⟨services, hw, rfl⟩, hmust, -⟩ := run_api h
    obtain ⟨v', l₂, l₃, s₂, hr, hrest, -⟩ := run_bind_ok hmust
    obtain ⟨rfl, rfl⟩ := run_must_ok hr
    have hne := List.ne_nil_of_mem (mem_addFinalizer v.obj.finalizers nodeProxyFinalizerName)
    obtain ⟨hget, hobj⟩ := updated_of_writes hv hw rfl hne
    -- the answer is the service with the finalizer, and nothing else has changed
    obtain ⟨hkey, hfins, hann⟩ := Service.updated_spec v.obj
      { v.obj with finalizers := addFinalizer v.obj.finalizers nodeProxyFinalizerName } hne
    rw [← hobj] at hkey hfins hann ⊢
    have hkind' : proxyKind v'.obj = some kind := by
      rw [← hkind, proxyKind, proxyKind, hann]
      simp only [Map.get_omitEmpty]
    rw [← hkey] at hget hwork ⊢
    exact ⟨onlyProxy_of_runProxy hf hkind' hrest, run_runProxy (s := { s with services := services })
      hf hget (hfins.symm ▸ hne) hkind' hwork hrest⟩

end OpenELB
