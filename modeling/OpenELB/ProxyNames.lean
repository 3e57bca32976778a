import OpenELB.Evaluation
import OpenELB.Records

/-! # The names of node proxies

The workload of a service is named after the name and the namespace of the service, with a
dash between them.  As both may have dashes in them, two services can have one workload:
the service `a` of `b-c` and the service `a-b` of `c` (`proxies_shared`).

`proxies_apart_iff` says that all such pairs are like this one: one name goes on with a dash
and a text that the other namespace begins with. -/
namespace OpenELB
open Go Code

/-! ## Names -/

/-- A letter or digit of a DNS label. -/
def isAlnum (c : Char) : Bool := ('a' ≤ c && c ≤ 'z') || ('0' ≤ c && c ≤ '9')

/-- The names that Kubernetes accepts for namespaces (DNS-1123 labels). -/
def isDNS1123Label (s : String) : Bool :=
  decide (s.toList.length ≤ 63) && s.toList.all (fun c => isAlnum c || c == '-') &&
    s.toList.head?.any isAlnum && s.toList.getLast?.any isAlnum

/-- The names that Kubernetes accepts for services (DNS-1035 labels). -/
def isDNS1035Label (s : String) : Bool :=
  isDNS1123Label s && s.toList.head?.any fun c => 'a' ≤ c

theorem proxyRescName_eq_iff {name ns name' ns' : String} :
    proxyRescName name ns = proxyRescName name' ns' ↔
      (name = name' ∧ ns = ns') ∨ (∃ x, name = name' ++ "-" ++ x ∧ ns' = x ++ "-" ++ ns) ∨
        ∃ x, name' = name ++ "-" ++ x ∧ ns = x ++ "-" ++ ns' := by
  have hcancel : proxyRescName name ns = proxyRescName name' ns' ↔
      name ++ "-" ++ ns = name' ++ "-" ++ ns' := by
    rw [proxyRescName, proxyRescName, ← String.toList_inj, ← String.toList_inj]
    simp only [String.toList_append, List.append_assoc, List.append_cancel_left_eq]
  rw [hcancel]
  exact append_sep_inj_iff (c := '-')

/-- **The name of a workload leads back to the service.** -/
theorem svcName_proxyRescName (name ns : String) :
    svcName (proxyRescName name ns) ns = some name := by
  have hlist : (proxyRescName name ns).toList =
      nodeProxyWorkloadPrefix.toList ++ name.toList ++ ('-' :: ns.toList) := by
    rw [proxyRescName, String.toList_append, String.toList_append, String.toList_append,
      show "-".toList = ['-'] from rfl, List.append_assoc _ ['-'], List.singleton_append]
  have hlen : (proxyRescName name ns).toList.length =
      nodeProxyWorkloadPrefix.toList.length + name.toList.length + (ns.toList.length + 1) := by
    rw [hlist, List.length_append, List.length_append, List.length_cons]
  have hhi : ((proxyRescName name ns).toList.length - ns.toList.length - 1 : Int).toNat =
      (nodeProxyWorkloadPrefix.toList ++ name.toList).length := by
    rw [List.length_append]
    omega
  unfold svcName
  dsimp only
  rw [if_pos (by omega), hhi, hlist, List.take_left, List.drop_left, String.ofList_toList]

/-! ## Calls -/

/-- The workload that a call creates, updates or deletes. -/
def Call.workload? : Call → Option (WorkloadKind × NamespacedName)
  | .createWorkload w | .updateWorkload w => some w.key
  | .deleteWorkload k => some k
  | _ => none

/-- The workloads of the first service are not those of the second: they have other names,
and `reconcileNP` of the first service never creates, updates or deletes one of the second,
whatever the server does. -/
structure ProxiesApart (k k' : NamespacedName) : Prop where
  names : proxyRescName k.name k.ns ≠ proxyRescName k'.name k'.ns
  untouched : ∀ (env : Env) (f : Faults) (svc : Version Service) (s s' : Cluster)
    (log : List (Prog.Event Call Reply)) (o : Outcome Unit), svc.obj.key = k →
    Prog.Run (exec f) s (reconcileNP env svc) log o s' →
    ∀ ev ∈ log, ∀ kind, ev.call.workload? ≠
      some (kind, ⟨env.envNamespace, proxyRescName k'.name k'.ns⟩)

theorem proxyCalls_workload? (env : Env) {k k' : NamespacedName}
    (h : proxyRescName k.name k.ns ≠ proxyRescName k'.name k'.ns) :
    ProxyCalls (fun c => ∀ kind, c.workload? ≠
      some (kind, ⟨env.envNamespace, proxyRescName k'.name k'.ns⟩)) env k where
  getConfigMap _ _ := (Option.some_ne_none _).symm
  listNodes _ := (Option.some_ne_none _).symm
  updateNode _ _ := (Option.some_ne_none _).symm
  getWorkload _ _ := (Option.some_ne_none _).symm
  listPods _ _ _ _ _ := (Option.some_ne_none _).symm
  updateService _ _ := (Option.some_ne_none _).symm
  createWorkload w hw kind he := by
    rw [show w.key = _ from Option.some.inj he] at hw
    exact h (congrArg NamespacedName.name hw).symm
  updateWorkload w hw kind he := by
    rw [show w.key = _ from Option.some.inj he] at hw
    exact h (congrArg NamespacedName.name hw).symm
  deleteWorkload kind kind' he := by
    have hname := congrArg (fun k => k.2.name) (Option.some.inj he)
    exact h hname

/-- The calls of a run are those for the service: the server answers an update with the
service that was sent. -/
theorem ProxyCalls.of_run {P : Call → Prop} {env : Env} {f : Faults} {svc : Version Service}
    {s s' : Cluster} {log : List (Prog.Event Call Reply)} {o : Outcome Unit}
    (h : ProxyCalls P env svc.obj.key) (hrun : Prog.Run (exec f) s (reconcileNP env svc) log o s') :
    ∀ ev ∈ log, P ev.call := by
  unfold reconcileNP at hrun
  split at hrun
  · exact h.all_reconcileNPDelete.of_run hrun
  · unfold reconcileNPNormal at hrun
    split at hrun
    · exact h.all_runProxy.of_run hrun
    · obtain ⟨r, s₁, log', hexec, hrest, rfl⟩ := run_api hrun
      refine List.forall_mem_cons.mpr ⟨h.updateService _, ?_⟩
      cases r with
      | error e =>
        obtain ⟨rfl, -⟩ := run_fail_iff.mp hrest
        exact fun _ hev => absurd hev List.not_mem_nil
      | ok svc' =>
        obtain ⟨services, hw, -⟩ := hexec
        have hkey : svc'.obj.key = svc.obj.key := hw.key_eq fun _ _ => Service.applyUpdate_key
        rw [← hkey] at h
        exact h.all_runProxy.of_run hrest

/-- **When the workloads of two services are apart.**  Those of two different services are,
exactly if neither name goes on with a dash and a text that, with a dash after it, stands at
the front of the other namespace.  And the name of a workload always leads back to the
name of the service. -/
theorem proxies_apart_iff {k k' : NamespacedName} (hne : k ≠ k') :
    (ProxiesApart k k' ↔
      (∀ x, ¬ (k.name = k'.name ++ "-" ++ x ∧ k'.ns = x ++ "-" ++ k.ns)) ∧
        ∀ x, ¬ (k'.name = k.name ++ "-" ++ x ∧ k.ns = x ++ "-" ++ k'.ns)) ∧
      ∀ name ns, svcName (proxyRescName name ns) ns = some name := by
  refine ⟨⟨fun h => ⟨fun x hx => ?_, fun x hx => ?_⟩, fun ⟨h, h'⟩ => ?_⟩, svcName_proxyRescName⟩
  · exact h.names (proxyRescName_eq_iff.mpr (.inr (.inl ⟨x, hx⟩)))
  · exact h.names (proxyRescName_eq_iff.mpr (.inr (.inr ⟨x, hx⟩)))
  · have hnames : proxyRescName k.name k.ns ≠ proxyRescName k'.name k'.ns := by
      intro he
      rcases proxyRescName_eq_iff.mp he with ⟨hname, hns⟩ | ⟨x, hx⟩ | ⟨x, hx⟩
      · apply hne
        cases k
        cases k'
        cases hname
        cases hns
        rfl
      · exact h x hx
      · exact h' x hx
    refine ⟨hnames, fun env f svc s s' log o hkey hrun => ?_⟩
    subst hkey
    exact (proxyCalls_workload? env hnames).of_run hrun

theorem proxies_apart_iff_web :
    (⟨"default", "web"⟩ : NamespacedName) ≠ ⟨"default", "api"⟩ ∧
      ProxiesApart ⟨"default", "web"⟩ ⟨"default", "api"⟩ := by
  have hne : (⟨"default", "web"⟩ : NamespacedName) ≠ ⟨"default", "api"⟩ := by decide
  refine ⟨hne, (proxies_apart_iff hne).1.mpr ⟨fun x hx => ?_, fun x hx => ?_⟩⟩
  -- the namespaces are equally long
  · have hlen := congrArg (fun s => s.toList.length) hx.2
    simp only [String.toList_append, List.length_append] at hlen
    have hsep : "-".toList.length = 1 := rfl
    omega
  · have hlen := congrArg (fun s => s.toList.length) hx.2
    simp only [String.toList_append, List.length_append] at hlen
    have hsep : "-".toList.length = 1 := rfl
    omega

/-! ## Two services with one workload -/

/-- A service that is exposed by a Deployment of proxies. -/
def proxiedService (ns name : String) (hns : ValidName ns) (hname : ValidName name) : Service where
  ns := ns
  name := name
  annotations := Map.ofList [(openELBAnnotationKey, openELBAnnotationValue),
    (nodeProxyTypeAnnotationKey, nodeProxyTypeDeployment)]
  type := .loadBalancer
  ns_valid := hns
  name_valid := hname

theorem validName_letter : ValidName "a" := by decide
theorem validName_bc : ValidName "b-c" := by decide
theorem validName_ab : ValidName "a-b" := by decide
theorem validName_c : ValidName "c" := by decide

/-- The service `a` of `b-c`. -/
def serviceA : Service := proxiedService "b-c" "a" validName_bc validName_letter

/-- The service `a-b` of `c`, when it is being deleted. -/
def serviceAB : Service :=
  { proxiedService "c" "a-b" validName_c validName_ab with
    deletionTimestamp := true, finalizers := [nodeProxyFinalizerName] }

/-- Without failures, and with nothing to order. -/
def plainOracle : Oracle where
  order := []

/-- The Deployment of both. -/
def sharedProxy : WorkloadKind × NamespacedName :=
  (.deployment, ⟨plainEnv.envNamespace, "node-proxy-a-b-c"⟩)

/-- **Two services can have one workload.**  Their names and namespaces are valid, and both
call their Deployment `node-proxy-a-b-c`.  After the first is reconciled the Deployment is
there, and reconciling the second, which is being deleted, deletes it. -/
theorem proxies_shared :
    isDNS1035Label "a" = true ∧ isDNS1123Label "b-c" = true ∧ isDNS1035Label "a-b" = true ∧
      isDNS1123Label "c" = true ∧ serviceA.key ≠ serviceAB.key ∧
      proxyRescName "a" "b-c" = proxyRescName "a-b" "c" ∧
      ∃ l₁ s₁ l₂ s₂, Prog.Run (exec {}) (clusterOf [] [serviceA, serviceAB])
          (reconcileNP plainEnv ⟨1, serviceA⟩) l₁ (.ok ()) s₁ ∧
        (s₁.workloads.get sharedProxy).isSome = true ∧
        Prog.Run (exec {}) s₁ (reconcileNP plainEnv ⟨2, serviceAB⟩) l₂ (.ok ()) s₂ ∧
        (s₂.workloads.get sharedProxy).isSome = false := by
  have hans := exec_of_steady plainOracle (f := {})
  have heval : ((Prog.eval (answer plainOracle) (reconcileNP plainEnv ⟨1, serviceA⟩)
      (clusterOf [] [serviceA, serviceAB])).bind fun x =>
        (Prog.eval (answer plainOracle) (reconcileNP plainEnv ⟨2, serviceAB⟩) x.2).map fun y =>
          (x.1, (x.2.workloads.get sharedProxy).isSome, y.1,
            (y.2.workloads.get sharedProxy).isSome)) =
      some (.ok (), true, .ok (), false) := by decide +kernel
  obtain ⟨⟨o₁, s₁⟩, h₁, hrest⟩ := Option.bind_eq_some_iff.mp heval
  obtain ⟨⟨o₂, s₂⟩, h₂, hx⟩ := Option.map_eq_some_iff.mp hrest
  simp only [Prod.mk.injEq] at hx
  obtain ⟨rfl, hthere, rfl, hgone⟩ := hx
  obtain ⟨l₁, hrun₁⟩ := Prog.run_eval hans h₁
  obtain ⟨l₂, hrun₂⟩ := Prog.run_eval hans h₂
  exact ⟨by decide, by decide, by decide, by decide, by decide, by decide, l₁, s₁, l₂, s₂, hrun₁,
    hthere, hrun₂, hgone⟩

end OpenELB
