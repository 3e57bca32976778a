import OpenELB.ProxyNames

/-! # Cleaning up after a node proxy

A service with a node proxy keeps a finalizer until its workload is gone.  While the service
lives, a reconcile that returns has the workload of the annotated kind, and not the other
one (`onlyProxy_of_reconcileNP`).  When it is being deleted, `reconcileNPDelete` looks at the
workload of the annotated kind alone.  If that is not there, it returns and leaves the
finalizer: after somebody deleted the workload, after the annotation was changed and no
reconcile came in between, or after an attempt that deleted the workload and then failed.
And it never deletes the workload of the other kind.

`cleanup_iff` says that a reconcile that returns has cleaned up exactly if it found the
workload of the annotated kind, and not the other one. -/
namespace OpenELB
open Go Code

/-- The name of the workload of a kind. -/
def proxyKey (env : Env) (k : NamespacedName) (kind : WorkloadKind) :
    WorkloadKind × NamespacedName :=
  (kind, ⟨env.envNamespace, proxyRescName k.name k.ns⟩)

/-- The service has the workload of the kind, and not the other one. -/
structure OnlyProxy (env : Env) (k : NamespacedName) (kind : WorkloadKind) (s : Cluster) : Prop where
  there : (s.workloads.get (proxyKey env k kind)).isSome
  other : s.workloads.get (proxyKey env k kind.other) = none

/-- The stored service, if there is one, does not have the finalizer, and it has no workload
of either kind. -/
structure CleanedUp (env : Env) (k : NamespacedName) (s : Cluster) : Prop where
  finalizer : ∀ v, s.services.get k = some v → nodeProxyFinalizerName ∉ v.obj.finalizers
  workloads : ∀ kind, s.workloads.get (proxyKey env k kind) = none

theorem WorkloadKind.other_ne (kind : WorkloadKind) : kind.other ≠ kind := by
  cases kind <;> decide

theorem proxyKey_other_ne (env : Env) (k : NamespacedName) (kind : WorkloadKind) :
    proxyKey env k kind.other ≠ proxyKey env k kind := fun he =>
  kind.other_ne (congrArg Prod.fst he)

/-- A write without a condition that is answered without an error was carried out. -/
theorem WritesUnit.of_ok {σ : Type} {f : Faults} {s s' t : σ} {c : Prop} [Decidable c] {e : ApiErr}
    (h : WritesUnit f s (if c then .error e else .ok t) (.ok ()) s') : ¬ c ∧ s' = t := by
  by_cases hc : c
  · rw [if_pos hc] at h
    cases h.2
  · rw [if_neg hc] at h
    rcases h with ⟨-, hs⟩ | ⟨-, e', he, -⟩
    · exact ⟨hc, hs⟩
    · cases he

/-! ## Calls that leave the workloads alone -/

theorem workloads_of_exec {f : Faults} {c : Call} {s s' : Cluster} {r : Reply c}
    (hc : c.workload? = none) (h : exec f c s r s') : s'.workloads = s.workloads := by
  cases c with
  | createWorkload w => cases hc
  | updateWorkload w => cases hc
  | deleteWorkload k => cases hc
  | updateEip v => obtain ⟨_, -, rfl⟩ := h; rfl
  | updateEipStatus v => obtain ⟨_, -, rfl⟩ := h; rfl
  | updateService v => obtain ⟨_, -, rfl⟩ := h; rfl
  | updateServiceStatus v => obtain ⟨_, -, rfl⟩ := h; rfl
  | updateNode v => obtain ⟨_, -, rfl⟩ := h; rfl
  | _ => rw [h.1]

theorem workloads_of_run {α : Type} {f : Faults} {p : Code α} {s s' : Cluster}
    {log : List (Prog.Event Call Reply)} {o : Outcome α}
    (hp : Prog.All (fun c => c.workload? = none) p) (h : Prog.Run (exec f) s p log o s') :
    s'.workloads = s.workloads := by
  induction h with
  | ret => rfl
  | call he _ ih => exact (ih (hp.2 _)).trans (workloads_of_exec hp.1 he)

/-! ## The normal path -/

section Normal
variable {env : Env} {f : Faults} {s s' : Cluster} {log : List (Prog.Event Call Reply)}

theorem run_must_ok {α : Type} {r : Except ApiErr α} {a : α}
    (h : Prog.Run (exec f) s (must r) log (.ok a) s') : r = .ok a ∧ s' = s := by
  cases r with
  | error e => cases (run_fail_iff.mp h).2.1
  | ok b =>
    obtain ⟨-, ho, hs⟩ := run_pure_iff.mp h
    cases ho
    exact ⟨rfl, hs⟩

/-- A write without a condition that returned was carried out. -/
theorem run_must_unit {α : Type} {c : Call} {g : Reply c → Except ApiErr Unit} {p : Code α} {a : α}
    (h : Prog.Run (exec f) s (api c >>= fun r => must (g r) >>= fun _ => p : Code α) log (.ok a) s') :
    ∃ r s₁ log', exec f c s r s₁ ∧ g r = .ok () ∧ Prog.Run (exec f) s₁ p log' (.ok a) s' := by
  obtain ⟨r, s₁, log₁, hexec, hrest, -⟩ := run_api h
  obtain ⟨u, l₁, l₂, s₂, hmust, hrun, -⟩ := run_bind_ok hrest
  obtain ⟨hr, rfl⟩ := run_must_ok hmust
  exact ⟨r, _, l₂, hexec, hr, hrun⟩

/-- Making the workload only reads. -/
theorem run_newProxyResc {kind : WorkloadKind} {svc : Service} {w : Workload}
    (h : Prog.Run (exec f) s (newProxyResc env kind svc) log (.ok w) s') :
    w.key = proxyKey env svc.key kind ∧ s'.workloads = s.workloads := by
  refine ⟨?_, workloads_of_run (all_newProxyResc (fun _ => rfl) kind svc) h⟩
  unfold newProxyResc at h
  obtain ⟨proxy, l₁, l₂, s₁, -, h₁, -⟩ := run_bind_ok h
  obtain ⟨forward, l₃, l₄, s₂, -, h₂, -⟩ := run_bind_ok h₁
  obtain ⟨-, ho, -⟩ := run_pure_iff.mp h₂
  cases ho
  rfl

/-- Once the workload of the kind is written, the service has that one. -/
theorem onlyProxy_of_put {k : NamespacedName} {kind : WorkloadKind} {w : Workload}
    (hw : w.key = proxyKey env k kind) (hother : s.workloads.get (proxyKey env k kind.other) = none)
    (h : s'.workloads = s.workloads.put w) : OnlyProxy env k kind s' := by
  constructor
  · rw [h, ← hw, VStore.get_put_self]
    rfl
  · rw [h, VStore.get_put, if_neg (by rw [hw]; exact proxyKey_other_ne env k kind)]
    exact hother

theorem onlyProxy_of_updateProxy {v : Version Service} {kind : WorkloadKind}
    {external internal : List String}
    (hother : s.workloads.get (proxyKey env v.obj.key kind.other) = none)
    (h : Prog.Run (exec f) s (updateProxy env v kind external internal) log (.ok ()) s') :
    OnlyProxy env v.obj.key kind s' := by
  unfold updateProxy at h
  obtain ⟨w, l₁, l₂, s₁, hnew, hrest, -⟩ := run_bind_ok h
  obtain ⟨hw, hs₁⟩ := run_newProxyResc hnew
  obtain ⟨r, s₂, l₃, hexec, hr, hrun⟩ := run_must_unit hrest
  -- what comes after the write does not touch the workloads
  have hafter := workloads_of_run (by
    refine all_api rfl fun r => ?_
    split
    · trivial
    · trivial
    · exact all_api rfl fun r => all_bind (all_must r) fun _ => trivial) hrun
  refine onlyProxy_of_put hw hother (hafter.trans ?_)
  subst hr
  obtain ⟨-, rfl⟩ := WritesUnit.of_ok hexec
  rw [hs₁]

theorem onlyProxy_of_ensureProxy {v : Version Service} {kind : WorkloadKind}
    {external internal : List String}
    (hother : s.workloads.get (proxyKey env v.obj.key kind.other) = none)
    (h : Prog.Run (exec f) s (ensureProxy env v kind external internal) log (.ok ()) s') :
    OnlyProxy env v.obj.key kind s' := by
  unfold ensureProxy at h
  obtain ⟨r, s₁, l₁, ⟨rfl, -⟩, hrest, -⟩ := run_api h
  rcases r with (_ | _ | msg) | w
  · obtain ⟨w, l₂, l₃, s₂, hnew, hcreate, -⟩ := run_bind_ok hrest
    obtain ⟨hw, hs₂⟩ := run_newProxyResc hnew
    obtain ⟨r, s₃, l₄, hexec, hr, hrun⟩ := run_must_unit hcreate
    obtain ⟨-, -, rfl⟩ := run_pure_iff.mp hrun
    refine onlyProxy_of_put hw hother ?_
    subst hr
    obtain ⟨-, rfl⟩ := WritesUnit.of_ok hexec
    rw [hs₂]
  · cases (run_fail_iff.mp hrest).2.1
  · cases (run_fail_iff.mp hrest).2.1
  · exact onlyProxy_of_updateProxy hother hrest

theorem onlyProxy_of_runProxy (hf : f.stale = false) {v : Version Service} {kind : WorkloadKind}
    (hkind : proxyKind v.obj = some kind)
    (h : Prog.Run (exec f) s (runProxy env v) log (.ok ()) s') :
    OnlyProxy env v.obj.key kind s' := by
  unfold runProxy at h
  obtain ⟨r, s₁, l₁, -, hnodes, -⟩ := run_api h
  obtain ⟨nodes, l₂, l₃, s₂, -, hlabel, -⟩ := run_bind_ok hnodes
  obtain ⟨ips, l₄, l₅, s₃, -, hrest, -⟩ := run_bind_ok hlabel
  rw [hkind] at hrest
  obtain ⟨r, s₄, l₆, ⟨rfl, hread⟩, hother, -⟩ := run_api hrest
  rcases r with (_ | _ | msg) | w
  · exact onlyProxy_of_ensureProxy (VStore.Reads.get_none hf hread) hother
  · cases (run_fail_iff.mp hother).2.1
  · cases (run_fail_iff.mp hother).2.1
  · -- the other workload is there, and is deleted
    obtain ⟨r, s₅, l₇, hexec, hr, hrun⟩ := run_must_unit hother
    subst hr
    obtain ⟨-, rfl⟩ := WritesUnit.of_ok hexec
    exact onlyProxy_of_ensureProxy (VStore.get_remove_self ..) hrun

/-- **A reconcile of a service that lives, if it returns, leaves the workload of the annotated
kind and not the other one.** -/
theorem onlyProxy_of_reconcileNP (hf : f.stale = false) {v : Version Service} {kind : WorkloadKind}
    (hv : s.services.get v.obj.key = some v) (hlive : v.obj.deletionTimestamp = false)
    (hkind : proxyKind v.obj = some kind)
    (h : Prog.Run (exec f) s (reconcileNP env v) log (.ok ()) s') :
    OnlyProxy env v.obj.key kind s' := by
  rw [reconcileNP, if_neg (by rw [hlive]; decide), reconcileNPNormal] at h
  split at h
  · exact onlyProxy_of_runProxy hf hkind h
  · obtain ⟨r, s₁, l₁, ⟨services, hw, -⟩, hrest, -⟩ := run_api h
    cases r with
    | error e => cases (run_fail_iff.mp hrest).2.1
    | ok v' =>
      -- the answer is the service with the finalizer
      have hkey : v'.obj.key = v.obj.key := hw.key_eq fun _ _ => Service.applyUpdate_key
      have hkind' : proxyKind v'.obj = some kind := by
        rcases hw.cases fun _ _ => Service.applyUpdate_key with ⟨-, e, he⟩ | ⟨w, ha, hok⟩
        · cases he
        · obtain rfl : w = v := Option.some.inj (ha.found.symm.trans hv)
          obtain ⟨-, hobj⟩ := hok v' rfl _ (if_neg fun hdel => by simp [hlive] at hdel)
          rw [hobj, ← hkind]
          simp only [proxyKind, Map.get_omitEmpty]
      rw [← hkey]
      exact onlyProxy_of_runProxy hf hkind' hrest

end Normal

/-! ## The delete path -/

section Delete
variable {env : Env} {f : Faults} {s s' : Cluster} {log : List (Prog.Event Call Reply)}
  {v : Version Service} {kind : WorkloadKind}

/-- The service without the finalizer. -/
def Service.dropProxyFinalizer (svc : Service) : Service :=
  { svc with finalizers := removeFinalizer svc.finalizers nodeProxyFinalizerName }

/-- What is stored after the update that removes the finalizer does not have it. -/
theorem finalizer_notMem_of_writes {services : VStore Service.key}
    {r : Except ApiErr (Version Service)} {v' w : Version Service} (hr : r = .ok v')
    (hw : VStore.Writes f s.services ⟨v.rv, v.obj.dropProxyFinalizer⟩
      v.obj.dropProxyFinalizer.applyUpdate r services)
    (hget : services.get v.obj.key = some w) : nodeProxyFinalizerName ∉ w.obj.finalizers := by
  rcases hw.cases fun _ _ => Service.applyUpdate_key with ⟨-, e, he⟩ | ⟨old, ha, -⟩
  · cases hr.symm.trans he
  · have hobj := ha.obj
    rw [show services.get (Service.key v.obj.dropProxyFinalizer) = some w from hget,
      Option.map_some] at hobj
    unfold Service.applyUpdate at hobj
    split at hobj
    · cases hobj
    · rw [Option.some.inj hobj]
      simp [Service.dropProxyFinalizer, removeFinalizer]

/-- What a reconcile of a service that is being deleted has done if it returns: nothing where
it did not find the workload, and otherwise both of its writes. -/
theorem run_reconcileNPDelete (hf : f.stale = false)
    (hfin : nodeProxyFinalizerName ∈ v.obj.finalizers) (hkind : proxyKind v.obj = some kind)
    (h : Prog.Run (exec f) s (reconcileNPDelete env v) log (.ok ()) s') :
    (s.workloads.get (proxyKey env v.obj.key kind) = none ∧ s' = s) ∨
      (s.workloads.get (proxyKey env v.obj.key kind)).isSome ∧
        s'.workloads = s.workloads.remove (proxyKey env v.obj.key kind) ∧
        ∀ w, s'.services.get v.obj.key = some w → nodeProxyFinalizerName ∉ w.obj.finalizers := by
  rw [reconcileNPDelete, if_pos hfin, hkind] at h
  obtain ⟨r, s₁, l₁, ⟨rfl, hread⟩, hrest, -⟩ := run_api h
  rcases r with (_ | _ | msg) | w
  · obtain ⟨-, -, rfl⟩ := run_pure_iff.mp hrest
    exact .inl ⟨VStore.Reads.get_none hf hread, rfl⟩
  · cases (run_fail_iff.mp hrest).2.1
  · cases (run_fail_iff.mp hrest).2.1
  · obtain ⟨r, s₂, l₂, hexec, hr, hupdate⟩ := run_must_unit hrest
    subst hr
    obtain ⟨hthere, rfl⟩ := WritesUnit.of_ok hexec
    obtain ⟨r, s₃, l₃, ⟨services, hw, rfl⟩, hlast, -⟩ := run_api hupdate
    obtain ⟨v', l₄, l₅, s₄, hmust, hret, -⟩ := run_bind_ok hlast
    obtain ⟨hr, rfl⟩ := run_must_ok hmust
    obtain ⟨-, -, rfl⟩ := run_pure_iff.mp hret
    have hsome : (s₁.workloads.get (proxyKey env v.obj.key kind)).isSome := by
      rw [Option.isSome_iff_ne_none]
      exact fun hnone => hthere (by rw [Option.isNone_iff_eq_none]; exact hnone)
    exact .inr ⟨hsome, rfl, fun w hget => finalizer_notMem_of_writes hr hw hget⟩

/-- It can return where it does not find the workload. -/
theorem exists_run_notFound (hfin : nodeProxyFinalizerName ∈ v.obj.finalizers)
    (hkind : proxyKind v.obj = some kind)
    (hnone : s.workloads.get (proxyKey env v.obj.key kind) = none) :
    ∃ log, Prog.Run (exec f) s (reconcileNPDelete env v) log (.ok ()) s := by
  rw [reconcileNPDelete, if_pos hfin, hkind]
  have hread : exec f (.getWorkload (proxyKey env v.obj.key kind)) s (.error .notFound) s :=
    ⟨rfl, .inl hnone⟩
  exact ⟨_, run_of_api hread (run_pure_iff.mpr ⟨rfl, rfl, rfl⟩)⟩

/-- And where it finds it: both writes can go through. -/
theorem exists_run_found (hf : f.stale = false) (hv : s.services.get v.obj.key = some v)
    (hfin : nodeProxyFinalizerName ∈ v.obj.finalizers) (hkind : proxyKind v.obj = some kind)
    (hsome : (s.workloads.get (proxyKey env v.obj.key kind)).isSome) :
    ∃ log s', Prog.Run (exec f) s (reconcileNPDelete env v) log (.ok ()) s' ∧
      s'.workloads = s.workloads.remove (proxyKey env v.obj.key kind) := by
  obtain ⟨w, hget⟩ := Option.isSome_iff_exists.mp hsome
  have hread : exec f (.getWorkload (proxyKey env v.obj.key kind)) s (.ok w) s := by
    refine ⟨rfl, ?_⟩
    simp only [VStore.Reads, hf, Bool.false_eq_true, if_false]
    exact hget
  let s₁ : Cluster := { s with workloads := s.workloads.remove (proxyKey env v.obj.key kind) }
  have hdelete : exec f (.deleteWorkload (proxyKey env v.obj.key kind)) s (.ok ()) s₁ := by
    show WritesUnit f s _ _ _
    rw [if_neg (by rw [hget]; exact Bool.false_ne_true)]
    exact .inl ⟨rfl, rfl⟩
  let sent : Version Service := ⟨v.rv, v.obj.dropProxyFinalizer⟩
  obtain ⟨v', hok⟩ : ∃ v', (s.services.write sent sent.obj.applyUpdate).1 = .ok v' := by
    rw [VStore.write, show s.services.get (Service.key sent.obj) = some v from hv]
    dsimp only
    rw [if_neg (not_not_intro rfl)]
    cases sent.obj.applyUpdate v.obj with
    | none => exact ⟨_, rfl⟩
    | some a =>
      dsimp only
      split
      · exact ⟨_, rfl⟩
      · exact ⟨_, rfl⟩
  have hupdate : exec f (.updateService sent) s₁ (.ok v')
      { s₁ with services := (s.services.write sent sent.obj.applyUpdate).2 } :=
    ⟨_, .inl (Prod.ext hok.symm rfl), rfl⟩
  rw [reconcileNPDelete, if_pos hfin, hkind]
  refine ⟨_, _, run_of_api hread (run_of_api hdelete (run_of_api hupdate
    (run_pure_iff.mpr ⟨rfl, rfl, rfl⟩))), rfl⟩

/-- It cleans up if it finds the workload of the annotated kind, and not the other one. -/
theorem cleanedUp_of_onlyProxy (hf : f.stale = false) (hdel : v.obj.deletionTimestamp = true)
    (hfin : nodeProxyFinalizerName ∈ v.obj.finalizers) (hkind : proxyKind v.obj = some kind)
    (honly : OnlyProxy env v.obj.key kind s)
    (hrun : Prog.Run (exec f) s (reconcileNP env v) log (.ok ()) s') :
    CleanedUp env v.obj.key s' := by
  rw [reconcileNP, if_pos hdel] at hrun
  rcases run_reconcileNPDelete hf hfin hkind hrun with ⟨hnone, -⟩ | ⟨-, hs', hservice⟩
  · have hthere := honly.there
    rw [hnone] at hthere
    cases hthere
  · refine ⟨hservice, fun kind' => ?_⟩
    rw [hs', VStore.get_remove]
    split
    · rfl
    · rename_i hne
      obtain rfl : kind' = kind.other := by
        cases kind' <;> cases kind <;> first | rfl | exact absurd rfl hne
      exact honly.other

/-- **A service that is deleted after a reconcile returned is cleaned up**, if its annotation
and its workloads are as the reconcile left them. -/
theorem cleanedUp_after_reconcileNP {s₁ s₂ : Cluster} {log₁ : List (Prog.Event Call Reply)}
    {v₁ : Version Service} (hf : f.stale = false) (hv : s.services.get v.obj.key = some v)
    (hlive : v.obj.deletionTimestamp = false) (hkind : proxyKind v.obj = some kind)
    (hrun : Prog.Run (exec f) s (reconcileNP env v) log (.ok ()) s₁)
    (hworkloads : s₂.workloads = s₁.workloads) (hkey : v₁.obj.key = v.obj.key)
    (hdel : v₁.obj.deletionTimestamp = true) (hfin : nodeProxyFinalizerName ∈ v₁.obj.finalizers)
    (hkind₁ : proxyKind v₁.obj = some kind)
    (hrun₁ : Prog.Run (exec f) s₂ (reconcileNP env v₁) log₁ (.ok ()) s') :
    CleanedUp env v.obj.key s' := by
  have honly := onlyProxy_of_reconcileNP hf hv hlive hkind hrun
  rw [← hkey] at honly ⊢
  refine cleanedUp_of_onlyProxy hf hdel hfin hkind₁ ⟨?_, ?_⟩ hrun₁
  · rw [hworkloads]
    exact honly.there
  · rw [hworkloads]
    exact honly.other

/-- **When a deleted service is cleaned up.**  In every state of the cluster, for every stored
service that is being deleted, is annotated for a Deployment or a DaemonSet and has the
finalizer, and whatever writes may fail: each time `reconcileNP` returns without an error
the finalizer and both workloads are gone, if and only if the workload of the annotated kind
was there before and the other one was not. -/
theorem cleanup_iff (hf : f.stale = false) (hv : s.services.get v.obj.key = some v)
    (hdel : v.obj.deletionTimestamp = true) (hfin : nodeProxyFinalizerName ∈ v.obj.finalizers)
    (hkind : proxyKind v.obj = some kind) :
    (∀ log s', Prog.Run (exec f) s (reconcileNP env v) log (.ok ()) s' →
        CleanedUp env v.obj.key s') ↔ OnlyProxy env v.obj.key kind s := by
  refine ⟨fun hall => ?_, fun honly log s' => cleanedUp_of_onlyProxy hf hdel hfin hkind honly⟩
  rw [reconcileNP, if_pos hdel] at hall
  have hthere : (s.workloads.get (proxyKey env v.obj.key kind)).isSome := by
    by_contra hnone
    obtain ⟨log, hrun⟩ := exists_run_notFound hfin hkind (by simpa using hnone)
    exact (hall log s hrun).finalizer v hv hfin
  refine ⟨hthere, ?_⟩
  obtain ⟨log, s', hrun, hs'⟩ := exists_run_found hf hv hfin hkind hthere
  have hgone := (hall log s' hrun).workloads kind.other
  rwa [hs', VStore.get_remove, if_neg (proxyKey_other_ne env v.obj.key kind)] at hgone

end Delete

/-- A service that is being deleted, with its Deployment. -/
def deletingCluster : Cluster :=
  { clusterOf [] [serviceAB] with
    workloads := VStore.empty.put
      { kind := .deployment, ns := plainEnv.envNamespace, name := "node-proxy-a-b-c" } }

theorem cleanup_iff_serviceAB :
    ∃ log s', Prog.Run (exec { writeFail := true }) deletingCluster
        (reconcileNP plainEnv ⟨1, serviceAB⟩) log (.ok ()) s' ∧
      CleanedUp plainEnv serviceAB.key s' := by
  have hv : deletingCluster.services.get serviceAB.key = some ⟨1, serviceAB⟩ := by decide +kernel
  have hkind : proxyKind serviceAB = some .deployment := by decide +kernel
  have hfin : nodeProxyFinalizerName ∈ serviceAB.finalizers := by decide
  have honly : OnlyProxy plainEnv serviceAB.key .deployment deletingCluster :=
    ⟨by decide +kernel, by decide +kernel⟩
  obtain ⟨log, s', hrun, -⟩ :=
    exists_run_found (v := ⟨1, serviceAB⟩) (f := { writeFail := true }) rfl hv hfin hkind honly.there
  have hall := (cleanup_iff (v := ⟨1, serviceAB⟩) (f := { writeFail := true }) rfl hv rfl hfin
    hkind).mpr honly
  exact ⟨log, s', hrun, hall log s' hrun⟩

/-- The service, annotated for a DaemonSet. -/
def Service.switched (svc : Service) : Service :=
  { svc with
    annotations := svc.annotations.set nodeProxyTypeAnnotationKey nodeProxyTypeDaemonSet }

/-- The annotation is changed to that of a DaemonSet, and the service is deleted. -/
def switchedAndDeleted (s : Cluster) (k : NamespacedName) : Cluster :=
  { s with services :=
      (s.services.modify k fun svc => some svc.switched).modify k Service.applyDelete }

/-- Whether the stored service has the finalizer. -/
def hasProxyFinalizer (s : Cluster) (k : NamespacedName) : Bool :=
  (s.services.get k).any fun v => nodeProxyFinalizerName ∈ v.obj.finalizers

/-- **A service can stay behind, and its workload too.**  A new service is reconciled and has a
Deployment.  Its annotation is changed to that of a DaemonSet and it is deleted.  The next
reconcile returns without an error; the finalizer and the Deployment are still there. -/
theorem cleanup_incomplete :
    ∃ l₁ s₁ v l₂ s₂, Prog.Run (exec {}) (clusterOf [] [serviceA])
        (reconcileNP plainEnv ⟨1, serviceA⟩) l₁ (.ok ()) s₁ ∧
      (switchedAndDeleted s₁ serviceA.key).services.get serviceA.key = some v ∧
      v.obj.deletionTimestamp = true ∧ proxyKind v.obj = some .daemonSet ∧
      nodeProxyFinalizerName ∈ v.obj.finalizers ∧
      Prog.Run (exec {}) (switchedAndDeleted s₁ serviceA.key) (reconcileNP plainEnv v) l₂ (.ok ())
        s₂ ∧
      hasProxyFinalizer s₂ serviceA.key = true ∧
      (s₂.workloads.get (proxyKey plainEnv serviceA.key .deployment)).isSome = true := by
  have hans := exec_of_steady plainOracle (f := {})
  have heval : ((Prog.eval (answer plainOracle) (reconcileNP plainEnv ⟨1, serviceA⟩)
      (clusterOf [] [serviceA])).bind fun x =>
        ((switchedAndDeleted x.2 serviceA.key).services.get serviceA.key).bind fun v =>
          (Prog.eval (answer plainOracle) (reconcileNP plainEnv v)
            (switchedAndDeleted x.2 serviceA.key)).map fun y =>
              ((x.1, v.obj.deletionTimestamp, proxyKind v.obj,
                decide (nodeProxyFinalizerName ∈ v.obj.finalizers)), y.1,
                hasProxyFinalizer y.2 serviceA.key,
                (y.2.workloads.get (proxyKey plainEnv serviceA.key .deployment)).isSome)) =
      some ((.ok (), true, some .daemonSet, true), .ok (), true, true) := by decide +kernel
  obtain ⟨⟨o₁, s₁⟩, h₁, hrest⟩ := Option.bind_eq_some_iff.mp heval
  obtain ⟨v, hv, hrest⟩ := Option.bind_eq_some_iff.mp hrest
  obtain ⟨⟨o₂, s₂⟩, h₂, hx⟩ := Option.map_eq_some_iff.mp hrest
  simp only [Prod.mk.injEq, decide_eq_true_eq] at hx
  obtain ⟨⟨rfl, hdel, hkind, hfin⟩, rfl, hstays, hthere⟩ := hx
  obtain ⟨l₁, hrun₁⟩ := Prog.run_eval hans h₁
  obtain ⟨l₂, hrun₂⟩ := Prog.run_eval hans h₂
  exact ⟨l₁, s₁, v, l₂, s₂, hrun₁, hv, hdel, hkind, hfin, hrun₂, hstays, hthere⟩

end OpenELB
