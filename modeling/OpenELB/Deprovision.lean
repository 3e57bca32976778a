import OpenELB.ReconcileRuns

/-! # Letting go of a service

A service that is no longer to have an address (`needRelease`) should lose its
record, its status, its label and the finalizer.  `ConstructRequest` asks for no
release at all if the annotations are nil, or if there is neither a record nor an
address in the status.  `updateReconcileResult` writes the service only if its labels
change; but a released service has an empty list of addresses where the stored one has nil
or an address, so its status is always written, and the finalizers with it.
`deprovision_iff` says exactly when a `Reconcile` that returns has done all of it. -/
namespace OpenELB
open Go Code

/-- Nothing is left of an allocation: no record, no address in the status, no label
and no finalizer. -/
def Deprovisioned (k : NamespacedName) (s : Cluster) : Prop :=
  Free k.text s ∧ ∀ svc, s.service k = some svc →
    svc.ingress.getD [] = [] ∧ svc.labels.get openELBEIPAnnotationKeyV1Alpha2 = none ∧
      finalizerName ∉ svc.finalizers

/-- A release takes everything: the status changes, so the finalizers are written with it. -/
theorem withResult_released {svc svc' : Service} (hcoded : svc.ingress ≠ some [])
    (h : svc.withResult svc.released = some svc') :
    svc'.ingress.getD [] = [] ∧ svc'.labels.get openELBEIPAnnotationKeyV1Alpha2 = none ∧
      finalizerName ∉ svc'.finalizers := by
  have hstored := storedAs_of_withResult h rfl rfl rfl
  refine ⟨hstored.ingress, ?_, ?_⟩
  · rw [hstored.labels]
    exact Map.get_delete_self _ _
  · rw [hstored.finalizers (.inr hcoded)]
    simp [Service.released, removeFinalizer]

/-- **When deprovisioning is complete.**  A `Reconcile` that returns, of a service that
is to be released and has the finalizer, has left nothing behind if and only if
the service has annotations at all, and has a record or an address in its status.  An
empty list of addresses is stored as nil, so the service that was read has none. -/
theorem deprovision_iff {f : Faults} (hf : f.stale = false) {env : Env} {k : NamespacedName}
    {svc : Service} {s s' : Cluster} {l : List (Prog.Event Call Reply)}
    (hsvc : s.service k = some svc) (hcoded : svc.ingress ≠ some [])
    (hnp : hasOpenELBNPAnnotation svc.annotations = false)
    (hfin : finalizerName ∈ svc.finalizers) (hrel : needRelease svc = true)
    (honce : AtMostOnce k.text s) (h : Prog.Run (exec f) s (reconcile env k) l (.ok ()) s') :
    Deprovisioned k s' ↔
      svc.annotations.isNil = false ∧
        ((∃ name addr, k.text ∈ s.records name addr) ∨ svc.statusLBIP ≠ "") := by
  -- while the service is as it was, it has the finalizer
  have hkept : s'.service k = some svc → ¬ Deprovisioned k s' :=
    fun hsvc' hd => (hd.2 svc hsvc').2.2 hfin
  have hrun := run_reconcile_carriedOut hf hsvc hnp honce h
  obtain rfl := Cluster.service_key hsvc
  rcases hrun with ⟨hnil, rfl⟩ | ⟨hnil, E, a, req, hrec, hcarried, hwhat⟩
  · -- nil annotations: nothing is asked for
    refine iff_of_false (hkept hsvc) fun hr => ?_
    rw [hnil] at hr
    cases hr.1
  rcases hwhat with ⟨-, rfl⟩ | ⟨hrel', -⟩
  · cases hcarried with
    | nothing hr _ hs =>
      -- neither a record nor a status
      subst hs
      obtain ⟨hE, ha, hst⟩ := constructRelease_none hr
      refine iff_of_false (hkept hsvc) ?_
      rintro ⟨-, ⟨name, addr, hmem⟩ | hst'⟩
      · have hfree := hrec.freeBut honce
        rw [show E = "" from hE] at hfree
        exact hfree.free name addr hmem
      · exact hst' hst
    | released hr _ hfree hres =>
      have hsome : (∃ name addr, svc.key.text ∈ s.records name addr) ∨ svc.statusLBIP ≠ "" := by
        rcases hrec with ⟨rfl, rfl, -⟩ | hmem
        · right
          intro hst
          simp [constructRelease, Service.info, hst] at hr
        · exact .inl ⟨_, _, hmem⟩
      refine iff_of_true ⟨hfree, fun svc' hsvc' => ?_⟩ ⟨hnil, hsome⟩
      exact withResult_released hcoded (hres.symm.trans hsvc')
    | assigned ha => cases ha
  · rw [hrel] at hrel'
    cases hrel'

/-- A service that has an address of the pool. -/
def servedWeb : Service :=
  { webService with
    finalizers := [finalizerName]
    labels := Map.ofList [(openELBEIPAnnotationKeyV1Alpha2, "pool")]
    ingress := some [{ ip := "192.0.2.1" }] }

/-- The pool it has the address from. -/
def servingPool : Eip := twoAddressesReady.addEntry "192.0.2.1" "ns/web"

/-- The service is no longer of type `LoadBalancer`, and somebody has taken the label off. -/
def unlabelledWeb : Service := { servedWeb with type := .clusterIP, labels := Map.nil }

/-- Its labels do not change, and the finalizer goes with the write of the status. -/
theorem deprovision_iff_unlabelled :
    ∃ l s', Prog.Run (exec {}) (clusterOf [servingPool] [unlabelledWeb])
      (reconcile plainEnv web) l (.ok ()) s' ∧ Deprovisioned web s' := by
  have heval : Prog.returns (answer inOrder) (reconcile plainEnv web)
      (clusterOf [servingPool] [unlabelledWeb]) = some (.ok ()) := by
    decide +kernel
  obtain ⟨l, hrun⟩ := Prog.run_eval exec_of_inOrder (Prog.eval_of_returns heval)
  have honce : AtMostOnce web.text (clusterOf [servingPool] [unlabelledWeb]) :=
    .of_one "pool" "192.0.2.1" (by decide +kernel) (by decide +kernel)
  have hsvc : (clusterOf [servingPool] [unlabelledWeb]).service web = some unlabelledWeb := by
    decide +kernel
  refine ⟨l, _, hrun, ?_⟩
  refine (deprovision_iff rfl hsvc (by decide +kernel) (by decide +kernel) (by decide +kernel)
    (by decide +kernel) honce hrun).mpr ?_
  exact ⟨by decide +kernel, .inr (by decide +kernel)⟩

/-- A service is being deleted, and its annotations are gone. -/
def unannotatedWeb : Service :=
  { servedWeb with deletionTimestamp := true, annotations := Map.nil }

/-- `Reconcile` returns and does nothing: the address stays in use, and the finalizer
keeps the service from going away. -/
theorem deprovision_incomplete :
    needRelease unannotatedWeb = true ∧ isOpenELBService unannotatedWeb = true ∧
      hasOpenELBNPAnnotation unannotatedWeb.annotations = false ∧
      finalizerName ∈ unannotatedWeb.finalizers ∧
      ∃ l s', Prog.Run (exec {}) (clusterOf [servingPool] [unannotatedWeb])
          (reconcile plainEnv web) l (.ok ()) s' ∧
        (s'.service web = some unannotatedWeb ∧
          s'.records "pool" "192.0.2.1" = ["ns/web"]) := by
  refine ⟨by decide +kernel, by decide +kernel, by decide +kernel, by decide +kernel, ?_⟩
  obtain ⟨l, s', hrun, hg⟩ : ∃ l s', Prog.Run (exec {}) (clusterOf [servingPool] [unannotatedWeb])
      (reconcile plainEnv web) l (.ok ()) s' ∧
      (s'.service web, s'.records "pool" "192.0.2.1") = (some unannotatedWeb, ["ns/web"]) :=
    run_of_eval (g := fun s => (s.service web, s.records "pool" "192.0.2.1")) exec_of_inOrder
      (by decide +kernel)
  exact ⟨l, s', hrun, Prod.mk.inj hg⟩

end OpenELB
