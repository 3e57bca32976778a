import OpenELB.Deprovision
import Mathlib.Logic.Relation

/-! # The status of a service and its record

When `Reconcile` returns for a service that is to have an address, the status and
the label should say what is recorded (`Agrees`).  Whatever `Reconcile` writes in
the end does.  But it writes nothing if `needUpdate` is false, and for a service that asks
for an address `needUpdate` only compares that with the record, and the status with the
empty text: if a `Reconcile` has moved the record and then failed to write the status, the
old address stays in it (`status_disagrees`).

That is the only way.  A `Reconcile` that fails leaves in the status what was there, or
nothing, or the address it has put on record, with its label (`Leaves`).  So in every run in
which no `Reconcile` fails after it has moved the record of a service with an address in its
status, what the status says of the record is nothing, or right (`Served`), whatever else
happens and whatever fails, and a `Reconcile` that returns leaves the two in agreement
(`status_agrees`). -/
namespace OpenELB
open Go Code

/-- The status and the label of the service say what is recorded. -/
def Agrees (k : NamespacedName) (s : Cluster) : Prop :=
  ∃ svc, s.service k = some svc ∧
    ((∃ eip addr, k.text ∈ s.records eip addr ∧ svc.ingress = some [{ ip := addr }] ∧
        svc.labels.get openELBEIPAnnotationKeyV1Alpha2 = some eip) ∨
      Free k.text s ∧ svc.ingress.getD [] = [])

/-- What the service says of its record is nothing, or right. -/
def Service.Fits (svc : Service) (eip addr : String) : Prop :=
  svc.ingress.getD [] = [] ∨ svc.ingress = some [{ ip := addr }] ∧
    ∀ label, svc.labels.get openELBEIPAnnotationKeyV1Alpha2 = some label → label = eip

/-- What each call of a `Reconcile` keeps: the service has at most one record, at an address,
and at most one address in its status. -/
structure Counted (k : NamespacedName) (s : Cluster) : Prop where
  once : AtMostOnce k.text s
  addr : ∀ eip addr, k.text ∈ s.records eip addr → addr ≠ ""
  ingress : ∀ svc, s.service k = some svc →
    svc.ingress.getD [] = [] ∨ ∃ addr, addr ≠ "" ∧ svc.ingress = some [{ ip := addr }]

/-- What whole runs keep: also, what the status says is nothing or right.  The service is no
node proxy. -/
structure Served (k : NamespacedName) (s : Cluster) : Prop extends Counted k s where
  plain : ∀ svc, s.service k = some svc → hasOpenELBNPAnnotation svc.annotations = false
  fits : ∀ svc eip addr, s.service k = some svc → k.text ∈ s.records eip addr → svc.Fits eip addr

/-! ## What `needUpdate` has compared -/

section NeedUpdate
variable {f : Faults} {env : Env} {svc : Service} {s s' : Cluster}
  {l : List (Prog.Event Call Reply)}

/-- The Eip that is chosen has a name, and is the one asked for, if one is. -/
theorem run_chooseEIP_ok {eip : String}
    (h : Prog.Run (exec f) s (chooseEIP env svc) l (.ok eip) s') :
    eip ≠ "" ∧ (svc.specifyEIP = eip ∨ svc.specifyEIP = "") := by
  rw [chooseEIP] at h
  split at h
  · rename_i hnone
    obtain ⟨e, l₁, l₂, s₁, -, hrun, rfl⟩ := run_bind_ok h
    obtain ⟨-, ho, -⟩ := run_pure_iff.mp hrun
    cases ho
    exact ⟨e.name_ne, .inr hnone⟩
  · rename_i hsome
    obtain ⟨-, ho, -⟩ := run_pure_iff.mp h
    cases ho
    exact ⟨hsome, .inl rfl⟩

theorem needUpdate_eq_false {allocatedEip allocatedIP eip : String} (heip : eip ≠ "")
    (h : (svc.infoFor allocatedEip allocatedIP eip).needUpdate = false) :
    eip = allocatedEip ∧ (svc.specifyLBIP = allocatedIP ∧ svc.statusLBIP ≠ "" ∨
      svc.specifyLBIP = "" ∧ svc.statusLBIP = allocatedIP) := by
  rw [Info.needUpdate, if_neg fun hnone => heip hnone.1] at h
  split at h
  · rename_i hcmp
    exact hcmp
  · cases h

end NeedUpdate

/-! ## What is written in the end -/

section Result
variable {svc : Service}

theorem StoredAs.ingress_eq {result svc' : Service} {addr : String} (h : StoredAs svc result svc')
    (hing : result.ingress = some [{ ip := addr }]) : svc'.ingress = some [{ ip := addr }] := by
  have heq := h.ingress
  rw [hing] at heq
  cases hsome : svc'.ingress with
  | none =>
    rw [hsome] at heq
    cases heq
  | some ingress =>
    rw [hsome] at heq
    exact congrArg some heq

/-- A service that is not being deleted is left with the address and the label. -/
theorem withResult_assigned {clone : Service} (hdel : svc.deletionTimestamp = false)
    (hclone : clone = svc ∨ clone = svc.released) (eip addr : String) :
    ∃ svc', svc.withResult (clone.assigned eip addr) = some svc' ∧
      StoredAs svc (clone.assigned eip addr) svc' ∧ svc'.ingress = some [{ ip := addr }] ∧
      svc'.labels.get openELBEIPAnnotationKeyV1Alpha2 = some eip := by
  obtain ⟨svc', hres⟩ := exists_withResult hdel (clone.assigned eip addr)
  have hstored : StoredAs svc (clone.assigned eip addr) svc' := by
    rcases hclone with rfl | rfl <;> exact storedAs_of_withResult hres rfl rfl rfl
  exact ⟨svc', hres, hstored, hstored.ingress_eq rfl,
    (hstored.labels _).trans (Map.get_set_self ..)⟩

end Result

/-! ## One `Reconcile` -/

section Reconcile
variable {f : Faults} {env : Env} {k : NamespacedName} {svc : Service} {s s' : Cluster}
  {l : List (Prog.Event Call Reply)}

theorem needRelease_eq_false (h : needRelease svc = false) :
    svc.annotations.isNil = false ∧ svc.deletionTimestamp = false := by
  rw [needRelease] at h
  simp only [Bool.or_eq_false_iff] at h
  exact ⟨h.1.1.1, h.1.1.2⟩

/-- **What a `Reconcile` of a service that is to have an address has done.**  It has found a
record, or none, chosen an Eip, or none, and carried out the request for them. -/
theorem run_reconcile_wanting (hf : f.stale = false) (hsvc : s.service k = some svc)
    (hnp : hasOpenELBNPAnnotation svc.annotations = false) (hwants : needRelease svc = false)
    (h : Prog.Run (exec f) s (reconcile env k) l (.ok ()) s') :
    ∃ v E a choice l₁ l₂, v.obj = svc ∧ s.services.get svc.key = some v ∧
      Recorded s svc.key.text E a ∧ RequestFor svc E a (svc.requestGiven E a choice) ∧
      Prog.Run (exec f) s (attempt (chooseEIP env svc)) l₁ (.ok choice) s ∧
      Prog.Run (exec f) s (carryOut v (svc.requestGiven E a choice)) l₂ (.ok ()) s' := by
  obtain ⟨v, req, l₁, l₂, hget, rfl, hreq, hcarry⟩ := run_reconcile_ok hf hsvc hnp h
  obtain rfl := Cluster.service_key hsvc
  obtain ⟨-, ⟨hnil, -⟩ | ⟨-, E, a, hrec, hfor, hwhat⟩⟩ := run_constructRequest_ok hf hreq
  · rw [(needRelease_eq_false hwants).1] at hnil
    cases hnil
  rcases hwhat with ⟨hrel, -⟩ | ⟨-, choice, l₃, hchoose, rfl⟩
  · rw [hwants] at hrel
    cases hrel
  · exact ⟨v, E, a, choice, l₃, l₂, rfl, hget, hrec, hfor, hchoose, hcarry⟩

/-- A service whose status has no address in it has an empty one. -/
theorem Counted.ingress_eq_nil (h : Counted k s) (hsvc : s.service k = some svc)
    (hst : svc.statusLBIP = "") : svc.ingress.getD [] = [] := by
  rcases h.ingress svc hsvc with h | ⟨addr, hne, h⟩
  · exact h
  · refine absurd hst ?_
    rw [Service.statusLBIP, h]
    simpa using hne

/-- **A `Reconcile` that returns leaves a status that agrees with the record.** -/
theorem agrees_of_run (hf : f.stale = false) (hs : Served k s) (hsvc : s.service k = some svc)
    (hwants : needRelease svc = false)
    (h : Prog.Run (exec f) s (reconcile env k) l (.ok ()) s') : Agrees k s' := by
  obtain ⟨-, hdel⟩ := needRelease_eq_false hwants
  obtain ⟨v, E, a, eip, l₁, l₂, rfl, hget, hrec, hfor, hchoose, hcarry⟩ :=
    run_reconcile_wanting hf hsvc (hs.plain svc hsvc) hwants h
  obtain rfl := Cluster.service_key hsvc
  cases run_carryOut_ok hf hget hs.once hrec hfor hcarry with
  | released _ _ hfree hres =>
    obtain ⟨svc', hsvc'⟩ := exists_withResult hdel v.obj.released
    exact ⟨svc', hres.trans hsvc', .inr ⟨hfree, (storedAs_of_withResult hsvc' rfl rfl rfl).ingress⟩⟩
  | @assigned allocate clone _ addr _ _ hmem hclone hres =>
    obtain ⟨svc', hsvc', -, hing, hlab⟩ := withResult_assigned hdel hclone allocate.eip addr
    exact ⟨svc', hres.trans hsvc', .inl ⟨allocate.eip, addr, hmem, hing, hlab⟩⟩
  | nothing hr ha hs' =>
    subst hs'
    refine ⟨v.obj, hsvc, ?_⟩
    cases eip with
    | error e =>
      -- no Eip, and nothing to release
      obtain ⟨hE, -, hst⟩ := constructRelease_none hr
      have hfree := hrec.freeBut hs.once
      rw [show E = "" from hE] at hfree
      exact .inr ⟨hfree.free, hs.ingress_eq_nil hsvc hst⟩
    | ok eip =>
      rcases run_attempt_ok hchoose with ⟨_, he, hok⟩ | ⟨_, he, -⟩
      · cases he
        obtain ⟨heip, -⟩ := run_chooseEIP_ok hok
        rw [Service.requestGiven] at ha
        split at ha
        · -- `needUpdate` is content: there is an address in the status, so it is the right one
          rename_i hkeep
          obtain ⟨rfl, hcmp⟩ := needUpdate_eq_false heip (by simpa using hkeep.1)
          have hmem : v.obj.key.text ∈ s'.records eip a := by
            rcases hrec with ⟨hE, -⟩ | hmem
            · exact absurd hE heip
            · exact hmem
          have hst : v.obj.statusLBIP ≠ "" := by
            rcases hcmp with ⟨-, hst⟩ | ⟨-, hst⟩
            · exact hst
            · exact hst ▸ hs.addr eip a hmem
          rcases hs.fits v.obj eip a hsvc hmem with hing | ⟨hing, hlab⟩
          · exact absurd (by rw [Service.statusLBIP, hing]; rfl) hst
          · obtain ⟨label, hlabel⟩ := Option.isSome_iff_exists.mp hkeep.2
            exact .inl ⟨eip, a, hmem, hing, hlabel.trans (congrArg some (hlab label hlabel))⟩
        · cases ha
      · cases he

end Reconcile

/-! ## A `Reconcile` that may fail -/

/-- What a `Reconcile` leaves of the service it has read, however it ends.  If there is a
record then, the status is empty, or says that record, or it is the old one. -/
def Leaves (k : NamespacedName) (svc : Service) (s' : Cluster) : Prop :=
  ∀ svc', s'.service k = some svc' →
    (∀ key, svc'.annotations.get key = svc.annotations.get key) ∧
    ∀ eip addr, k.text ∈ s'.records eip addr →
      svc'.ingress.getD [] = [] ∨
      svc'.ingress = some [{ ip := addr }] ∧
        svc'.labels.get openELBEIPAnnotationKeyV1Alpha2 = some eip ∨
      svc'.ingress = svc.ingress ∧
        ∀ label, svc'.labels.get openELBEIPAnnotationKeyV1Alpha2 = some label →
          svc.labels.get openELBEIPAnnotationKeyV1Alpha2 = some label ∨ label = eip

/-- A result that is fit to be written: the service without an address, or with the one on
record. -/
def Proper (k : NamespacedName) (result : Service) (s : Cluster) : Prop :=
  ∀ eip addr, k.text ∈ s.records eip addr →
    result.ingress.getD [] = [] ∧ result.labels.get openELBEIPAnnotationKeyV1Alpha2 = none ∨
    result.ingress = some [{ ip := addr }] ∧
      result.labels.get openELBEIPAnnotationKeyV1Alpha2 = some eip

section Leaves
variable {f : Faults} {env : Env} {k : NamespacedName} {svc : Service} {s s' : Cluster}
  {l : List (Prog.Event Call Reply)} {o : Outcome Unit}

theorem leaves_of_service (h : s'.service k = some svc) : Leaves k svc s' := by
  intro svc' hsvc'
  obtain rfl := Option.some.inj (h.symm.trans hsvc')
  exact ⟨fun _ => rfl, fun _ _ _ => .inr (.inr ⟨rfl, fun _ => .inl⟩)⟩

theorem leaves_of_get {v : Version Service} (hget : s.services.get v.obj.key = some v)
    (h : s'.services = s.services) : Leaves v.obj.key v.obj s' :=
  leaves_of_service (Cluster.service_of_get (h ▸ hget))

theorem Service.withResult_self (svc : Service) : svc.withResult svc = some svc := by
  simp [Service.withResult, Service.withIngress]

/-- The writes of a result, of which any may fail. -/
theorem leaves_of_updateReconcileResult {v : Version Service} {clone : Service}
    (hget : s.services.get v.obj.key = some v)
    (hclone : clone = v.obj ∨ clone = { v.obj with
      ingress := clone.ingress, finalizers := clone.finalizers, labels := clone.labels } ∧
        Proper v.obj.key clone s)
    (h : Prog.Run (exec f) s (updateReconcileResult v clone) l o s') :
    Leaves v.obj.key v.obj s' := by
  have hkey : clone.key = v.obj.key := by
    rcases hclone with rfl | ⟨heq, -⟩
    · rfl
    · rw [heq]
      rfl
  obtain ⟨heips, hsvc⟩ := run_updateReconcileResult hget hkey h
  rcases hclone with rfl | ⟨heq, hproper⟩
  · -- the result is the service that was read, and nothing is written
    rw [Service.withResult_self] at hsvc
    rcases hsvc with hsvc | ⟨-, hsvc | ⟨hne, -⟩⟩
    · exact leaves_of_service hsvc
    · exact leaves_of_service hsvc
    · exact absurd rfl hne
  have hann : clone.annotations = v.obj.annotations := by rw [heq]
  replace hproper : Proper v.obj.key clone s' := by
    intro eip addr hmem
    rw [Cluster.records, Cluster.eip, heips] at hmem
    exact hproper eip addr hmem
  intro svc' hsvc'
  rcases hsvc with hsvc | ⟨-, hsvc | ⟨-, hsvc⟩⟩
  · have hstored := storedAs_of_withResult (hsvc.symm.trans hsvc') hann (by rw [heq]) (by rw [heq])
    refine ⟨hstored.annotations, fun eip addr hmem => ?_⟩
    rcases hproper eip addr hmem with ⟨hing, -⟩ | ⟨hing, hlab⟩
    · exact .inl (hstored.ingress.trans hing)
    · exact .inr (.inl ⟨hstored.ingress_eq hing, (hstored.labels _).trans hlab⟩)
  · exact leaves_of_service hsvc svc' hsvc'
  · -- the labels are written, and the status is not
    have hupd := hsvc.symm.trans hsvc'
    rw [Service.applyUpdate] at hupd
    split at hupd
    · cases hupd
    cases hupd
    refine ⟨fun _ => by simp [hann], fun eip addr hmem => .inr (.inr ⟨rfl, fun label hlabel => ?_⟩)⟩
    rw [Map.get_omitEmpty] at hlabel
    rcases hproper eip addr hmem with ⟨-, hlab⟩ | ⟨-, hlab⟩
    · cases hlab.symm.trans hlabel
    · cases hlab.symm.trans hlabel
      exact .inr rfl

theorem proper_released (svc : Service) : Proper k svc.released s :=
  fun _ _ _ => .inl ⟨rfl, Map.get_delete_self _ _⟩

/-- The allocation half. -/
theorem leaves_of_allocateFor (hf : f.stale = false) {v : Version Service} {clone : Service}
    {allocate : SvcRecord} (hget : s.services.get v.obj.key = some v)
    (hclone : clone = v.obj ∨ clone = v.obj.released) (hkey : allocate.key = v.obj.key.text)
    (honce : AtMostOnce v.obj.key.text s')
    (h : Prog.Run (exec f) s (allocateFor v clone allocate) l o s') :
    Leaves v.obj.key v.obj s' := by
  rcases run_bind h with ⟨r, l₁, l₂, s₁, hassign, hrun, -⟩ | ⟨e, -, hassign⟩ | ⟨-, hassign⟩
  · rcases run_attempt_ok hassign with ⟨addr, rfl, hok⟩ | ⟨e, rfl, herr⟩
    · have hget₁ : s₁.services.get v.obj.key = some v := services_of_run (all_assignIP _ _) hok ▸ hget
      have hmem := mem_records_of_run_assignIP hf v.obj.key_valid hkey hok
      have hkey' : (clone.assigned allocate.eip addr).key = v.obj.key := by
        rcases hclone with rfl | rfl <;> rfl
      have heips := (run_updateReconcileResult hget₁ hkey' hrun).1
      refine leaves_of_updateReconcileResult hget₁ (.inr ⟨?_, fun eip a hmem' => ?_⟩) hrun
      · rcases hclone with rfl | rfl <;> rfl
      · -- there is one record, the one just made
        have hin : ∀ {eip a}, v.obj.key.text ∈ s₁.records eip a → v.obj.key.text ∈ s'.records eip a := by
          intro eip a hmem
          rwa [Cluster.records, Cluster.eip, heips]
        obtain ⟨rfl, rfl⟩ := honce.unique (hin hmem) (hin hmem')
        exact .inr ⟨rfl, Map.get_set_self ..⟩
    · have hget₁ : s₁.services.get v.obj.key = some v :=
        services_of_run (all_assignIP _ _) herr ▸ hget
      have hleaves : ∀ {l o t}, Prog.Run (exec f) s₁ (updateReconcileResult v clone) l o t →
          Leaves v.obj.key v.obj t := by
        refine fun hupd => leaves_of_updateReconcileResult hget₁ ?_ hupd
        rcases hclone with rfl | rfl
        · exact .inl rfl
        · exact .inr ⟨rfl, proper_released _⟩
      rcases run_bind hrun with ⟨r, l₃, l₄, s₂, hupd, hfail, -⟩ | ⟨e', -, hupd⟩ | ⟨-, hupd⟩
      · obtain ⟨-, -, rfl⟩ := run_fail_iff.mp hfail
        rcases run_attempt_ok hupd with ⟨_, -, hupd⟩ | ⟨_, -, hupd⟩ <;> exact hleaves hupd
      · rcases run_attempt hupd with ⟨_, ho, -⟩ | ⟨_, ho, -⟩ | ⟨ho, -⟩ <;> cases ho
      · rcases run_attempt hupd with ⟨_, ho, -⟩ | ⟨_, ho, -⟩ | ⟨-, hupd⟩
        · cases ho
        · cases ho
        · exact hleaves hupd
  · rcases run_attempt hassign with ⟨_, ho, -⟩ | ⟨_, ho, -⟩ | ⟨ho, -⟩ <;> cases ho
  · rcases run_attempt hassign with ⟨_, ho, -⟩ | ⟨_, ho, -⟩ | ⟨-, hassign⟩
    · cases ho
    · cases ho
    · exact leaves_of_get hget (services_of_run (all_assignIP _ _) hassign)

/-- Carrying out a request. -/
theorem leaves_of_carryOut (hf : f.stale = false) {v : Version Service} {req : Request}
    (hget : s.services.get v.obj.key = some v)
    (hkey : ∀ r, req.allocate = some r → r.key = v.obj.key.text)
    (honce : AtMostOnce v.obj.key.text s')
    (h : Prog.Run (exec f) s (carryOut v req) l o s') : Leaves v.obj.key v.obj s' := by
  have hfinish : ∀ {clone s₁ l}, s₁.services = s.services →
      (clone = v.obj ∨ clone = v.obj.released) →
      Prog.Run (exec f) s₁ (finish v clone req.allocate) l o s' → Leaves v.obj.key v.obj s' := by
    intro clone s₁ l hs₁ hclone hrun
    have hget₁ : s₁.services.get v.obj.key = some v := hs₁ ▸ hget
    cases ha : req.allocate with
    | none =>
      rw [ha] at hrun
      refine leaves_of_updateReconcileResult hget₁ ?_ hrun
      rcases hclone with rfl | rfl
      · exact .inl rfl
      · exact .inr ⟨rfl, proper_released _⟩
    | some allocate =>
      rw [ha] at hrun
      exact leaves_of_allocateFor hf hget₁ hclone (hkey _ ha) honce hrun
  rw [carryOut] at h
  split at h
  · exact leaves_of_get hget (congrArg _ (run_pure_iff.mp h).2.2)
  cases hr : req.release with
  | none =>
    simp only [hr, Code.pure_bind] at h
    exact hfinish rfl (.inl rfl) h
  | some release =>
    simp only [hr, Code.bind_assoc, Code.pure_bind] at h
    rcases run_bind h with ⟨_, l₁, l₂, s₁, hrel, hrun, -⟩ | ⟨e, -, hrel⟩ | ⟨-, hrel⟩
    · exact hfinish (services_of_run (all_releaseIP _) hrel) (.inr rfl) hrun
    · exact leaves_of_get hget (services_of_run (all_releaseIP _) hrel)
    · exact leaves_of_get hget (services_of_run (all_releaseIP _) hrel)

/-- **What a `Reconcile` leaves of a service, however it ends.** -/
theorem leaves_of_run (hf : f.stale = false) (hsvc : s.service k = some svc)
    (hnp : hasOpenELBNPAnnotation svc.annotations = false) (honce : AtMostOnce k.text s')
    (h : Prog.Run (exec f) s (reconcile env k) l o s') : Leaves k svc s' := by
  rw [reconcile] at h
  obtain ⟨r, s₁, l₁, ⟨rfl, hread⟩, hrun, rfl⟩ := run_api h
  rcases r with (_ | _ | msg) | v
  · exact leaves_of_service ((run_pure_iff.mp hrun).2.2 ▸ hsvc)
  · exact leaves_of_service ((run_fail_iff.mp hrun).2.2 ▸ hsvc)
  · exact leaves_of_service ((run_fail_iff.mp hrun).2.2 ▸ hsvc)
  have hget := hread.get hf
  obtain rfl : v.obj = svc := Option.some.inj ((Cluster.service_of_get hget).symm.trans hsvc)
  obtain rfl := Cluster.service_key hsvc
  dsimp only at hrun
  rw [if_neg (by simp [hnp])] at hrun
  rcases run_bind hrun with ⟨req, l₂, l₃, s₂, hreq, hcarry, -⟩ | ⟨e, -, hreq⟩ | ⟨-, hreq⟩
  · refine leaves_of_carryOut hf (state_of_run_readOnly (all_constructRequest env v.obj) hreq ▸ hget)
      (fun r hr => ?_) honce hcarry
    obtain ⟨-, ⟨-, rfl⟩ | ⟨-, E, a, -, hfor, -⟩⟩ := run_constructRequest_ok hf hreq
    · cases hr
    · exact (hfor.allocate r hr).1
  · exact leaves_of_service (state_of_run_readOnly (all_constructRequest env v.obj) hreq ▸ hsvc)
  · exact leaves_of_service (state_of_run_readOnly (all_constructRequest env v.obj) hreq ▸ hsvc)

/-- What is recorded after a `Reconcile` that returns was recorded before, or it is what the
status says. -/
theorem fits_of_run (hf : f.stale = false) (hsvc : s.service k = some svc)
    (hnp : hasOpenELBNPAnnotation svc.annotations = false) (honce : AtMostOnce k.text s)
    (honce' : AtMostOnce k.text s') (h : Prog.Run (exec f) s (reconcile env k) l (.ok ()) s')
    {svc' : Service} (hsvc' : s'.service k = some svc') {eip addr : String}
    (hmem : k.text ∈ s'.records eip addr) :
    k.text ∈ s.records eip addr ∨ svc'.Fits eip addr := by
  have hrun := run_reconcile_carriedOut hf hsvc hnp honce h
  obtain rfl := Cluster.service_key hsvc
  rcases hrun with ⟨-, rfl⟩ | ⟨-, E, a, req, -, hcarried, -⟩
  · exact .inl hmem
  · cases hcarried with
    | nothing _ _ hs =>
      subst hs
      exact .inl hmem
    | released _ _ hfree _ => exact absurd hmem (hfree _ _)
    | @assigned allocate clone _ addr' _ _ hmem' hclone hres =>
      obtain ⟨rfl, rfl⟩ := honce'.unique hmem' hmem
      have hstored : StoredAs svc (clone.assigned allocate.eip addr') svc' := by
        rcases hclone with rfl | rfl <;>
          exact storedAs_of_withResult (hres.symm.trans hsvc') rfl rfl rfl
      refine .inr (.inr ⟨hstored.ingress_eq rfl, fun label hlabel => ?_⟩)
      exact Option.some.inj (hlabel.symm.trans ((hstored.labels _).trans (Map.get_set_self ..)))

end Leaves

/-! ## Runs -/

/-- What happens to a service besides its `Reconcile`: nothing that adds a record of it, puts an
address into its status or changes the label that goes with one, or makes it a node proxy. -/
structure Elsewhere (k : NamespacedName) (s s' : Cluster) : Prop where
  fewer : Fewer k.text s s'
  plain : ∀ svc', s'.service k = some svc' → hasOpenELBNPAnnotation svc'.annotations = false
  status : ∀ svc', s'.service k = some svc' →
    svc'.ingress = none ∨ ∃ svc, s.service k = some svc ∧ svc'.ingress = svc.ingress ∧
      svc'.labels.get openELBEIPAnnotationKeyV1Alpha2 =
        svc.labels.get openELBEIPAnnotationKeyV1Alpha2

/-- A user asks for another Eip or another address, or changes the service in some
other way. -/
def Cluster.editService (s : Cluster) (k : NamespacedName) (new : Service) : Cluster :=
  { s with services := s.services.modify k new.applyUpdate }

namespace Agreement

/-- Reads see what is stored, and everything may fail. -/
def faults : Faults := { readFail := true, writeFail := true }

/-- A service that had an address in its status has got a record that it did not have. -/
def Moved (k : NamespacedName) (s s' : Cluster) : Prop :=
  (∃ svc, s.service k = some svc ∧ svc.ingress.getD [] ≠ []) ∧
    ∃ eip addr, k.text ∈ s'.records eip addr ∧ k.text ∉ s.records eip addr

/-- One step.  A `Reconcile` of the service may end in any way, but not with an error after it
has moved the record.  An edit may change anything but the status, the label that `Reconcile`
writes and whether the service is a node proxy. -/
inductive Step (env : Env) (k : NamespacedName) (s : Cluster) : Cluster → Prop
  | reconcile {s' : Cluster} {l : List (Prog.Event Call Reply)} {o : Outcome Unit} :
      Prog.Run (exec faults) s (OpenELB.reconcile env k) l o s' → (o = .ok () ∨ ¬ Moved k s s') →
      Step env k s s'
  | edit (new : Service) : hasOpenELBNPAnnotation new.annotations = false →
      (∀ svc, s.service k = some svc → new.labels.get openELBEIPAnnotationKeyV1Alpha2 =
        svc.labels.get openELBEIPAnnotationKeyV1Alpha2) →
      Step env k s (s.editService k new)
  | elsewhere {s' : Cluster} : Elsewhere k s s' → Step env k s s'

/-- A service that has been given nothing yet. -/
structure Fresh (k : NamespacedName) (s : Cluster) : Prop where
  free : Free k.text s
  ingress : ∀ svc, s.service k = some svc → svc.ingress.getD [] = []
  plain : ∀ svc, s.service k = some svc → hasOpenELBNPAnnotation svc.annotations = false

section Steps
variable {env : Env} {k : NamespacedName} {s s' : Cluster} {l : List (Prog.Event Call Reply)}

theorem Fresh.served (h : Fresh k s) : Served k s where
  once := h.free.atMostOnce
  addr _ _ hmem := absurd hmem (h.free _ _)
  ingress svc hsvc := .inl (h.ingress svc hsvc)
  plain := h.plain
  fits _ _ _ _ hmem := absurd hmem (h.free _ _)

/-- A record that a call of `Reconcile` makes is at an address. -/
theorem addr_step {P : Cluster → Prop} (hk : k.Valid) (h : ServiceEffect k True P s s')
    (haddr : ∀ eip addr, k.text ∈ s.records eip addr → addr ≠ "") (eip addr : String)
    (hmem : k.text ∈ s'.records eip addr) : addr ≠ "" := by
  cases h with
  | kept h => exact haddr eip addr (((StatusKept.of_eips_eq h).fewer _).mem hmem)
  | released hkeys h =>
    exact haddr eip addr ((h.fewer_of_release NamespacedName.Valid.text_ne_empty hkeys).mem hmem)
  | @assigned e clone allocate a hkey ha h hfree _ =>
    by_cases hn : eip = e.name
    · subst hn
      have hbefore : ∀ a, e.deletionTimestamp = false → k.text ∉ e.listed a := by
        intro a hdel
        rw [← Cluster.records_of_eip h.found hdel]
        exact hfree trivial _ _
      rw [h.records_self] at hmem
      split at hmem
      · cases hmem
      rename_i hdel
      replace hbefore := fun a => hbefore a (by simpa using hdel)
      rcases ha.listed_eq (hkey ▸ hk.semicolon_notMem) with ⟨rfl, -⟩ | hl
      · exact absurd hmem (hbefore _)
      · rw [hl] at hmem
        split at hmem
        · rename_i heq
          exact heq ▸ (ha.hasAddr (hkey ▸ hbefore _)).ne_empty
        · exact absurd hmem (hbefore _)
    · rw [h.records_ne hn] at hmem
      exact haddr eip addr hmem

/-- **A call of `Reconcile` keeps the service to one record and one address.** -/
theorem counted_step {c : Call} {r : Reply c}
    (h : ReconcileStep faults k True (fun _ => True) c r s s') (hs : Counted k s) : Counted k s' where
  once := h.atMostOnce trivial hs.once
  addr := by
    rcases h.2 with hc | ⟨hk, hstep⟩
    · intro eip addr hmem
      have hfewer := (StatusKept.of_eips_eq (eips_of_exec hc.keepsEips h.1)).fewer k.text
      exact hs.addr eip addr (hfewer.mem hmem)
    · exact addr_step hk hstep.effect hs.addr
  ingress svc' hsvc' := by
    rcases h.ingress trivial svc' hsvc' with ⟨svc, hsvc, heq⟩ | hnone | ⟨e, addr, haddr, hing⟩
    · rw [heq]
      exact hs.ingress svc hsvc
    · exact .inl (by rw [hnone]; rfl)
    · exact .inr ⟨addr, haddr.ne_empty, hing⟩

theorem counted_of_run {o : Outcome Unit} (hs : Counted k s)
    (h : Prog.Run (exec faults) s (OpenELB.reconcile env k) l o s') : Counted k s' :=
  keeps_of_run_reconcile rfl hs.once (fun _ _ _ _ => counted_step) h hs

/-- Without the service, `Reconcile` does nothing. -/
theorem state_of_run_none {o : Outcome Unit} (hsvc : s.service k = none)
    (h : Prog.Run (exec faults) s (OpenELB.reconcile env k) l o s') : s' = s := by
  rw [OpenELB.reconcile] at h
  obtain ⟨r, s₁, l₁, ⟨rfl, hread⟩, hrun, rfl⟩ := run_api h
  rcases r with (_ | _ | msg) | v
  · exact (run_pure_iff.mp hrun).2.2
  · exact (run_fail_iff.mp hrun).2.2
  · exact (run_fail_iff.mp hrun).2.2
  · cases hsvc.symm.trans (Cluster.service_of_get (hread.get rfl))

/-- **A `Reconcile` keeps the status empty or right**, unless it fails after it has moved the
record of a service with an address in its status. -/
theorem served_of_run {o : Outcome Unit} (hs : Served k s)
    (h : Prog.Run (exec faults) s (OpenELB.reconcile env k) l o s')
    (hmoved : o = .ok () ∨ ¬ Moved k s s') : Served k s' := by
  have hcounted := counted_of_run hs.toCounted h
  cases hsvc : s.service k with
  | none => exact state_of_run_none hsvc h ▸ hs
  | some svc =>
    have hleaves := leaves_of_run rfl hsvc (hs.plain svc hsvc) hcounted.once h
    refine ⟨hcounted, fun svc' hsvc' => ?_, fun svc' eip addr hsvc' hmem => ?_⟩
    · have hann := (hleaves svc' hsvc').1
      exact (hasOpenELBNPAnnotation_congr (hann _)).trans (hs.plain svc hsvc)
    · rcases (hleaves svc' hsvc').2 eip addr hmem with hnil | ⟨hing, hlab⟩ | ⟨hing, hlab⟩
      · exact .inl hnil
      · exact .inr ⟨hing, fun label hlabel => Option.some.inj (hlabel.symm.trans hlab)⟩
      -- the status is the old one: it has an address that was on record before, or none
      by_cases hold : k.text ∈ s.records eip addr
      · rcases hs.fits svc eip addr hsvc hold with hnil | ⟨hing', hlab'⟩
        · exact .inl (by rw [hing, hnil])
        · exact .inr ⟨hing.trans hing', fun label hlabel => (hlab label hlabel).elim (hlab' label) id⟩
      by_cases hnil : svc.ingress.getD [] = []
      · exact .inl (by rw [hing, hnil])
      rcases hmoved with rfl | hmoved
      · exact (fits_of_run rfl hsvc (hs.plain svc hsvc) hs.once hcounted.once h hsvc'
          hmem).resolve_left hold
      · exact absurd ⟨⟨svc, hsvc, hnil⟩, eip, addr, hmem, hold⟩ hmoved

/-- An edit is one of the things that happen elsewhere. -/
theorem elsewhere_editService {new : Service}
    (hnp : hasOpenELBNPAnnotation new.annotations = false)
    (hlab : ∀ svc, s.service k = some svc → new.labels.get openELBEIPAnnotationKeyV1Alpha2 =
      svc.labels.get openELBEIPAnnotationKeyV1Alpha2) : Elsewhere k s (s.editService k new) := by
  have hstored : ∀ svc', (s.editService k new).service k = some svc' → ∃ svc,
      s.service k = some svc ∧ new.applyUpdate svc = some svc' := by
    intro svc' hsvc'
    rw [Cluster.service, Cluster.editService, VStore.obj_modify fun _ _ => Service.applyUpdate_key]
      at hsvc'
    exact Option.bind_eq_some_iff.mp hsvc'
  refine ⟨(StatusKept.of_eips_eq rfl).fewer _, fun svc' hsvc' => ?_, fun svc' hsvc' => .inr ?_⟩
  all_goals
    obtain ⟨svc, hsvc, hupd⟩ := hstored svc' hsvc'
    rw [Service.applyUpdate] at hupd
    split at hupd
    · cases hupd
    cases hupd
  · exact (hasOpenELBNPAnnotation_congr (Map.get_omitEmpty ..)).trans hnp
  · exact ⟨svc, hsvc, rfl, (Map.get_omitEmpty ..).trans (hlab svc hsvc)⟩

theorem served_of_elsewhere (h : Elsewhere k s s') (hs : Served k s) : Served k s' where
  once := hs.once.fewer h.fewer
  addr eip addr hmem := hs.addr eip addr (h.fewer.mem hmem)
  ingress svc' hsvc' := by
    rcases h.status svc' hsvc' with hnone | ⟨svc, hsvc, heq, -⟩
    · exact .inl (by rw [hnone]; rfl)
    · rw [heq]
      exact hs.ingress svc hsvc
  plain := h.plain
  fits svc' eip addr hsvc' hmem := by
    rcases h.status svc' hsvc' with hnone | ⟨svc, hsvc, heq, hlab⟩
    · exact .inl (by rw [hnone]; rfl)
    · rw [Service.Fits, heq, hlab]
      exact hs.fits svc eip addr hsvc (h.fewer.mem hmem)

/-- **Every step keeps the status empty or right.** -/
theorem Step.served (h : Step env k s s') (hs : Served k s) : Served k s' := by
  cases h with
  | reconcile hrun hmoved => exact served_of_run hs hrun hmoved
  | edit new hnp hlab => exact served_of_elsewhere (elsewhere_editService hnp hlab) hs
  | elsewhere h => exact served_of_elsewhere h hs

/-- **So do all runs.** -/
theorem served_of_steps (h : Relation.ReflTransGen (Step env k) s s') (hs : Served k s) :
    Served k s' := by
  induction h with
  | refl => exact hs
  | tail _ hstep ih => exact hstep.served ih

/-- **The status agrees with the record.**  In every run of a service that has been given
nothing yet, with any outcomes of its `Reconcile` calls, edits of what it asks for and anything
else in between that adds no records or addresses: if no `Reconcile` fails after it has moved
the record of the service while there is an address in its status, then one that returns, for
a service that is to have an address, leaves a status and a label that say what is recorded. -/
theorem status_agrees {s₀ : Cluster} {svc : Service} (hfresh : Fresh k s₀)
    (hsteps : Relation.ReflTransGen (Step env k) s₀ s) (hsvc : s.service k = some svc)
    (hwants : needRelease svc = false)
    (h : Prog.Run (exec faults) s (OpenELB.reconcile env k) l (.ok ()) s') : Agrees k s' :=
  agrees_of_run rfl (served_of_steps hsteps hfresh.served) hsvc hwants h

end Steps

/-! ## Runs of one service -/

/-- A new service asks for the first address of the pool. -/
def askFirst : Cluster :=
  clusterOf [twoAddressesReady] [{ webService with loadBalancerIP := "192.0.2.1" }]

/-- It has the first address. -/
def hasFirst : Service := { servedWeb with loadBalancerIP := "192.0.2.1" }

/-- It asks for the second one, when it has the first. -/
def askSecond : Service := { servedWeb with loadBalancerIP := "192.0.2.2" }

theorem fresh_askFirst : Fresh web askFirst := by
  have hsvc : askFirst.service web = some { webService with loadBalancerIP := "192.0.2.1" } := by
    decide +kernel
  refine ⟨.of_unused (by decide +kernel) _, fun svc hsvc' => ?_, fun svc hsvc' => ?_⟩
  all_goals
    obtain rfl := Option.some.inj (hsvc.symm.trans hsvc')
    decide +kernel

/-- The writes to the status of a service fail. -/
def noServiceStatus : Oracle :=
  { inOrder with
    fails := fun
      | .updateServiceStatus _ => true
      | _ => false }

theorem exec_of_noServiceStatus (c : Call) (s : Cluster) (r : Reply c) (s' : Cluster)
    (h : answer noServiceStatus c s = some (r, s')) : exec faults c s r s' :=
  exec_of_answer (.inl fun _ => rfl) (.inr rfl) c s r s' h

/-- The first write of the status fails, and is made up for when `Reconcile` is tried again.
Then the service asks for the second address and gets it. -/
theorem status_agrees_askSecond :
    ∃ (l₁ : List (Prog.Event Call Reply)) (e : Err) (s₁ s₂ : Cluster)
      (l₃ : List (Prog.Event Call Reply)) (s₃ : Cluster),
      Prog.Run (exec faults) askFirst (OpenELB.reconcile plainEnv web) l₁ (.err e) s₁ ∧
      s₁.records "pool" "192.0.2.1" = ["ns/web"] ∧
      Relation.ReflTransGen (Step plainEnv web) s₁ (s₂.editService web askSecond) ∧
      Prog.Run (exec faults) (s₂.editService web askSecond) (OpenELB.reconcile plainEnv web) l₃
        (.ok ()) s₃ ∧ Agrees web s₃ := by
  have hrun : (do
      let x ← Prog.eval (answer noServiceStatus) (OpenELB.reconcile plainEnv web) askFirst
      let y ← Prog.eval (answer inOrder) (OpenELB.reconcile plainEnv web) x.2
      let z ← Prog.eval (answer inOrder) (OpenELB.reconcile plainEnv web)
        (y.2.editService web askSecond)
      pure ((x.1, y.1, z.1), x.2.records "pool" "192.0.2.1", y.2.service web,
        (y.2.editService web askSecond).service web)) =
      some ((.err (.api (.other "failed")), .ok (), .ok ()), ["ns/web"],
        some hasFirst, some askSecond) := by
    decide +kernel
  simp only [Option.bind_eq_bind, Option.bind_eq_some_iff, Option.pure_def, Option.some.injEq,
    Prod.mk.injEq] at hrun
  obtain ⟨⟨_, s₁⟩, hx, ⟨_, s₂⟩, hy, ⟨_, s₃⟩, hz, ⟨rfl, rfl, rfl⟩, hrec, hsvc, hsvc'⟩ := hrun
  obtain ⟨l₁, hrun₁⟩ := Prog.run_eval exec_of_noServiceStatus hx
  obtain ⟨l₂, hrun₂⟩ := Prog.run_eval (exec_of_inOrder (f := faults)) hy
  obtain ⟨l₃, hrun₃⟩ := Prog.run_eval (exec_of_inOrder (f := faults)) hz
  -- the service had no address in its status when the first `Reconcile` failed
  have hfirst : Step plainEnv web askFirst s₁ := by
    refine .reconcile hrun₁ (.inr ?_)
    rintro ⟨⟨svc, hsvc, hne⟩, -⟩
    exact hne (fresh_askFirst.ingress svc hsvc)
  have hrest : Relation.ReflTransGen (Step plainEnv web) s₁ (s₂.editService web askSecond) := by
    refine (Relation.ReflTransGen.single (.reconcile hrun₂ (.inl rfl))).tail (.edit _ ?_ ?_)
    · decide +kernel
    · intro svc hsvc''
      obtain rfl := Option.some.inj (hsvc.symm.trans hsvc'')
      rfl
  refine ⟨l₁, _, s₁, s₂, l₃, s₃, hrun₁, hrec, hrest, hrun₃, ?_⟩
  exact status_agrees fresh_askFirst (hrest.head hfirst) hsvc' (by decide +kernel) hrun₃

/-- The write of the status fails after the address has been changed, and when
`Reconcile` is tried again it has nothing to do. -/
theorem status_disagrees :
    ∃ l₁ s₁ l₂ e s₂ l₃ s₃,
      Prog.Run (exec faults) askFirst (OpenELB.reconcile plainEnv web) l₁ (.ok ()) s₁ ∧
      Prog.Run (exec faults) (s₁.editService web askSecond) (OpenELB.reconcile plainEnv web) l₂
        (.err e) s₂ ∧
      s₂.service web = some askSecond ∧ needRelease askSecond = false ∧
      hasOpenELBNPAnnotation askSecond.annotations = false ∧
      Prog.Run (exec faults) s₂ (OpenELB.reconcile plainEnv web) l₃ (.ok ()) s₃ ∧
      ¬ Agrees web s₃ := by
  have hrun : (do
      let x ← Prog.eval (answer inOrder) (OpenELB.reconcile plainEnv web) askFirst
      let y ← Prog.eval (answer noServiceStatus) (OpenELB.reconcile plainEnv web)
        (x.2.editService web askSecond)
      let z ← Prog.eval (answer inOrder) (OpenELB.reconcile plainEnv web) y.2
      pure ((x.1, y.1, z.1), (y.2.service web, z.2.service web),
        z.2.records "pool" "192.0.2.2")) =
      some ((.ok (), .err (.api (.other "failed")), .ok ()), (some askSecond, some askSecond),
        ["ns/web"]) := by
    decide +kernel
  have hsvc₁ : (Prog.eval (answer inOrder) (OpenELB.reconcile plainEnv web) askFirst).map
      (fun x => x.2.service web) = some (some hasFirst) := by
    decide +kernel
  simp only [Option.bind_eq_bind, Option.bind_eq_some_iff, Option.pure_def, Option.some.injEq,
    Prod.mk.injEq] at hrun
  obtain ⟨⟨_, s₁⟩, hx, ⟨_, s₂⟩, hy, ⟨_, s₃⟩, hz, ⟨rfl, rfl, rfl⟩, ⟨hsvc₂, hsvc₃⟩, hrec⟩ := hrun
  rw [hx] at hsvc₁
  obtain ⟨l₁, hrun₁⟩ := Prog.run_eval (exec_of_inOrder (f := faults)) hx
  obtain ⟨l₂, hrun₂⟩ := Prog.run_eval exec_of_noServiceStatus hy
  obtain ⟨l₃, hrun₃⟩ := Prog.run_eval (exec_of_inOrder (f := faults)) hz
  refine ⟨l₁, s₁, l₂, _, s₂, l₃, s₃, hrun₁, hrun₂, hsvc₂, by decide +kernel, by decide +kernel,
    hrun₃, ?_⟩
  have hmem : web.text ∈ s₃.records "pool" "192.0.2.2" := by
    rw [hrec]
    decide +kernel
  have hedit : Step plainEnv web s₁ (s₁.editService web askSecond) := by
    refine .edit _ (by decide +kernel) fun svc hsvc => ?_
    obtain rfl := Option.some.inj ((Option.some.inj hsvc₁).symm.trans hsvc)
    rfl
  have hserved : Served web (s₁.editService web askSecond) :=
    hedit.served (served_of_run fresh_askFirst.served hrun₁ (.inl rfl))
  have hcounted : Counted web s₃ := counted_of_run (counted_of_run hserved.toCounted hrun₂) hrun₃
  rintro ⟨svc, hsvc', ⟨eip, addr, hmem', hing, -⟩ | ⟨hfree, -⟩⟩
  · obtain ⟨-, rfl⟩ := hcounted.once.unique hmem hmem'
    obtain rfl := Option.some.inj (hsvc₃.symm.trans hsvc')
    exact absurd hing (by decide +kernel)
  · exact hfree _ _ hmem

end Agreement
end OpenELB
