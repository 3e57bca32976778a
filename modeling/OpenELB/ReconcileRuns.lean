import OpenELB.Evaluation
import OpenELB.ServiceSteps

/-! # Runs of `Reconcile`

`ServiceReconciler.Reconcile` of one service, run alone.  Whatever the answers are
and whatever fails, it leaves the records of other services as they are
(`reconcile_frame`).  The lemmas after that say what its parts have done when they
return, with reads that are not stale; they are what the results about whole runs
are made from. -/
namespace OpenELB
open Go Code

/-! ## Other services -/

section Frame
variable {f : Faults} {k : NamespacedName} {s s' : Cluster} {env : Env}

/-- A text that may be the key of another service: it is not empty, and not the key
of `k`. -/
def OtherKey (k : NamespacedName) (key : String) : Prop := key ≠ k.text ∧ key ≠ ""

instance (k : NamespacedName) (key : String) : Decidable (OtherKey k key) :=
  inferInstanceAs (Decidable (_ ∧ _))

/-- A step of the IPAM path leaves the lists of other services alone. -/
theorem ServiceEffect.filter_listed {C : Prop} {P : Cluster → Prop} (h : ServiceEffect k C P s s')
    (hk : k.Valid) (name addr : String) :
    (s'.listed name addr).filter (OtherKey k ·) = (s.listed name addr).filter (OtherKey k ·) := by
  have hwritten : ∀ {e clone : Eip}, StatusWritten s e clone s' →
      (∀ a, (clone.listed a).filter (OtherKey k ·) = (e.listed a).filter (OtherKey k ·)) →
      (s'.listed name addr).filter (OtherKey k ·) = (s.listed name addr).filter (OtherKey k ·) := by
    intro e clone h hl
    by_cases hn : name = e.name
    · subst hn
      rw [h.listed_self, h.listed_before, hl]
    · rw [h.listed_ne hn]
  cases h with
  | kept h => rw [Cluster.listed, Cluster.eip, h, Cluster.listed, Cluster.eip]
  | @released e keys hkeys h =>
    refine hwritten h fun a => ?_
    cases hdel : e.deletionTimestamp with
    | true => rw [releaseIPFromEip, if_pos hdel]
    | false =>
      exact filter_listed_releaseIPFromEip (by simp [OtherKey]) (by simp [OtherKey]) hkeys hdel a
  | assigned hkey ha h _ _ =>
    exact hwritten h (ha.filter_listed (hkey ▸ hk.semicolon_notMem) (by simp [OtherKey, hkey]))

/-- Run alone, without any discipline. -/
theorem surroundings_any (f : Faults) (k : NamespacedName) :
    Surroundings f k False (fun _ => True) EipsLater where
  refl := EipsLater.refl
  trans _ _ _ := EipsLater.trans
  later _ _ h := h
  stable _ _ _ h := h
  services _ _ _ h := h
  stale h := h.elim
  fewer h := h.elim
  servicesLater h := h.elim

/-- **Reconciling one service does not touch the records of others.**  However a
`Reconcile` ends, the services other than its own are listed at the same addresses
of the same Eips, as often and in the same order. -/
theorem reconcile_frame (hk : k.Valid) {l : List (Prog.Event Call Reply)} {o : Outcome Unit}
    (h : Prog.Run (exec f) s (reconcile env k) l o s') (name addr : String) :
    (s'.listed name addr).filter (OtherKey k ·) = (s.listed name addr).filter (OtherKey k ·) ∧
      ∀ T : NamespacedName, T.Valid → T ≠ k →
        (T.text ∈ s'.listed name addr ↔ T.text ∈ s.listed name addr) ∧
        (s'.listed name addr).count T.text = (s.listed name addr).count T.text := by
  have hfilter : ∀ name addr, (s'.listed name addr).filter (OtherKey k ·) =
      (s.listed name addr).filter (OtherKey k ·) := by
    refine Prog.Safe.keeps EipsLater.refl (I := fun t => ∀ name addr,
      (t.listed name addr).filter (OtherKey k ·) = (s.listed name addr).filter (OtherKey k ·))
      ?_ h (safe_reconcile_steps env (fun _ => surroundings_any f k) (fun _ h => h.elim)
        fun _ _ _ _ _ => trivial)
      fun _ _ => rfl
    intro _ _ _ _ t t' hstep ht name addr
    rw [hstep.effect.filter_listed hk, ht]
  refine ⟨hfilter name addr, fun T hT hne => ?_⟩
  have hother : OtherKey k T.text :=
    ⟨fun he => hne (hT.text_inj hk he), NamespacedName.Valid.text_ne_empty⟩
  have hcount : (s'.listed name addr).count T.text = (s.listed name addr).count T.text := by
    rw [← List.count_filter (p := (OtherKey k ·)) (by simpa using hother), hfilter,
      List.count_filter (by simpa using hother)]
  refine ⟨?_, hcount⟩
  rw [← List.count_pos_iff, hcount, List.count_pos_iff]

/-- A pool with an address in use, and a service that asks for that address. -/
def sharedCluster : Cluster :=
  clusterOf [twoAddressesReady.addEntry "192.0.2.1" "ns/a"]
    [{ webService with loadBalancerIP := "192.0.2.1" }]

/-- A service that asks for an address another one has gets listed behind it. -/
theorem reconcile_frame_shared :
    ∃ l s', Prog.Run (exec {}) sharedCluster (reconcile plainEnv web) l (.ok ()) s' ∧
      s'.listed "pool" "192.0.2.1" = ["ns/a", "ns/web"] ∧
      (s'.listed "pool" "192.0.2.1").filter (OtherKey web ·) = ["ns/a"] := by
  obtain ⟨l, s', hrun, hlisted⟩ :
      ∃ l s', Prog.Run (exec {}) sharedCluster (reconcile plainEnv web) l (.ok ()) s' ∧
        s'.listed "pool" "192.0.2.1" = ["ns/a", "ns/web"] :=
    run_of_eval (g := fun s => s.listed "pool" "192.0.2.1") exec_of_inOrder (by decide +kernel)
  have hk : web.Valid := ⟨by decide, by decide⟩
  refine ⟨l, s', hrun, hlisted, ?_⟩
  rw [(reconcile_frame hk hrun "pool" "192.0.2.1").1]
  decide +kernel

end Frame

/-! ## What a run keeps -/

/-- Nothing else happens during the `Reconcile`. -/
theorem surroundings_alone {f : Faults} (hf : f.stale = false) (k : NamespacedName) :
    Surroundings f k True (fun _ => True) Eq where
  refl _ := rfl
  trans _ _ _ := Eq.trans
  later := by
    rintro s _ rfl
    exact .refl _
  stable _ _ _ h := h
  services _ _ _ h := h
  stale _ := hf
  fewer := by
    rintro - s _ rfl
    exact .refl _ _
  servicesLater := by
    rintro - s _ rfl
    exact .refl _

/-- **A `Reconcile` keeps what each of its calls keeps**, from a state with at most
one record of the service. -/
theorem keeps_of_run_reconcile {f : Faults} {env : Env} {k : NamespacedName} {s s' : Cluster}
    {l : List (Prog.Event Call Reply)} {o : Outcome Unit} {I : Cluster → Prop}
    (hf : f.stale = false) (honce : AtMostOnce k.text s)
    (hI : ∀ c r t t', ReconcileStep f k True (fun _ => True) c r t t' → I t → I t')
    (h : Prog.Run (exec f) s (reconcile env k) l o s') (hs : I s) : I s' := by
  have hsafe := safe_reconcile_steps env (fun _ => surroundings_alone hf k) (fun _ _ => honce)
    fun _ _ _ _ _ => trivial
  exact Prog.Safe.keeps (fun _ => rfl) (fun _ c r _ _ _ hstep => hI c r _ _ hstep) h hsafe hs

/-! ## What the parts have done when they return -/

section Parts
variable {f : Faults} {s s' : Cluster} {l : List (Prog.Event Call Reply)}

/-- Neither `ReleaseIP` nor `AssignIP` writes to a service. -/
theorem all_releaseIP (release : SvcRecord) :
    Prog.All Call.KeepsServices (releaseIP release) := by
  refine all_api trivial fun r => ?_
  rcases r with (_ | _ | _) | eip
  · trivial
  · trivial
  · trivial
  · refine all_api trivial fun keys => ?_
    dsimp only
    split
    · exact all_api trivial fun r => all_bind (all_must r) fun _ => trivial
    · trivial

theorem all_assignIP (ipFamilies : List IPFamily) (allocate : SvcRecord) :
    Prog.All Call.KeepsServices (assignIP ipFamilies allocate) := by
  refine all_api trivial fun r => all_bind (all_must r) fun eip => ?_
  split
  · trivial
  · trivial
  split
  · refine all_api trivial fun keys => ?_
    split
    · trivial
    · trivial
    split
    · exact all_api trivial fun r => all_bind (all_must r) fun _ => trivial
    · trivial
  · trivial

/-- A `ReleaseIP` that returns: the Eip is not there, or has nothing to release, or
it has got the status without the service. -/
theorem run_releaseIP_ok (hf : f.stale = false) {release : SvcRecord}
    (h : Prog.Run (exec f) s (releaseIP release) l (.ok ()) s') :
    s' = s ∧ s.eip release.eip = none ∨
      ∃ e keys, s.eip release.eip = some e ∧ e.status.used.Ranges keys ∧
        (s' = s ∧ releaseIPFromEip keys release.key e = e ∨
          StatusWritten s e (releaseIPFromEip keys release.key e) s') := by
  rw [releaseIP] at h
  obtain ⟨r, s₁, l₁, ⟨rfl, hread⟩, hrun, rfl⟩ := run_api h
  rcases r with (_ | _ | msg) | v
  · refine .inl ⟨(run_pure_iff.mp hrun).2.2, ?_⟩
    rw [Cluster.eip, hread.get_none hf]
    rfl
  · cases (run_fail_iff.mp hrun).2.1
  · cases (run_fail_iff.mp hrun).2.1
  · have hget := hread.get hf
    dsimp only at hrun
    obtain ⟨keys, s₂, l₂, ⟨rfl, hkeys⟩, hrun₂, rfl⟩ := run_api hrun
    refine .inr ⟨v.obj, keys, Cluster.eip_of_get hget, hkeys, ?_⟩
    split at hrun₂
    · obtain ⟨r, s₃, l₃, he, hrun₃, rfl⟩ := run_api hrun₂
      rcases r with e | w
      · cases (run_fail_iff.mp hrun₃).2.1
      · obtain ⟨-, -, rfl⟩ := run_pure_iff.mp hrun₃
        have hclone : (releaseIPFromEip keys release.key v.obj).name = v.obj.name := by
          rw [sameButUsed_releaseIPFromEip keys release.key v.obj]
        rcases exec_updateEipStatus (VStore.mem_log hget) hclone he with ⟨-, e, h⟩ | hw
        · cases h
        · exact .inr hw
    · rename_i heq
      exact .inl ⟨(run_pure_iff.mp hrun₂).2.2, not_not.mp heq⟩

/-- An `AssignIP` that returns an address has it from the stored Eip, which has got the
status with the service, or had it already. -/
theorem run_assignIP_ok (hf : f.stale = false) {ipFamilies : List IPFamily} {allocate : SvcRecord}
    {addr : String} (h : Prog.Run (exec f) s (assignIP ipFamilies allocate) l (.ok addr) s') :
    ∃ e keys clone, s.eip allocate.eip = some e ∧ e.status.used.Ranges keys ∧
      assignIPFromEip keys allocate e = .ok (addr, clone) ∧
      (s' = s ∧ clone = e ∨ StatusWritten s e clone s') := by
  rw [assignIP] at h
  obtain ⟨r, s₁, l₁, ⟨rfl, hread⟩, hrun, rfl⟩ := run_api h
  rcases r with e | v
  · cases (run_fail_iff.mp hrun).2.1
  · have hget := hread.get hf
    rw [must_ok, Code.pure_bind] at hrun
    split at hrun
    · cases (run_fail_iff.mp hrun).2.1
    · cases (run_crash_iff.mp hrun).2.1
    split at hrun
    · rw [assignFrom] at hrun
      obtain ⟨keys, s₂, l₂, ⟨rfl, hkeys⟩, hrun₂, rfl⟩ := run_api hrun
      split at hrun₂
      · cases (run_crash_iff.mp hrun₂).2.1
      · cases (run_fail_iff.mp hrun₂).2.1
      · rename_i addr' clone hassign
        split at hrun₂
        · obtain ⟨r, s₃, l₃, he, hrun₃, rfl⟩ := run_api hrun₂
          rcases r with e | w
          · cases (run_fail_iff.mp hrun₃).2.1
          · obtain ⟨-, ho, rfl⟩ := run_pure_iff.mp hrun₃
            cases ho
            have hclone : clone.name = v.obj.name := by
              rw [(assignIPFromEip_ok hassign).2.2.sameButUsed]
            rcases exec_updateEipStatus (VStore.mem_log hget) hclone he with ⟨-, e, h⟩ | hw
            · cases h
            · exact ⟨v.obj, keys, clone, Cluster.eip_of_get hget, hkeys, hassign, .inr hw⟩
        · rename_i heq
          obtain ⟨-, ho, rfl⟩ := run_pure_iff.mp hrun₂
          cases ho
          exact ⟨v.obj, keys, clone, Cluster.eip_of_get hget, hkeys, hassign,
            .inl ⟨rfl, not_not.mp heq⟩⟩
    · cases (run_fail_iff.mp hrun).2.1

/-- What a write of the status makes of the stored service, if there is one: the metadata and
the status are those of the service that is sent. -/
def Service.withIngress (svc resultSvc new stored : Service) : Option Service :=
  if svc.ingress ≠ resultSvc.ingress then
    ({ new with ingress := resultSvc.ingress } : Service).applyStatus stored
  else some stored

/-- The service that `updateReconcileResult` leaves, from the one that was read and
the result. -/
def Service.withResult (svc resultSvc : Service) : Option Service :=
  if svc.labels ≠ resultSvc.labels then
    (resultSvc.applyUpdate svc).bind fun stored => svc.withIngress resultSvc stored stored
  else svc.withIngress resultSvc resultSvc svc

/-- The stored service is the result: its metadata and its status are those of the result, and
the rest is as it was.  The finalizers come with one of the two writes. -/
structure StoredAs (svc result svc' : Service) : Prop where
  ingress : svc'.ingress.getD [] = result.ingress.getD []
  labels : ∀ key, svc'.labels.get key = result.labels.get key
  finalizers : svc.labels ≠ result.labels ∨ svc.ingress ≠ result.ingress →
    svc'.finalizers = result.finalizers
  annotations : ∀ key, svc'.annotations.get key = svc.annotations.get key
  ns : svc'.ns = svc.ns
  type : svc'.type = svc.type
  loadBalancerIP : svc'.loadBalancerIP = svc.loadBalancerIP
  deletionTimestamp : svc'.deletionTimestamp = svc.deletionTimestamp

theorem storedAs_of_withResult {svc result svc' : Service}
    (h : svc.withResult result = some svc') (hann : result.annotations = svc.annotations)
    (htype : result.type = svc.type) (hip : result.loadBalancerIP = svc.loadBalancerIP) :
    StoredAs svc result svc' := by
  rw [Service.withResult] at h
  split at h
  · -- the labels differ, and the service is written
    obtain ⟨stored, hupd, hing⟩ := Option.bind_eq_some_iff.mp h
    rw [Service.applyUpdate] at hupd
    rw [Service.withIngress] at hing
    split at hupd
    · cases hupd
    cases hupd
    split at hing
    · rw [Service.applyStatus] at hing
      split at hing
      · cases hing
      cases hing
      exact ⟨encodeSlice_getD _, fun _ => by simp, fun _ => rfl, fun _ => by simp [hann], rfl, htype,
        hip, rfl⟩
    · rename_i heq
      cases hing
      exact ⟨by rw [not_not.mp heq], fun _ => by simp, fun _ => rfl, fun _ => by simp [hann], rfl,
        htype, hip, rfl⟩
  · rename_i hlab
    rw [Service.withIngress] at h
    split at h
    · rw [Service.applyStatus] at h
      split at h
      · cases h
      cases h
      exact ⟨encodeSlice_getD _, fun _ => by simp, fun _ => rfl, fun _ => by simp [hann], rfl, rfl,
        rfl, rfl⟩
    · rename_i heq
      cases h
      refine ⟨by rw [not_not.mp heq], fun _ => by rw [not_not.mp hlab], ?_, fun _ => rfl, rfl, rfl,
        rfl, rfl⟩
      exact fun h => (h.elim hlab heq).elim

/-- A service that is not being deleted does not go away. -/
theorem exists_withResult {svc : Service} (hdel : svc.deletionTimestamp = false)
    (result : Service) : ∃ svc', svc.withResult result = some svc' := by
  have hing : ∀ new stored : Service, stored.deletionTimestamp = false →
      ∃ svc', svc.withIngress result new stored = some svc' := by
    intro new stored hdel
    rw [Service.withIngress]
    split
    · exact ⟨_, if_neg (by simp [hdel])⟩
    · exact ⟨_, rfl⟩
  rw [Service.withResult]
  split
  · rw [Service.applyUpdate, if_neg (by simp [hdel])]
    exact hing _ _ hdel
  · exact hing _ _ hdel

/-- The status half, from a version that is stored. -/
theorem run_updateIngress {svc resultSvc new : Service} {v : Version Service} {o : Outcome Unit}
    (hkey : new.key = v.obj.key) (hget : s.services.get v.obj.key = some v)
    (h : Prog.Run (exec f) s (updateIngress svc resultSvc ⟨v.rv, new⟩) l o s') :
    s'.eips = s.eips ∧ (s'.service v.obj.key = svc.withIngress resultSvc new v.obj ∨
      o ≠ .ok () ∧ s'.service v.obj.key = some v.obj) := by
  rw [updateIngress] at h
  rw [Service.withIngress]
  split at h
  · rename_i hne
    rw [if_pos hne]
    obtain ⟨r, s₁, l₁, he, hrun, rfl⟩ := run_api h
    have hkey' : ({ new with ingress := resultSvc.ingress } : Service).key = v.obj.key := hkey
    have hend : s' = s₁ ∧ ((∃ e, r = .error e) → o ≠ .ok ()) := by
      rcases r with e | w
      · obtain ⟨-, rfl, hs⟩ := run_fail_iff.mp hrun
        exact ⟨hs, fun _ => by simp⟩
      · refine ⟨(run_pure_iff.mp hrun).2.2, ?_⟩
        rintro ⟨_, h⟩
        cases h
    obtain ⟨rfl, herr⟩ := hend
    rcases exec_updateServiceStatus (VStore.mem_log hget) hkey' he with ⟨rfl, hr⟩ | ⟨hw, -⟩
    · exact ⟨rfl, .inr ⟨herr hr, Cluster.service_of_get hget⟩⟩
    · exact ⟨hw.eips, .inl hw.obj⟩
  · rename_i heq
    obtain ⟨-, -, rfl⟩ := run_pure_iff.mp h
    rw [if_neg heq]
    exact ⟨rfl, .inl (Cluster.service_of_get hget)⟩

/-- The status of a service that is gone cannot be written. -/
theorem run_updateIngress_gone {svc resultSvc : Service} {w : Version Service} {o : Outcome Unit}
    (hgone : s.service w.obj.key = none)
    (h : Prog.Run (exec f) s (updateIngress svc resultSvc w) l o s') : s' = s := by
  rw [updateIngress] at h
  split at h
  · obtain ⟨r, s₁, l₁, ⟨services, hw, rfl⟩, hrun, rfl⟩ := run_api h
    rcases hw.cases (fun _ _ => Service.applyStatus_key) with ⟨rfl, e, rfl⟩ | ⟨w', ha, -⟩
    · exact (run_fail_iff.mp hrun).2.2
    · have hfound := hgone.symm.trans (Cluster.service_of_get ha.found)
      cases hfound
  · exact (run_pure_iff.mp h).2.2

/-- **What `updateReconcileResult` leaves, however it ends**: the result, or, if it fails, the
service that was read, or that with the new labels. -/
theorem run_updateReconcileResult {svc : Version Service} {resultSvc : Service} {o : Outcome Unit}
    (hget : s.services.get svc.obj.key = some svc) (hkey : resultSvc.key = svc.obj.key)
    (h : Prog.Run (exec f) s (updateReconcileResult svc resultSvc) l o s') :
    s'.eips = s.eips ∧ (s'.service svc.obj.key = svc.obj.withResult resultSvc ∨
      o ≠ .ok () ∧ (s'.service svc.obj.key = some svc.obj ∨ svc.obj.labels ≠ resultSvc.labels ∧
        s'.service svc.obj.key = resultSvc.applyUpdate svc.obj)) := by
  rw [updateReconcileResult] at h
  rw [Service.withResult]
  split at h
  · rename_i hne
    rw [if_pos hne]
    obtain ⟨r, s₁, l₁, he, hrun, rfl⟩ := run_api h
    have hwrite := exec_updateService (VStore.mem_log hget) hkey he
    rcases r with e | w
    · obtain ⟨-, rfl, rfl⟩ := run_fail_iff.mp hrun
      rcases hwrite with ⟨rfl, -⟩ | ⟨hw, -⟩
      · exact ⟨rfl, .inr ⟨by simp, .inl (Cluster.service_of_get hget)⟩⟩
      · exact ⟨hw.eips, .inr ⟨by simp, .inr ⟨hne, hw.obj⟩⟩⟩
    · have hwkey : w.obj.key = svc.obj.key := by
        obtain ⟨_, hw, -⟩ := he
        exact (hw.key_eq fun _ _ => Service.applyUpdate_key).trans hkey
      rcases hwrite with ⟨-, e, h⟩ | ⟨hw, hok⟩
      · cases h
      · cases hupd : resultSvc.applyUpdate svc.obj with
        | some stored =>
          obtain ⟨hgetw, rfl⟩ := hok w rfl stored hupd
          obtain ⟨heips, hsvc⟩ := run_updateIngress (v := w) rfl (hwkey ▸ hgetw) hrun
          rw [hwkey] at hsvc
          exact ⟨heips.trans hw.eips, hsvc.imp_right fun h => ⟨h.1, .inr ⟨hne, h.2⟩⟩⟩
        | none =>
          have hgone : s₁.service svc.obj.key = none := hw.obj.trans hupd
          obtain rfl := run_updateIngress_gone (hwkey ▸ hgone) hrun
          exact ⟨hw.eips, .inl hgone⟩
  · rename_i heq
    rw [if_neg heq]
    obtain ⟨heips, hsvc⟩ := run_updateIngress hkey hget h
    exact ⟨heips, hsvc.imp_right fun h => ⟨h.1, .inl h.2⟩⟩

/-- An `updateReconcileResult` that returns has written the result. -/
theorem run_updateReconcileResult_ok {svc : Version Service} {resultSvc : Service}
    (hget : s.services.get svc.obj.key = some svc) (hkey : resultSvc.key = svc.obj.key)
    (h : Prog.Run (exec f) s (updateReconcileResult svc resultSvc) l (.ok ()) s') :
    s'.eips = s.eips ∧ s'.service svc.obj.key = svc.obj.withResult resultSvc := by
  obtain ⟨heips, hsvc⟩ := run_updateReconcileResult hget hkey h
  exact ⟨heips, hsvc.resolve_right fun h => h.1 rfl⟩

/-- A `ConstructRequest` that returns has changed nothing, and made the request for
what is recorded. -/
theorem run_constructRequest_ok (hf : f.stale = false) {env : Env} {svc : Service} {req : Request}
    (h : Prog.Run (exec f) s (constructRequest env svc) l (.ok req) s') :
    s' = s ∧ (svc.annotations.isNil = true ∧ req = {} ∨
      svc.annotations.isNil = false ∧ ∃ allocatedEip allocatedIP,
        Recorded s svc.key.text allocatedEip allocatedIP ∧
        RequestFor svc allocatedEip allocatedIP req ∧
        (needRelease svc = true ∧
            req = { release := constructRelease (svc.info allocatedEip allocatedIP) } ∨
          needRelease svc = false ∧ ∃ eip l₂,
            Prog.Run (exec f) s (attempt (chooseEIP env svc)) l₂ (.ok eip) s ∧
            req = svc.requestGiven allocatedEip allocatedIP eip)) := by
  obtain rfl := state_of_run_readOnly (all_constructRequest env svc) h
  refine ⟨rfl, ?_⟩
  by_cases hnil : svc.annotations.isNil = true
  · rw [constructRequest, if_pos hnil] at h
    obtain ⟨-, ho, -⟩ := run_pure_iff.mp h
    cases ho
    exact .inl ⟨hnil, rfl⟩
  · replace hnil : svc.annotations.isNil = false := by simpa using hnil
    refine .inr ⟨hnil, ?_⟩
    rw [constructRequest_eq hnil] at h
    obtain ⟨r, s₁, l₁, ⟨rfl, hread⟩, hrun, rfl⟩ := run_api h
    rcases r with e | eips
    · cases (run_fail_iff.mp hrun).2.1
    · rw [must_ok, Code.pure_bind] at hrun
      obtain ⟨allocatedEip, allocatedIP, l₂, s₂, hfind, hreq⟩ := run_requestFrom hrun
      obtain rfl := state_of_run_readOnly (all_findAllocated _ _) hfind
      obtain ⟨_, _, ho, hfound⟩ := trace_findAllocated (hfind.trace honest_of_exec)
      cases ho
      refine ⟨allocatedEip, allocatedIP, hfound.recorded (hread.lists hf), ?_, ?_⟩
      · rcases hreq with ⟨-, rfl⟩ | ⟨hrel, eip, l₃, -, rfl⟩
        · exact requestFor_release svc allocatedEip allocatedIP
        · exact requestFor_requestGiven hrel allocatedEip allocatedIP eip
      · rcases hreq with h | ⟨hrel, eip, l₃, hchoose, rfl⟩
        · exact .inl h
        · exact .inr ⟨hrel, eip, l₃, hchoose, rfl⟩

end Parts

/-! ## Carrying out a request -/

/-- What a request that was carried out has done. -/
inductive CarriedOut (svc : Service) (req : Request) (s s' : Cluster) : Prop
  | nothing : req.release = none → req.allocate = none → s' = s → CarriedOut svc req s s'
  | released : req.release.isSome → req.allocate = none → Free svc.key.text s' →
      s'.service svc.key = svc.withResult svc.released → CarriedOut svc req s s'
  | assigned {allocate : SvcRecord} {clone : Service} {e : Eip} {addr : String} :
      req.allocate = some allocate → e.HasAddr addr →
      svc.key.text ∈ s'.records allocate.eip addr → (clone = svc ∨ clone = svc.released) →
      s'.service svc.key = svc.withResult (clone.assigned allocate.eip addr) → CarriedOut svc req s s'

section CarryOut
variable {f : Faults} {s s' : Cluster} {l : List (Prog.Event Call Reply)} {svc : Version Service}

/-- After a `ReleaseIP` of all that is recorded, nothing is. -/
theorem free_of_run_releaseIP (hf : f.stale = false) {release : SvcRecord} {k : NamespacedName}
    (hkey : release.key = k.text) (hbut : FreeBut k.text release.eip s)
    (h : Prog.Run (exec f) s (releaseIP release) l (.ok ()) s') : Free k.text s' := by
  have hnot : (∀ addr, k.text ∉ s.records release.eip addr) → Free k.text s := by
    intro h name addr
    by_cases hn : name = release.eip
    · exact hn ▸ h addr
    · exact hbut name addr hn
  rcases run_releaseIP_ok hf h with ⟨rfl, hnone⟩ | ⟨e, keys, he, hkeys, hrel⟩
  · refine hnot fun addr => ?_
    rw [Cluster.records_of_eip_none hnone]
    exact List.not_mem_nil
  rw [hkey] at hrel
  rcases hrel with ⟨rfl, heq⟩ | hw
  · refine hnot fun addr => ?_
    cases hdel : e.deletionTimestamp with
    | true =>
      rw [Cluster.records_of_deleting he hdel]
      exact List.not_mem_nil
    | false =>
      rw [Cluster.records_of_eip he hdel, ← heq]
      exact notMem_listed_releaseIPFromEip NamespacedName.Valid.text_ne_empty hkeys hdel addr
  · refine hw.free_of_release NamespacedName.Valid.text_ne_empty hkeys ?_
    rw [Cluster.eip_name he]
    exact hbut

/-- After an `AssignIP` the service has a record. -/
theorem mem_records_of_run_assignIP (hf : f.stale = false) {ipFamilies : List IPFamily}
    {allocate : SvcRecord} {addr : String} {k : NamespacedName} (hk : k.Valid)
    (hkey : allocate.key = k.text)
    (h : Prog.Run (exec f) s (assignIP ipFamilies allocate) l (.ok addr) s') :
    k.text ∈ s'.records allocate.eip addr := by
  obtain ⟨e, keys, clone, he, -, hassign, hw⟩ := run_assignIP_ok hf h
  obtain ⟨hdel, -, ha⟩ := assignIPFromEip_ok hassign
  have hmem : k.text ∈ clone.listed addr := hkey ▸ ha.mem_listed (hkey ▸ hk.semicolon_notMem)
  rcases hw with ⟨rfl, rfl⟩ | hw
  · rw [Cluster.records_of_eip he hdel]
    exact hmem
  · rw [← Cluster.eip_name he, hw.records_self, hdel]
    exact hmem

/-- A service without records gets an address of the pool. -/
theorem hasAddr_of_run_assignIP (hf : f.stale = false) {ipFamilies : List IPFamily}
    {allocate : SvcRecord} {addr : String} (hfree : Free allocate.key s)
    (h : Prog.Run (exec f) s (assignIP ipFamilies allocate) l (.ok addr) s') :
    ∃ e : Eip, e.HasAddr addr := by
  obtain ⟨e, keys, clone, he, -, hassign, -⟩ := run_assignIP_ok hf h
  obtain ⟨hdel, -, ha⟩ := assignIPFromEip_ok hassign
  refine ⟨e, ha.hasAddr ?_⟩
  rw [← Cluster.records_of_eip he hdel]
  exact hfree _ _

/-- The release in a request, if there is one, and the service that is left to write. -/
inductive ReleasePart (f : Faults) (svc : Service) (req : Request) (s : Cluster) :
    Service → Cluster → Prop
  | skipped : req.release = none → req.allocate.isSome → ReleasePart f svc req s svc s
  | released {release : SvcRecord} {l : List (Prog.Event Call Reply)} {s' : Cluster} :
      req.release = some release → Prog.Run (exec f) s (releaseIP release) l (.ok ()) s' →
      ReleasePart f svc req s svc.released s'

theorem ReleasePart.key {req : Request} {clone svc : Service}
    (h : ReleasePart f svc req s clone s') : clone.key = svc.key := by
  cases h <;> rfl

theorem ReleasePart.clone_eq {req : Request} {clone svc : Service}
    (h : ReleasePart f svc req s clone s') : clone = svc ∨ clone = svc.released := by
  cases h with
  | skipped => exact .inl rfl
  | released => exact .inr rfl

/-- A request that was carried out is empty, or its release came first. -/
theorem run_carryOut_parts {req : Request}
    (h : Prog.Run (exec f) s (carryOut svc req) l (.ok ()) s') :
    req.release = none ∧ req.allocate = none ∧ s' = s ∨
      ∃ clone s₁ l₁, ReleasePart f svc.obj req s clone s₁ ∧
        Prog.Run (exec f) s₁ (finish svc clone req.allocate) l₁ (.ok ()) s' := by
  rw [carryOut] at h
  split at h
  · rename_i hboth
    exact .inl ⟨hboth.1, hboth.2, (run_pure_iff.mp h).2.2⟩
  · rename_i hsome
    refine .inr ?_
    cases hr : req.release with
    | none =>
      have hasome : req.allocate ≠ none := fun ha => hsome ⟨hr, ha⟩
      simp only [hr, Code.pure_bind] at h
      exact ⟨_, _, _, .skipped hr (Option.isSome_iff_ne_none.mpr hasome), h⟩
    | some release =>
      simp only [hr, Code.bind_assoc, Code.pure_bind] at h
      obtain ⟨_, l₁, l₂, s₁, hrel, hrun, rfl⟩ := run_bind_ok h
      exact ⟨_, _, _, .released hr hrel, hrun⟩

/-- An allocation that was carried out has got an address and written the result. -/
theorem run_allocateFor_ok (hf : f.stale = false) {clone : Service} {allocate : SvcRecord}
    (hget : s.services.get svc.obj.key = some svc) (hck : clone.key = svc.obj.key)
    (hkey : allocate.key = svc.obj.key.text)
    (h : Prog.Run (exec f) s (allocateFor svc clone allocate) l (.ok ()) s') :
    ∃ addr l₁ s₁, Prog.Run (exec f) s (assignIP svc.obj.ipFamilies allocate) l₁ (.ok addr) s₁ ∧
      svc.obj.key.text ∈ s'.records allocate.eip addr ∧
      s'.service svc.obj.key = svc.obj.withResult (clone.assigned allocate.eip addr) := by
  obtain ⟨r, l₁, l₂, s₁, hassign, hrun, rfl⟩ := run_bind_ok h
  rcases run_attempt_ok hassign with ⟨addr, rfl, hok⟩ | ⟨e, rfl, -⟩
  · have hmem := mem_records_of_run_assignIP hf svc.obj.key_valid hkey hok
    have hsvc := services_of_run (all_assignIP _ _) hok
    have hkey' : (clone.assigned allocate.eip addr).key = svc.obj.key := hck
    obtain ⟨heips, hres⟩ := run_updateReconcileResult_ok (hsvc ▸ hget) hkey' hrun
    refine ⟨addr, _, _, hok, ?_, hres⟩
    rw [Cluster.records, Cluster.eip, heips]
    exact hmem
  · obtain ⟨_, l₃, l₄, s₃, -, hfail, rfl⟩ := run_bind_ok hrun
    cases (run_fail_iff.mp hfail).2.1

/-- A release touches no service. -/
theorem ReleasePart.services {req : Request} {clone svc : Service}
    (h : ReleasePart f svc req s clone s') : s'.services = s.services := by
  cases h with
  | skipped => rfl
  | released _ hrel => exact services_of_run (all_releaseIP _) hrel

/-- After the release of the only record there is none. -/
theorem ReleasePart.free (hf : f.stale = false) {req : Request} {clone svc : Service}
    {allocatedEip allocatedIP : String} (honce : AtMostOnce svc.key.text s)
    (hrec : Recorded s svc.key.text allocatedEip allocatedIP)
    (hreq : RequestFor svc allocatedEip allocatedIP req)
    (h : ReleasePart f svc req s clone s') : Free svc.key.text s' := by
  have hbut := hrec.freeBut honce
  cases h with
  | skipped hr hsome =>
    rw [(hreq.unreleased hr hsome).1] at hbut
    exact hbut.free
  | released hr hrel =>
    obtain ⟨hrkey, hreip⟩ := hreq.release _ hr
    exact free_of_run_releaseIP hf hrkey (hreip ▸ hbut) hrel

/-- **What a request that was carried out has done**, from a state with at most one
record of the service. -/
theorem run_carryOut_ok (hf : f.stale = false) {req : Request} {allocatedEip allocatedIP : String}
    (hget : s.services.get svc.obj.key = some svc) (honce : AtMostOnce svc.obj.key.text s)
    (hrec : Recorded s svc.obj.key.text allocatedEip allocatedIP)
    (hreq : RequestFor svc.obj allocatedEip allocatedIP req)
    (h : Prog.Run (exec f) s (carryOut svc req) l (.ok ()) s') : CarriedOut svc.obj req s s' := by
  rcases run_carryOut_parts h with ⟨hr, ha, hs⟩ | ⟨clone, s₁, l₁, hpart, hrun⟩
  · exact .nothing hr ha hs
  have hfree := hpart.free hf honce hrec hreq
  have hget₁ : s₁.services.get svc.obj.key = some svc := hpart.services ▸ hget
  cases ha : req.allocate with
  | none =>
    rw [ha] at hrun
    obtain ⟨heips, hres⟩ := run_updateReconcileResult_ok hget₁ hpart.key hrun
    cases hpart with
    | skipped _ hsome =>
      rw [ha] at hsome
      cases hsome
    | released hr _ =>
      exact .released (by rw [hr]; rfl) ha (hfree.fewer ((StatusKept.of_eips_eq heips).fewer _)) hres
  | some allocate =>
    rw [ha] at hrun
    have hkey := (hreq.allocate _ ha).1
    obtain ⟨addr, l₂, s₂, hassign, hmem, hres⟩ := run_allocateFor_ok hf hget₁ hpart.key hkey hrun
    obtain ⟨e, haddr⟩ := hasAddr_of_run_assignIP hf (hkey ▸ hfree) hassign
    exact .assigned ha haddr hmem hpart.clone_eq hres

/-- A `Reconcile` that returns, of a service that is there and no node proxy, has carried out a
request. -/
theorem run_reconcile_ok (hf : f.stale = false) {env : Env} {k : NamespacedName} {svc : Service}
    (hsvc : s.service k = some svc) (hnp : hasOpenELBNPAnnotation svc.annotations = false)
    (h : Prog.Run (exec f) s (reconcile env k) l (.ok ()) s') :
    ∃ v req l₁ l₂, s.services.get k = some v ∧ v.obj = svc ∧
      Prog.Run (exec f) s (constructRequest env svc) l₁ (.ok req) s ∧
      Prog.Run (exec f) s (carryOut v req) l₂ (.ok ()) s' := by
  rw [reconcile] at h
  obtain ⟨r, s₁, l₁, ⟨rfl, hread⟩, hrun, rfl⟩ := run_api h
  rcases r with (_ | _ | msg) | v
  · rw [Cluster.service, hread.get_none hf] at hsvc
    cases hsvc
  · cases (run_fail_iff.mp hrun).2.1
  · cases (run_fail_iff.mp hrun).2.1
  · have hget := hread.get hf
    obtain rfl : v.obj = svc := Option.some.inj ((Cluster.service_of_get hget).symm.trans hsvc)
    dsimp only at hrun
    rw [hnp] at hrun
    obtain ⟨req, l₂, l₃, s₂, hreq, hcarry, -⟩ := run_bind_ok hrun
    obtain rfl := state_of_run_readOnly (all_constructRequest env v.obj) hreq
    exact ⟨v, req, l₂, l₃, hget, rfl, hreq, hcarry⟩

/-- **What a `Reconcile` of a service has done** that is there and no node proxy: nothing if
it has no annotations at all, and otherwise what it asks for. -/
theorem run_reconcile_carriedOut (hf : f.stale = false) {env : Env} {k : NamespacedName}
    {svc : Service} (hsvc : s.service k = some svc)
    (hnp : hasOpenELBNPAnnotation svc.annotations = false) (honce : AtMostOnce k.text s)
    (h : Prog.Run (exec f) s (reconcile env k) l (.ok ()) s') :
    svc.annotations.isNil = true ∧ s' = s ∨
      svc.annotations.isNil = false ∧ ∃ allocatedEip allocatedIP req,
        Recorded s k.text allocatedEip allocatedIP ∧ CarriedOut svc req s s' ∧
        (needRelease svc = true ∧
            req = { release := constructRelease (svc.info allocatedEip allocatedIP) } ∨
          needRelease svc = false ∧ ∃ eip l₁,
            Prog.Run (exec f) s (attempt (chooseEIP env svc)) l₁ (.ok eip) s ∧
            req = svc.requestGiven allocatedEip allocatedIP eip) := by
  have hkey := Cluster.service_key hsvc
  obtain ⟨v, req, l₁, l₂, hget, rfl, hreq, hcarry⟩ := run_reconcile_ok hf hsvc hnp h
  subst hkey
  obtain ⟨-, ⟨hnil, rfl⟩ | ⟨hnil, E, a, hrec, hfor, hwhat⟩⟩ := run_constructRequest_ok hf hreq
  · obtain ⟨-, -, hs⟩ : _ ∧ _ ∧ s' = s := run_pure_iff.mp hcarry
    exact .inl ⟨hnil, hs⟩
  · exact .inr ⟨hnil, E, a, req, hrec, run_carryOut_ok hf hget honce hrec hfor hcarry, hwhat⟩

end CarryOut

end OpenELB
