import OpenELB.EipSteps
import OpenELB.Requests

/-! # What reconciling a service does to the records

The records of a service are counted over all Eips that are not being deleted:
`Free` says that there are none, `AtMostOnce` that there is at most one, and
`Fewer` that a step adds none.

`safe_ipam` is the one statement about the IPAM path of
`ServiceReconciler.Reconcile` that the results about many workers use.  Each of
its calls leaves the Eips alone, or releases the service in one of them, or
assigns to it (`ServiceEffect`).  With reads that are not stale, and if nobody else adds
records of the service, it assigns only while there are none, and it lets the
service go only then. -/
namespace OpenELB
open Go Code

/-! ## Counting records -/

/-- The service has no more records than before, at any address. -/
def Fewer (key : String) (s s' : Cluster) : Prop :=
  ∀ name addr, (s'.records name addr).count key ≤ (s.records name addr).count key

/-- The service has no records. -/
def Free (key : String) (s : Cluster) : Prop := ∀ name addr, key ∉ s.records name addr

/-- The service has no records, but in one Eip. -/
def FreeBut (key eip : String) (s : Cluster) : Prop :=
  ∀ name addr, name ≠ eip → key ∉ s.records name addr

/-- The service occurs at most once over all records: in one Eip, at one address,
at one place of the list. -/
structure AtMostOnce (key : String) (s : Cluster) : Prop where
  count : ∀ name addr, (s.records name addr).count key ≤ 1
  unique : ∀ {name addr name' addr'}, key ∈ s.records name addr → key ∈ s.records name' addr' →
    name = name' ∧ addr = addr'

section Counting
variable {key eip addr : String} {s s' s'' : Cluster}

theorem Fewer.refl (key : String) (s : Cluster) : Fewer key s s := fun _ _ => le_refl _

theorem Fewer.trans (h : Fewer key s s') (h' : Fewer key s' s'') : Fewer key s s'' :=
  fun name addr => (h' name addr).trans (h name addr)

theorem Fewer.mem (h : Fewer key s s') {name : String} (hmem : key ∈ s'.records name addr) :
    key ∈ s.records name addr :=
  List.count_pos_iff.mp ((List.count_pos_iff.mpr hmem).trans_le (h name addr))

theorem StatusKept.fewer (h : StatusKept s s') (key : String) : Fewer key s s' := by
  intro name addr
  rcases h.records name addr with h | h
  · exact h ▸ le_refl _
  · rw [h]
    exact Nat.zero_le _

theorem StatusWritten.fewer {e clone : Eip} (h : StatusWritten s e clone s')
    (hcount : ∀ addr, (clone.listed addr).count key ≤ (e.listed addr).count key) :
    Fewer key s s' := by
  intro name addr
  by_cases hn : name = e.name
  · subst hn
    rw [h.records_self, h.records_before]
    split
    · exact le_refl _
    · exact hcount addr
  · rw [h.records_ne hn]

theorem Free.fewer (h : Free key s) (hf : Fewer key s s') : Free key s' :=
  fun name addr hmem => h name addr (hf.mem hmem)

theorem FreeBut.fewer (h : FreeBut key eip s) (hf : Fewer key s s') : FreeBut key eip s' :=
  fun name addr hn hmem => h name addr hn (hf.mem hmem)

theorem AtMostOnce.fewer (h : AtMostOnce key s) (hf : Fewer key s s') : AtMostOnce key s' :=
  ⟨fun name addr => (hf name addr).trans (h.count name addr),
    fun hm hm' => h.unique (hf.mem hm) (hf.mem hm')⟩

theorem Free.atMostOnce (h : Free key s) : AtMostOnce key s := by
  refine ⟨fun name addr => ?_, fun hm _ => absurd hm (h _ _)⟩
  rw [List.count_eq_zero.mpr (h name addr)]
  exact Nat.zero_le _

/-- Eips that never had anything in use have no records. -/
theorem Free.of_unused (h : ∀ v ∈ s.eips.log, v.obj.status.used.len = 0) (key : String) :
    Free key s := by
  intro name addr hmem
  obtain ⟨e, he, -, hlisted⟩ := Cluster.exists_of_mem_records hmem
  obtain ⟨v, hv, rfl⟩ := Option.map_eq_some_iff.mp he
  have hnone := Map.len_eq_zero.mp (h v (VStore.mem_log hv)) addr
  rw [Eip.listed_of_get_none hnone] at hlisted
  cases hlisted

/-- With one Eip and one address in use there is one list to look at. -/
theorem AtMostOnce.of_one (name₀ addr₀ : String)
    (h : ∀ v ∈ s.eips.log, v.obj.name = name₀ ∧ v.obj.status.used.Ranges [addr₀])
    (hcount : (s.records name₀ addr₀).count key ≤ 1) : AtMostOnce key s := by
  have hat : ∀ {name addr}, key ∈ s.records name addr → name = name₀ ∧ addr = addr₀ := by
    intro name addr hmem
    obtain ⟨e, he, -, hlisted⟩ := Cluster.exists_of_mem_records hmem
    obtain ⟨v, hv, rfl⟩ := Option.map_eq_some_iff.mp he
    obtain ⟨hname, hranges⟩ := h v (VStore.mem_log hv)
    refine ⟨(VStore.key_of_get hv).symm.trans hname, ?_⟩
    obtain ⟨svcs, hget, -⟩ := Eip.exists_get_of_mem_listed hlisted
    exact List.mem_singleton.mp (hranges.mem hget)
  refine ⟨fun name addr => ?_, fun hm hm' => ?_⟩
  · by_cases hmem : key ∈ s.records name addr
    · obtain ⟨rfl, rfl⟩ := hat hmem
      exact hcount
    · rw [List.count_eq_zero.mpr hmem]
      exact Nat.zero_le _
  · obtain ⟨h₁, h₂⟩ := hat hm
    obtain ⟨h₁', h₂'⟩ := hat hm'
    exact ⟨h₁.trans h₁'.symm, h₂.trans h₂'.symm⟩

/-- No Eip has the empty name. -/
theorem FreeBut.free (h : FreeBut key "" s) : Free key s := by
  intro name addr hmem
  refine h name addr ?_ hmem
  rintro rfl
  obtain ⟨e, he, -⟩ := Cluster.exists_of_mem_records hmem
  exact e.name_ne (Cluster.eip_name he)

/-- What is found recorded is all there is. -/
theorem Recorded.freeBut (h : Recorded s key eip addr) (honce : AtMostOnce key s) :
    FreeBut key eip s := by
  intro name a hn hmem
  rcases h with ⟨-, -, hnone⟩ | hrec
  · exact hnone name a hmem
  · exact hn (honce.unique hmem hrec).1

/-- A release leaves no record in its Eip. -/
theorem StatusWritten.free_of_release {e : Eip} {keys : List String} (hkey : key ≠ "")
    (hkeys : e.status.used.Ranges keys) (h : StatusWritten s e (releaseIPFromEip keys key e) s')
    (hbut : FreeBut key e.name s) : Free key s' := by
  intro name addr
  by_cases hn : name = e.name
  · subst hn
    rw [h.records_self]
    cases hdel : e.deletionTimestamp with
    | true => simp
    | false => exact notMem_listed_releaseIPFromEip hkey hkeys hdel addr
  · rw [h.records_ne hn]
    exact hbut name addr hn

/-- A service without records has one after an assignment. -/
theorem StatusWritten.atMostOnce_of_assign {allocate : SvcRecord} {e clone : Eip}
    (hkey : ';' ∉ allocate.key.toList) (ha : Assigned allocate e addr clone)
    (h : StatusWritten s e clone s') (hfree : Free allocate.key s) : AtMostOnce allocate.key s' := by
  -- the key is put into one list that did not have it
  have hrec : ∀ name a, (s'.records name a).count allocate.key ≤
      if name = e.name ∧ a = addr then 1 else 0 := by
    intro name a
    have hbefore := List.count_eq_zero.mpr (hfree name a)
    by_cases hn : name = e.name
    · subst hn
      rw [h.records_before] at hbefore
      rw [h.records_self]
      cases hdel : e.deletionTimestamp with
      | true => simp
      | false =>
        simp only [hdel, Bool.false_eq_true, if_false, true_and] at hbefore ⊢
        rcases ha.listed_eq hkey with ⟨rfl, -⟩ | hl
        · rw [hbefore]
          exact Nat.zero_le _
        · rw [hl]
          split
          · rw [List.count_append, hbefore]
            simp
          · rw [hbefore]
    · rw [h.records_ne hn, hbefore]
      exact Nat.zero_le _
  have hat : ∀ {name a}, allocate.key ∈ s'.records name a → name = e.name ∧ a = addr := by
    intro name a hmem
    have hpos := (List.count_pos_iff.mpr hmem).trans_le (hrec name a)
    by_contra hn
    rw [if_neg hn] at hpos
    exact absurd hpos (lt_irrefl 0)
  refine ⟨fun name a => (hrec name a).trans (by split <;> omega), fun hm hm' => ?_⟩
  obtain ⟨h₁, h₂⟩ := hat hm
  obtain ⟨h₁', h₂'⟩ := hat hm'
  exact ⟨h₁.trans h₁'.symm, h₂.trans h₂'.symm⟩

end Counting

/-! ## The steps of the IPAM path -/

/-- What a call of the IPAM path does to the statuses, for the service `k`.  If the
discipline `C` is kept, it assigns only while there is no record; and `P` holds
whenever it assigns. -/
inductive ServiceEffect (k : NamespacedName) (C : Prop) (P : Cluster → Prop) (s s' : Cluster) : Prop
  | kept : s'.eips = s.eips → ServiceEffect k C P s s'
  | released {e : Eip} {keys : List String} : e.status.used.Ranges keys →
      StatusWritten s e (releaseIPFromEip keys k.text e) s' → ServiceEffect k C P s s'
  | assigned {e clone : Eip} {allocate : SvcRecord} {addr : String} : allocate.key = k.text →
      Assigned allocate e addr clone → StatusWritten s e clone s' → (C → Free k.text s) → P s →
      ServiceEffect k C P s s'

/-- The addresses in the status of the service stay, or go, or become one address of
a pool. -/
def IngressStep (k : NamespacedName) (s s' : Cluster) : Prop :=
  ∀ svc', s'.service k = some svc' →
    (∃ svc, s.service k = some svc ∧ svc'.ingress = svc.ingress) ∨ svc'.ingress = none ∨
      ∃ (e : Eip) (addr : String), e.HasAddr addr ∧ svc'.ingress = some [{ ip := addr }]

/-- The annotations of the service stay. -/
def AnnotationsKept (k : NamespacedName) (s s' : Cluster) : Prop :=
  ∀ svc svc', s.service k = some svc → s'.service k = some svc' →
    ∀ key, svc'.annotations.get key = svc.annotations.get key

/-- What a call of the IPAM path does. -/
structure ServiceStep (k : NamespacedName) (C : Prop) (P : Cluster → Prop) (s s' : Cluster) :
    Prop where
  later : EipsLater s s'
  effect : ServiceEffect k C P s s'
  /-- The service is let go only when it has no records. -/
  removed : C → s.service k ≠ none → s'.service k = none → Free k.text s'
  ingress : C → IngressStep k s s'
  annotations : C → AnnotationsKept k s s'

/-- What the IPAM path is run in: what the others may do (`R`), and what is known of
it if the discipline `C` is kept. -/
structure Surroundings (f : Faults) (k : NamespacedName) (C : Prop) (P : Cluster → Prop)
    (R : Cluster → Cluster → Prop) : Prop where
  refl : ∀ s, R s s
  trans : ∀ a b c, R a b → R b c → R a c
  later : ∀ s s', R s s' → EipsLater s s'
  stable : ∀ s s', R s s' → P s → P s'
  services : ∀ s s', s'.services = s.services → P s → P s'
  stale : C → f.stale = false
  fewer : C → ∀ s s', R s s' → Fewer k.text s s'
  servicesLater : C → ∀ s s', R s s' → VStore.Later s.services s'.services

theorem IngressStep.of_services {k : NamespacedName} {s s' : Cluster}
    (h : s'.services = s.services) : IngressStep k s s' := by
  intro svc' hsvc'
  rw [Cluster.service, h] at hsvc'
  exact .inl ⟨svc', hsvc', rfl⟩

theorem AnnotationsKept.of_services {k : NamespacedName} {s s' : Cluster}
    (h : s'.services = s.services) : AnnotationsKept k s s' := by
  intro svc svc' hsvc hsvc' key
  rw [Cluster.service, h] at hsvc'
  rw [Option.some.inj (hsvc.symm.trans hsvc')]

/-- An update of a service keeps every status. -/
theorem ingressStep_of_updateService {f : Faults} {k : NamespacedName} {s s' : Cluster}
    {v : Version Service} {u : Reply (.updateService v)} (h : exec f (.updateService v) s u s') :
    IngressStep k s s' := by
  obtain ⟨services, hw, rfl⟩ := h
  rcases hw.cases (fun _ _ => Service.applyUpdate_key) with ⟨rfl, -⟩ | ⟨w, ha, -⟩
  · exact .of_services rfl
  · intro svc' hsvc'
    by_cases hk : k = v.obj.key
    · rw [Cluster.service, hk, ha.obj, Service.applyUpdate] at hsvc'
      split at hsvc'
      · cases hsvc'
      · cases hsvc'
        exact .inl ⟨w.obj, hk ▸ Cluster.service_of_get ha.found, rfl⟩
    · rw [Cluster.service, ha.frame k hk] at hsvc'
      exact .inl ⟨svc', hsvc', rfl⟩

/-- A status update with no address, or with one of a pool. -/
theorem ingressStep_of_updateServiceStatus {f : Faults} {k : NamespacedName} {s s' : Cluster}
    {v : Version Service} {u : Reply (.updateServiceStatus v)}
    (hv : v.obj.ingress = some [] ∨
      ∃ (e : Eip) (addr : String), e.HasAddr addr ∧ v.obj.ingress = some [{ ip := addr }])
    (h : exec f (.updateServiceStatus v) s u s') : IngressStep k s s' := by
  obtain ⟨services, hw, rfl⟩ := h
  rcases hw.cases (fun _ _ => Service.applyStatus_key) with ⟨rfl, -⟩ | ⟨w, ha, -⟩
  · exact .of_services rfl
  · intro svc' hsvc'
    by_cases hk : k = v.obj.key
    · rw [Cluster.service, hk, ha.obj, Service.applyStatus] at hsvc'
      split at hsvc'
      · cases hsvc'
      cases hsvc'
      rcases hv with hv | ⟨e, addr, haddr, hv⟩
      · exact .inr (.inl (by rw [hv]; rfl))
      · exact .inr (.inr ⟨e, addr, haddr, by rw [hv]; rfl⟩)
    · rw [Cluster.service, ha.frame k hk] at hsvc'
      exact .inl ⟨svc', hsvc', rfl⟩

/-- What the two writes of a service have in common: they let it go only if it is being
deleted, and leave the annotations and the deletion timestamp. -/
structure KeepsMeta (stored : Service) (change : Service → Option Service) : Prop where
  removed : change stored = none → stored.deletionTimestamp = true
  deletion : ∀ svc, change stored = some svc → svc.deletionTimestamp = stored.deletionTimestamp
  annotations : ∀ svc, change stored = some svc →
    ∀ key, svc.annotations.get key = stored.annotations.get key

theorem KeepsMeta.of_ite {stored svc : Service} {change : Service → Option Service} {gone : Prop}
    [Decidable gone]
    (h : change stored = if stored.deletionTimestamp ∧ gone then none else some svc)
    (hdel : svc.deletionTimestamp = stored.deletionTimestamp)
    (hann : ∀ key, svc.annotations.get key = stored.annotations.get key) :
    KeepsMeta stored change := by
  split at h
  · rename_i hgone
    constructor <;> simp [h, hgone.1]
  · constructor
    · intro hnone
      cases h.symm.trans hnone
    · rintro _ hsome
      cases h.symm.trans hsome
      exact hdel
    · rintro _ hsome
      cases h.symm.trans hsome
      exact hann

theorem keepsMeta_applyUpdate {new stored : Service}
    (hann : ∀ key, new.annotations.get key = stored.annotations.get key) :
    KeepsMeta stored new.applyUpdate :=
  .of_ite rfl rfl fun key => (Map.get_omitEmpty ..).trans (hann key)

theorem keepsMeta_applyStatus {new stored : Service}
    (hann : ∀ key, new.annotations.get key = stored.annotations.get key) :
    KeepsMeta stored new.applyStatus :=
  .of_ite rfl rfl fun key => (Map.get_omitEmpty ..).trans (hann key)

theorem ServiceWritten.annotationsKept {svc : Service} {change : Service → Option Service}
    {s s' : Cluster} (h : ServiceWritten s svc change s') (hchange : KeepsMeta svc change) :
    AnnotationsKept svc.key s s' := by
  intro old new hold hnew
  obtain rfl := Option.some.inj (h.found.symm.trans hold)
  exact hchange.annotations new (h.obj.symm.trans hnew)

/-- So do all calls that write no status. -/
theorem ingressStep_of_exec {f : Faults} {k : NamespacedName} {s s' : Cluster} {c : Call}
    {r : Reply c} (hc : c.KeepsStatuses) (h : exec f c s r s') : IngressStep k s s' := by
  by_cases hs : c.KeepsServices
  · exact .of_services (services_of_exec hs h)
  · cases c with
    | updateService v => exact ingressStep_of_updateService h
    | updateServiceStatus v => exact hc.elim
    | _ => exact absurd trivial hs

section Counts
variable {k T : NamespacedName} {C : Prop} {P : Cluster → Prop} {s s' : Cluster}

/-- A step adds no records of other services. -/
theorem ServiceEffect.fewer (h : ServiceEffect k C P s s') (hk : k.Valid) (hT : T.Valid)
    (hne : T ≠ k) : Fewer T.text s s' := by
  have hne' : k.text ≠ T.text := fun he => hne (hk.text_inj hT he).symm
  cases h with
  | kept h => exact (StatusKept.of_eips_eq h).fewer _
  | released hkeys h =>
    exact h.fewer fun addr =>
      (count_listed_releaseIPFromEip hne' NamespacedName.Valid.text_ne_empty hkeys addr).le
  | assigned hkey ha h _ _ =>
    exact h.fewer fun addr =>
      (ha.count (hkey ▸ hk.semicolon_notMem) (hkey ▸ hne') addr).le

/-- A release adds no records. -/
theorem StatusWritten.fewer_of_release {e : Eip} {keys : List String} {key : String}
    (hkey : key ≠ "") (hkeys : e.status.used.Ranges keys)
    (h : StatusWritten s e (releaseIPFromEip keys key e) s') : Fewer key s s' := by
  refine h.fewer fun addr => ?_
  cases hdel : e.deletionTimestamp with
  | true => rw [releaseIPFromEip, if_pos hdel]
  | false =>
    rw [List.count_eq_zero.mpr (notMem_listed_releaseIPFromEip hkey hkeys hdel addr)]
    exact Nat.zero_le _

/-- **A disciplined step keeps the service from having two records.** -/
theorem ServiceEffect.atMostOnce (h : ServiceEffect k C P s s') (hk : k.Valid) (hC : C)
    (honce : AtMostOnce k.text s) : AtMostOnce k.text s' := by
  cases h with
  | kept h => exact honce.fewer ((StatusKept.of_eips_eq h).fewer _)
  | released hkeys h =>
    exact honce.fewer (h.fewer_of_release NamespacedName.Valid.text_ne_empty hkeys)
  | assigned hkey ha h hfree _ =>
    rw [← hkey] at hfree ⊢
    exact h.atMostOnce_of_assign (hkey ▸ hk.semicolon_notMem) ha (hfree hC)

end Counts

section Ipam
variable {f : Faults} {k : NamespacedName} {C : Prop} {P : Cluster → Prop}
  {R : Cluster → Cluster → Prop} {α : Type} {log : List (Prog.Event Call Reply)} {s s' : Cluster}
  {svc : Version Service} {env : Env}

/-- Safety of a part of the IPAM path. -/
abbrev SafeIpam (f : Faults) (k : NamespacedName) (C : Prop) (P : Cluster → Prop)
    (R : Cluster → Cluster → Prop) (Q : List (Prog.Event Call Reply) → Outcome α → Cluster → Prop)
    (log : List (Prog.Event Call Reply)) (p : Code α) (s : Cluster) : Prop :=
  Prog.Safe (exec f) R (fun _ _ _ _ => ServiceStep k C P) Q log p s

/-- What is known of the service while it is reconciled: the version that was read
is one that was stored, and `P`. -/
structure Known (C : Prop) (P : Cluster → Prop) (svc : Version Service) (s : Cluster) : Prop where
  logged : C → svc ∈ s.services.log
  holds : P s

theorem Known.rely (hR : Surroundings f k C P R) (h : Known C P svc s) (hs : R s s') :
    Known C P svc s' :=
  ⟨fun hC => hR.servicesLater hC _ _ hs _ (h.logged hC), hR.stable _ _ hs h.holds⟩

theorem Known.services (hR : Surroundings f k C P R) (h : Known C P svc s)
    (hs : s'.services = s.services) : Known C P svc s' :=
  ⟨fun hC => hs ▸ h.logged hC, hR.services _ _ hs h.holds⟩

theorem serviceStep_of_readOnly (c : Call) {r : Reply c} (hc : c.ReadOnly) (h : exec f c s r s') :
    ServiceStep k C P s s' := by
  obtain rfl := state_of_readOnly hc h
  exact ⟨.refl _, .kept rfl, fun _ hex hnone => absurd hnone hex, fun _ => .of_services rfl,
    fun _ => .of_services rfl⟩

/-- The status updates of the IPAM path. -/
theorem serviceStep_of_write {v : Version Eip} {clone : Eip} (hv : v ∈ s.eips.log)
    (hname : clone.name = v.obj.name) {u : Reply (.updateEipStatus ⟨v.rv, clone⟩)}
    (hw : StatusWritten s v.obj clone s' → ServiceEffect k C P s s')
    (h : exec f (.updateEipStatus ⟨v.rv, clone⟩) s u s') : ServiceStep k C P s s' := by
  have hsvc := services_of_exec (c := .updateEipStatus _) trivial h
  refine ⟨later_of_exec h, ?_, fun _ hex hnone => ?_, fun _ => .of_services hsvc,
    fun _ => .of_services hsvc⟩
  · rcases exec_updateEipStatus hv hname h with ⟨rfl, -⟩ | h
    · exact .kept rfl
    · exact hw h
  · rw [Cluster.service, hsvc] at hnone
    exact absurd hnone hex

/-- Code that only reads. -/
theorem safe_readOnly (hR : Surroundings f k C P R) {p : Code α} (hp : Prog.All Call.ReadOnly p) :
    SafeIpam f k C P R (fun log' o s' => R s s' ∧
      ∃ l, log' = log ++ l ∧ Prog.Trace Honest p l o) log p s := by
  refine Prog.Safe.trace honest_of_exec ?_
  refine Prog.Safe.of_all hR.trans (fun _ _ h => h) ?_ hp
  intro log c r q s₁ s₂ hc he
  refine ⟨serviceStep_of_readOnly c hc he, ?_⟩
  rw [state_of_readOnly hc he]
  exact hR.refl _

/-- `ReleaseIP` of the service, where its records are: if it returns, none is left. -/
theorem safe_releaseIP (hR : Surroundings f k C P R) {release : SvcRecord}
    (hkey : release.key = k.text) (hbut : C → FreeBut k.text release.eip s) (hK : Known C P svc s) :
    SafeIpam f k C P R (fun _ o s' => Known C P svc s' ∧ (o = .ok () → C → Free k.text s'))
      log (releaseIP release) s := by
  rw [releaseIP]
  refine safe_api fun s₁ r s₂ hs he => ⟨serviceStep_of_readOnly (.getEip _) trivial he, ?_⟩
  obtain ⟨rfl, hread⟩ := he
  replace hK := hK.rely hR hs
  replace hbut := fun hC => (hbut hC).fewer (hR.fewer hC _ _ hs)
  rcases r with (_ | _ | msg) | v
  · -- the Eip is gone, and with it the records
    refine safe_pure fun s' hs => ⟨hK.rely hR hs, fun _ hC => ?_⟩
    refine Free.fewer (fun name addr => ?_) (hR.fewer hC _ _ hs)
    by_cases hn : name = release.eip
    · have hnone : s₂.eip name = none := by
        rw [hn, Cluster.eip, hread.get_none (hR.stale hC)]
        rfl
      rw [Cluster.records_of_eip_none hnone]
      exact List.not_mem_nil
    · exact hbut hC name addr hn
  · exact safe_fail fun _ hs => ⟨hK.rely hR hs, fun h => by cases h⟩
  · exact safe_fail fun _ hs => ⟨hK.rely hR hs, fun h => by cases h⟩
  · obtain ⟨hv, hname⟩ := hread.mem_log
    refine safe_api fun s₃ keys s₄ hs he => ⟨serviceStep_of_readOnly (.rangeUsed _) trivial he, ?_⟩
    obtain ⟨rfl, hkeys⟩ := he
    replace hK := hK.rely hR hs
    have hkeep := hbut
    replace hbut := fun hC => (hbut hC).fewer (hR.fewer hC _ _ hs)
    have hv₁ : v ∈ s₄.eips.log := hR.later _ _ hs v hv
    rw [hkey]
    dsimp only
    split
    · have hclone : (releaseIPFromEip keys k.text v.obj).name = v.obj.name := by
        rw [sameButUsed_releaseIPFromEip keys k.text v.obj]
      refine safe_api fun s₅ r s₆ hs he => ?_
      replace hK := hK.rely hR hs
      replace hbut := fun hC => (hbut hC).fewer (hR.fewer hC _ _ hs)
      have hv₂ : v ∈ s₅.eips.log := hR.later _ _ hs v hv₁
      have hK' := hK.services hR (services_of_exec (c := .updateEipStatus _) trivial he)
      refine ⟨serviceStep_of_write hv₂ hclone (.released hkeys) he, ?_⟩
      rcases r with e | w
      · exact safe_fail fun _ hs => ⟨hK'.rely hR hs, fun h => by cases h⟩
      · refine safe_pure fun s' hs => ⟨hK'.rely hR hs, fun _ hC => ?_⟩
        rcases exec_updateEipStatus hv₂ hclone he with ⟨-, e, h⟩ | hw
        · cases h
        · refine (hw.free_of_release NamespacedName.Valid.text_ne_empty hkeys ?_).fewer
            (hR.fewer hC _ _ hs)
          rw [hname]
          exact hbut hC
    · -- nothing to release: the stored Eip does not list the service, or is being deleted
      rename_i heq
      refine safe_pure fun s' hs' => ⟨hK.rely hR hs', fun _ hC => ?_⟩
      refine Free.fewer (fun name addr => ?_) ((hR.fewer hC _ _ hs).trans (hR.fewer hC _ _ hs'))
      by_cases hn : name = release.eip
      · have hget := Cluster.eip_of_get (hread.get (hR.stale hC))
        rw [hn]
        cases hdel : v.obj.deletionTimestamp with
        | true =>
          rw [Cluster.records_of_deleting hget hdel]
          exact List.not_mem_nil
        | false =>
          rw [Cluster.records_of_eip hget hdel, ← not_not.mp heq]
          exact notMem_listed_releaseIPFromEip NamespacedName.Valid.text_ne_empty hkeys hdel addr
      · exact hkeep hC name addr hn

/-- `AssignIP` to the service, while it has no records: it returns an address of a
pool. -/
theorem safe_assignIP (hR : Surroundings f k C P R) {allocate : SvcRecord}
    {ipFamilies : List IPFamily} (hkey : allocate.key = k.text) (hfree : C → Free k.text s)
    (hK : Known C P svc s) :
    SafeIpam f k C P R (fun _ o s' => Known C P svc s' ∧
        ∀ addr, o = .ok addr → C → ∃ e : Eip, e.HasAddr addr)
      log (assignIP ipFamilies allocate) s := by
  rw [assignIP]
  refine safe_api fun s₁ r s₂ hs he => ⟨serviceStep_of_readOnly (.getEip _) trivial he, ?_⟩
  obtain ⟨rfl, hread⟩ := he
  replace hK := hK.rely hR hs
  replace hfree := fun hC => (hfree hC).fewer (hR.fewer hC _ _ hs)
  rcases r with e | v
  · exact safe_fail fun _ hs => ⟨hK.rely hR hs, fun _ h => by cases h⟩
  · obtain ⟨hv, -⟩ := hread.mem_log
    have hfail : ∀ {log e s₁}, R s₂ s₁ → SafeIpam f k C P R (fun _ o s' => Known C P svc s' ∧
        ∀ addr, o = .ok addr → C → ∃ e : Eip, e.HasAddr addr) log (fail e : Code String) s₁ :=
      fun hs => safe_fail fun _ hs' => ⟨(hK.rely hR hs).rely hR hs', fun _ h => by cases h⟩
    have hcrash : ∀ {log s₁}, R s₂ s₁ → SafeIpam f k C P R (fun _ o s' => Known C P svc s' ∧
        ∀ addr, o = .ok addr → C → ∃ e : Eip, e.HasAddr addr) log (crash : Code String) s₁ :=
      fun hs => safe_crash fun _ hs' => ⟨(hK.rely hR hs).rely hR hs', fun _ h => by cases h⟩
    rw [must_ok, Code.pure_bind]
    split
    · exact hfail (hR.refl _)
    · exact hcrash (hR.refl _)
    split
    · rw [assignFrom]
      refine safe_api fun s₃ keys s₄ hs he => ⟨serviceStep_of_readOnly (.rangeUsed _) trivial he, ?_⟩
      obtain ⟨rfl, hkeys⟩ := he
      have hv₁ : v ∈ s₄.eips.log := hR.later _ _ hs v hv
      split
      · exact hcrash hs
      · exact hfail hs
      · rename_i addr clone hassign
        obtain ⟨hdel, -, hassigned⟩ := assignIPFromEip_ok hassign
        -- the stored version does not list the service, so this is a new address
        have haddr : C → ∃ e : Eip, e.HasAddr addr := by
          intro hC
          cases hassigned with
          | already hmem =>
            have hget := Cluster.eip_of_get (hread.get (hR.stale hC))
            rw [hkey, ← Cluster.records_of_eip hget hdel] at hmem
            exact absurd hmem (hfree hC _ _)
          | free haddr _ => exact ⟨_, haddr⟩
          | shared _ haddr _ => exact ⟨_, haddr⟩
        have hret : ∀ {o : Outcome String}, (∀ a, o = .ok a → a = addr) →
            ∀ a, o = .ok a → C → ∃ e : Eip, e.HasAddr a := by
          rintro o ho a rfl hC
          exact ho a rfl ▸ haddr hC
        replace hK := hK.rely hR hs
        replace hfree := fun hC => (hfree hC).fewer (hR.fewer hC _ _ hs)
        split
        · refine safe_api fun s₅ r s₆ hs he => ⟨?_, ?_⟩
          · refine serviceStep_of_write (hR.later _ _ hs v hv₁) (by rw [hassigned.sameButUsed]) ?_ he
            exact fun hw => .assigned hkey hassigned hw
              (fun hC => (hfree hC).fewer (hR.fewer hC _ _ hs)) (hK.rely hR hs).holds
          · have hK' := (hK.rely hR hs).services hR
              (services_of_exec (c := .updateEipStatus _) trivial he)
            cases r with
            | error e => exact fun _ hs => ⟨hK'.rely hR hs, fun _ h => by cases h⟩
            | ok w => exact fun _ hs => ⟨hK'.rely hR hs, hret fun a h => by cases h; rfl⟩
        · exact safe_pure fun _ hs => ⟨hK.rely hR hs, hret fun a h => by cases h; rfl⟩
    · exact hfail (hR.refl _)

/-- The writes of the service that was read, or that came back from the last write. -/
theorem serviceStep_of_metaKept {stored : Service} {c : Call} {r : Reply c} (hc : c.KeepsEips)
    (hkey : stored.key = k) (h : exec f c s r s')
    (hfree : C → stored.deletionTimestamp = true → Free k.text s)
    (hw : C → s' = s ∨ ∃ change, ServiceWritten s stored change s' ∧ KeepsMeta stored change)
    (hing : C → IngressStep k s s') : ServiceStep k C P s s' := by
  have heips := eips_of_exec hc h
  refine ⟨later_of_exec h, .kept heips, fun hC hex hnone => ?_, hing, fun hC => ?_⟩
  · rcases hw hC with rfl | ⟨change, hw, hmeta⟩
    · exact absurd hnone hex
    · have hdel := hmeta.removed (hw.obj.symm.trans (hkey ▸ hnone))
      exact (hfree hC hdel).fewer ((StatusKept.of_eips_eq heips).fewer _)
  · rcases hw hC with rfl | ⟨change, hw, hmeta⟩
    · exact .of_services rfl
    · exact hkey ▸ hw.annotationsKept hmeta

/-- Writing the result.  The service goes away only if it was being deleted, and then
it must have no records. -/
theorem safe_updateReconcileResult (hR : Surroundings f k C P R) {resultSvc : Service}
    (hkey : svc.obj.key = k) (hresult : resultSvc.key = k)
    (hann : resultSvc.annotations = svc.obj.annotations) (hK : Known C P svc s)
    (hfree : C → svc.obj.deletionTimestamp = true → Free k.text s)
    (hing : C → resultSvc.ingress = svc.obj.ingress ∨ resultSvc.ingress = some [] ∨
      ∃ (e : Eip) (addr : String), e.HasAddr addr ∧ resultSvc.ingress = some [{ ip := addr }]) :
    SafeIpam f k C P R (fun _ _ _ => True) log (updateReconcileResult svc resultSvc) s := by
  have hstatus : ∀ (stored : Version Service) (new : Service) log s, stored.obj.key = k →
      new.key = k → (C → ∀ key, new.annotations.get key = stored.obj.annotations.get key) →
      (C → stored ∈ s.services.log) → (C → stored.obj.deletionTimestamp = true → Free k.text s) →
      SafeIpam f k C P R (fun _ _ _ => True) log
        (updateIngress svc.obj resultSvc ⟨stored.rv, new⟩) s := by
    intro stored new log s hstored hnew hann hlogged hfree
    rw [updateIngress]
    split
    · rename_i hne
      refine safe_api fun s₁ r s₂ hs he => ⟨?_, ?_⟩
      · refine serviceStep_of_metaKept (c := .updateServiceStatus _) trivial hstored he
          (fun hC hdel => (hfree hC hdel).fewer (hR.fewer hC _ _ hs)) (fun hC => ?_) fun hC => ?_
        · rcases exec_updateServiceStatus (hR.servicesLater hC _ _ hs _ (hlogged hC))
            (show Service.key { new with ingress := resultSvc.ingress } = _ from
              hnew.trans hstored.symm) he with
            ⟨h, -⟩ | ⟨hw, -⟩
          · exact .inl h
          · exact .inr ⟨_, hw, keepsMeta_applyStatus (hann hC)⟩
        · rcases hing hC with h | h
          · exact absurd h.symm hne
          · exact ingressStep_of_updateServiceStatus h he
      · cases r <;> exact fun _ _ => trivial
    · exact safe_pure fun _ _ => trivial
  have hmeta : KeepsMeta svc.obj resultSvc.applyUpdate :=
    keepsMeta_applyUpdate fun key => by rw [hann]
  rw [updateReconcileResult]
  split
  · refine safe_api fun s₁ r s₂ hs he => ?_
    replace hK := hK.rely hR hs
    replace hfree := fun hC hdel => (hfree hC hdel).fewer (hR.fewer hC _ _ hs)
    have hwrite := fun hC => exec_updateService (hK.logged hC) (hresult.trans hkey.symm) he
    refine ⟨serviceStep_of_metaKept (c := .updateService _) trivial hkey he hfree (fun hC => ?_)
      fun _ => ingressStep_of_updateService he, ?_⟩
    · rcases hwrite hC with ⟨h, -⟩ | ⟨hw, -⟩
      · exact .inl h
      · exact .inr ⟨_, hw, hmeta⟩
    · rcases r with e | v
      · exact safe_fail fun _ _ => trivial
      · have hv : v ∈ s₂.services.log ∧ v.obj.key = k := by
          obtain ⟨_, hw, rfl⟩ := he
          exact ⟨hw.mem_log, (hw.key_eq fun _ _ => Service.applyUpdate_key).trans hresult⟩
        refine hstatus v v.obj _ _ hv.2 hv.2 (fun _ _ => rfl) (fun _ => hv.1) fun hC hdel => ?_
        -- the new version is being deleted if the one that was read is
        have hdel' : svc.obj.deletionTimestamp = true := by
          rcases hwrite hC with ⟨-, _, h⟩ | ⟨-, hok⟩
          · cases h
          · cases hupd : resultSvc.applyUpdate svc.obj with
            | none => exact hmeta.removed hupd
            | some stored => rw [← hmeta.deletion _ hupd, ← (hok v rfl stored hupd).2, hdel]
        exact (hfree hC hdel').fewer
          ((StatusKept.of_eips_eq (eips_of_exec (c := .updateService _) trivial he)).fewer _)
  · exact hstatus svc resultSvc _ _ hkey hresult (fun _ _ => by rw [hann]) hK.logged hfree

/-- The allocation half, for a service that is not being deleted and has no records. -/
theorem safe_allocateFor (hR : Surroundings f k C P R) {clone : Service} {allocate : SvcRecord}
    (hkey : svc.obj.key = k) (hclone : clone.key = k)
    (hann : clone.annotations = svc.obj.annotations) (hdel : svc.obj.deletionTimestamp = false)
    (hkey' : allocate.key = k.text) (hfree : C → Free k.text s) (hK : Known C P svc s)
    (hing : clone.ingress = svc.obj.ingress ∨ clone.ingress = some []) :
    SafeIpam f k C P R (fun _ _ _ => True) log (allocateFor svc clone allocate) s := by
  have hnot : ∀ s, C → svc.obj.deletionTimestamp = true → Free k.text s := by
    intro s _ h
    rw [hdel] at h
    cases h
  refine safe_attempt hR.refl
    ((safe_assignIP hR hkey' hfree hK).mono (fun _ _ _ _ _ _ h => h) ?_)
  rintro log o s ⟨hK, haddr⟩
  cases o with
  | panic => exact fun _ _ => trivial
  | ok addr =>
    refine safe_updateReconcileResult hR hkey (show (clone.assigned _ _).key = k from hclone) hann
      hK (hnot s) fun hC => ?_
    obtain ⟨e, he⟩ := haddr addr rfl hC
    exact .inr (.inr ⟨e, addr, he, rfl⟩)
  | err e =>
    refine safe_attempt hR.refl ((safe_updateReconcileResult hR hkey hclone hann hK (hnot s)
      (fun _ => hing.imp_right .inl)).mono (fun _ _ _ _ _ _ h => h) ?_)
    intro log o s _
    cases o <;> exact fun _ _ => trivial

/-- Carrying out a request that was made for what is recorded. -/
theorem safe_carryOut (hR : Surroundings f k C P R) {request : Request}
    {allocatedEip allocatedIP : String} (hkey : svc.obj.key = k)
    (hreq : RequestFor svc.obj allocatedEip allocatedIP request)
    (hbut : C → FreeBut k.text allocatedEip s) (hK : Known C P svc s) :
    SafeIpam f k C P R (fun _ _ _ => True) log (carryOut svc request) s := by
  have hdel : ∀ r, request.allocate = some r → svc.obj.deletionTimestamp = false := by
    intro r hr
    have hrel := (hreq.allocate r hr).2.2
    rw [needRelease] at hrel
    simp only [Bool.or_eq_false_iff] at hrel
    exact hrel.1.1.2
  -- after the release, the service has no records
  have hrest : ∀ clone log s, clone.key = k → clone.annotations = svc.obj.annotations →
      (clone.ingress = svc.obj.ingress ∨ clone.ingress = some []) → (C → Free k.text s) →
      Known C P svc s →
      SafeIpam f k C P R (fun _ _ _ => True) log (finish svc clone request.allocate) s := by
    intro clone log s hclone hann hing hfree hK
    cases ha : request.allocate with
    | none =>
      exact safe_updateReconcileResult hR hkey hclone hann hK (fun hC _ => hfree hC)
        fun _ => hing.imp_right .inl
    | some allocate =>
      refine safe_allocateFor hR hkey hclone hann (hdel _ ha) ?_ hfree hK hing
      rw [(hreq.allocate _ ha).1, hkey]
  rw [carryOut]
  split
  · exact safe_pure fun _ _ => trivial
  · rename_i hsome
    cases hr : request.release with
    | none =>
      have hnone := hreq.unreleased hr (by
        rw [Option.isSome_iff_ne_none]
        exact fun ha => hsome ⟨hr, ha⟩)
      refine hrest _ _ _ hkey rfl (.inl rfl) (fun hC => ?_) hK
      have hfree := hbut hC
      rw [hnone.1] at hfree
      exact hfree.free
    | some release =>
      obtain ⟨hrkey, hreip⟩ := hreq.release _ hr
      dsimp only
      rw [Code.bind_assoc]
      refine safe_bind hR.refl ((safe_releaseIP hR (hrkey.trans (by rw [hkey]))
        (by rw [hreip]; exact hbut) hK).mono (fun _ _ _ _ _ _ h => h) ?_)
      rintro log o s ⟨hK', hfree⟩
      cases o with
      | err e => exact fun _ _ => trivial
      | panic => exact fun _ _ => trivial
      | ok _ => exact hrest _ _ _ hkey rfl (.inr rfl) (hfree rfl) hK'

/-- **The IPAM path is safe** in its surroundings: if the discipline is kept and the
service has at most one record to begin with, it assigns only while the service
has none, and lets the service go only then. -/
theorem safe_ipam (hR : Surroundings f k C P R) (hkey : svc.obj.key = k)
    (honce : C → AtMostOnce k.text s) (hK : Known C P svc s) :
    SafeIpam f k C P R (fun _ _ _ => True) log (do
      let request ← constructRequest env svc.obj
      carryOut svc request) s := by
  by_cases hnil : svc.obj.annotations.isNil = true
  · rw [constructRequest, if_pos hnil]
    exact safe_pure fun _ _ => trivial
  · rw [constructRequest_eq (by simpa using hnil), Code.bind_assoc]
    refine safe_api fun s₁ r s₂ hs he => ⟨serviceStep_of_readOnly .listEips trivial he, ?_⟩
    obtain ⟨rfl, hread⟩ := he
    replace hK := hK.rely hR hs
    replace honce := fun hC => (honce hC).fewer (hR.fewer hC _ _ hs)
    rcases r with e | eips
    · exact safe_fail fun _ _ => trivial
    · rw [must_ok, Code.pure_bind]
      refine safe_bind hR.refl ((safe_readOnly hR (all_requestFrom env svc.obj eips)).mono
        (fun _ _ _ _ _ _ h => h) ?_)
      rintro log o s' ⟨hs', l, rfl, ht⟩
      cases o with
      | err e => exact fun _ _ => trivial
      | panic => exact fun _ _ => trivial
      | ok request =>
        obtain ⟨allocatedEip, allocatedIP, hfound, hreq⟩ := trace_requestFrom ht
        refine safe_carryOut hR hkey hreq (fun hC => ?_) (hK.rely hR hs')
        rw [hkey] at hfound
        have hrec := hfound.recorded (hread.lists (hR.stale hC))
        exact (hrec.freeBut (honce hC)).fewer (hR.fewer hC _ _ hs')

end Ipam

/-! ## `Reconcile` -/

/-- What a call of `Reconcile` does: a step of the IPAM path, or, for a node proxy,
something that writes no status. -/
def ReconcileStep (f : Faults) (k : NamespacedName) (C : Prop) (P : Cluster → Prop) (c : Call)
    (r : Reply c) (s s' : Cluster) : Prop :=
  exec f c s r s' ∧ (c.KeepsStatuses ∨ k.Valid ∧ ServiceStep k C P s s')

namespace ReconcileStep
variable {f : Faults} {k : NamespacedName} {C : Prop} {P : Cluster → Prop} {c : Call} {r : Reply c}
  {s s' : Cluster}

theorem later (h : ReconcileStep f k C P c r s s') : EipsLater s s' := later_of_exec h.1

theorem servicesLater (h : ReconcileStep f k C P c r s s') : VStore.Later s.services s'.services :=
  servicesLater_of_exec h.1

theorem effect (h : ReconcileStep f k C P c r s s') : ServiceEffect k C P s s' :=
  h.2.elim (fun hc => .kept (eips_of_exec hc.keepsEips h.1)) fun h => h.2.effect

theorem ingress (h : ReconcileStep f k C P c r s s') (hC : C) : IngressStep k s s' :=
  h.2.elim (fun hc => ingressStep_of_exec hc h.1) fun h => h.2.ingress hC

/-- A step adds no records of other services. -/
theorem fewer (h : ReconcileStep f k C P c r s s') {T : NamespacedName} (hT : T.Valid)
    (hne : T ≠ k) : Fewer T.text s s' :=
  h.2.elim (fun hc => (StatusKept.of_eips_eq (eips_of_exec hc.keepsEips h.1)).fewer _)
    fun h => h.2.effect.fewer h.1 hT hne

/-- It keeps the service to one record. -/
theorem atMostOnce (h : ReconcileStep f k C P c r s s') (hC : C) (honce : AtMostOnce k.text s) :
    AtMostOnce k.text s' :=
  h.2.elim
    (fun hc => honce.fewer ((StatusKept.of_eips_eq (eips_of_exec hc.keepsEips h.1)).fewer _))
    fun h => h.2.effect.atMostOnce h.1 hC honce

end ReconcileStep

/-- **`Reconcile` is safe** in its surroundings: it is the IPAM path, for a service it
has read as no node proxy, or it writes no status. -/
theorem safe_reconcile_steps {f : Faults} (env : Env) {k : NamespacedName} {C : Prop}
    {P : Cluster → Prop} {R : Cluster → Cluster → Prop} {s : Cluster}
    (hR : k.Valid → Surroundings f k C P R) (honce : k.Valid → C → AtMostOnce k.text s)
    (hP : ∀ s₁ svc, R s s₁ → VStore.Reads f s₁.services k (.ok svc) →
      hasOpenELBNPAnnotation svc.obj.annotations = false → P s₁) :
    Prog.Safe (exec f) R (fun _ c r _ => ReconcileStep f k C P c r) (fun _ _ _ => True) []
      (reconcile env k) s := by
  rw [reconcile]
  refine safe_api fun s₁ r s₂ hs he => ⟨⟨he, .inl trivial⟩, ?_⟩
  obtain ⟨rfl, hread⟩ := he
  rcases r with (_ | _ | msg) | svc
  · exact safe_pure fun _ _ => trivial
  · exact safe_fail fun _ _ => trivial
  · exact safe_fail fun _ _ => trivial
  · dsimp only
    split
    · refine (Prog.Safe.of_all (J := fun _ _ => True) (fun _ _ _ _ _ => trivial)
        (fun _ _ _ => trivial) ?_ (all_reconcileNP env svc)).mono (fun _ _ _ _ _ _ h => h)
        fun _ _ _ _ => trivial
      exact fun _ _ _ _ _ _ hc he => ⟨⟨he, .inl hc⟩, trivial⟩
    · rename_i hnp
      obtain ⟨hlog, hkey⟩ := hread.mem_log
      have hk : k.Valid := hkey ▸ svc.obj.key_valid
      have honce' := fun hC => (honce hk hC).fewer ((hR hk).fewer hC _ _ hs)
      have hK : Known C P svc s₂ := ⟨fun _ => hlog, hP _ _ hs hread (by simpa using hnp)⟩
      exact (safe_ipam (hR hk) hkey honce' hK).executed.mono
        (fun _ _ _ _ _ _ h => ⟨h.2, .inr ⟨hk, h.1⟩⟩) fun _ _ _ h => h

end OpenELB
