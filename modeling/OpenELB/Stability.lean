import OpenELB.PoolChoice
import OpenELB.StatusAgreement

/-! # Whether the choice of an Eip is stable

A service that asks for neither an Eip nor an address gets an address of the Eip
that `getDefaultEIP` chooses.  The next `Reconcile` chooses again, and moves the
service if another Eip comes out.  It may: taking the last address of an Eip makes
it full, and a full Eip is worse than any other (`choice_unstable`).

So a `Reconcile` after the one that has given the address does nothing if and only
if the Eip with the address is then the only one that may be chosen
(`choice_stable_iff`). -/
namespace OpenELB
open Go Code

/-! ## What a `Reconcile` keeps of the Eips -/

/-- The Eip without its status. -/
def Eip.bare (e : Eip) : Eip := { e with status := {} }

/-- What does not look at the status is the same for two Eips that differ in it. -/
theorem Eip.eq_of_bare {β : Sort _} (g : Eip → β) (hg : ∀ e : Eip, g e.bare = g e) {e e' : Eip}
    (h : e.bare = e'.bare) : g e = g e' := by
  rw [← hg e, h, hg e']

/-- The same Eips, up to their statuses, and the same namespaces. -/
structure SpecsKept (s s' : Cluster) : Prop where
  eip : ∀ name, (s'.eip name).map Eip.bare = (s.eip name).map Eip.bare
  namespaces : s'.namespaces = s.namespaces

section SpecsKept
variable {f : Faults} {k : NamespacedName} {C : Prop} {P : Cluster → Prop} {c : Call} {r : Reply c}
  {s s' s'' : Cluster} {name : String} {labels : Map String String}

theorem SpecsKept.refl (s : Cluster) : SpecsKept s s := ⟨fun _ => rfl, rfl⟩

theorem SpecsKept.symm (h : SpecsKept s s') : SpecsKept s' s :=
  ⟨fun name => (h.eip name).symm, h.namespaces.symm⟩

theorem SpecsKept.trans (h : SpecsKept s s') (h' : SpecsKept s' s'') : SpecsKept s s'' :=
  ⟨fun name => (h'.eip name).trans (h.eip name), h'.namespaces.trans h.namespaces⟩

theorem namespaces_of_exec (h : exec f c s r s') : s'.namespaces = s.namespaces := by
  have hunit : ∀ {done : Except ApiErr Cluster} {r},
      (∀ s₁, done = .ok s₁ → s₁.namespaces = s.namespaces) → WritesUnit f s done r s' →
      s'.namespaces = s.namespaces := by
    intro done r hdone h
    cases done with
    | error e => rw [h.1]
    | ok s₁ =>
      rcases h with ⟨-, rfl⟩ | ⟨-, e, -, rfl | rfl⟩
      · exact hdone _ rfl
      · rfl
      · exact hdone _ rfl
  have hif : ∀ {p : Prop} [Decidable p] {e : ApiErr} {s₁ : Cluster},
      s₁.namespaces = s.namespaces →
      ∀ s₂, (if p then .error e else .ok s₁ : Except ApiErr Cluster) = .ok s₂ →
        s₂.namespaces = s.namespaces := by
    intro p _ e s₁ h₁ s₂ h₂
    split at h₂
    · cases h₂
    · cases h₂
      exact h₁
  cases c with
  | updateEip v | updateEipStatus v | updateService v | updateServiceStatus v | updateNode v =>
    obtain ⟨_, -, rfl⟩ := h
    rfl
  | createWorkload w => exact hunit (hif (by rfl)) h
  | updateWorkload w => exact hunit (hif (by rfl)) h
  | deleteWorkload k => exact hunit (hif (by rfl)) h
  | _ => rw [h.1]

theorem StatusWritten.bare {e clone : Eip} (h : StatusWritten s e clone s') (name : String) :
    (s'.eip name).map Eip.bare = (s.eip name).map Eip.bare := by
  by_cases hn : name = e.name
  · subst hn
    rw [h.obj, h.found]
    rfl
  · rw [h.frame name hn]

/-- A call of `Reconcile` changes no Eip but for its status. -/
theorem ReconcileStep.specsKept (h : ReconcileStep f k C P c r s s') : SpecsKept s s' := by
  refine ⟨fun name => ?_, namespaces_of_exec h.1⟩
  cases h.effect with
  | kept heips => rw [Cluster.eip, heips, Cluster.eip]
  | released _ hw => exact hw.bare name
  | assigned _ _ hw _ _ => exact hw.bare name

/-- An Eip that is stored was stored before, with another status. -/
theorem SpecsKept.exists_eip (h : SpecsKept s s') {e : Eip} (he : s'.eip e.name = some e) :
    ∃ e₀, s.eip e₀.name = some e₀ ∧ e₀.bare = e.bare := by
  have heip := h.eip e.name
  rw [he, Option.map_some, eq_comm, Option.map_eq_some_iff] at heip
  obtain ⟨e₀, he₀, hbare⟩ := heip
  have hname : e₀.name = e.name := Eip.eq_of_bare Eip.name (fun _ => rfl) hbare
  exact ⟨e₀, hname ▸ he₀, hbare⟩

/-- What does not depend on its status held for it then. -/
theorem SpecsKept.exists_like (h : SpecsKept s s') (P : Eip → Prop) (hP : ∀ e : Eip, P e.bare = P e)
    {e : Eip} (he : s'.eip e.name = some e) (hp : P e) :
    ∃ e₀, e₀.name = e.name ∧ s.eip e₀.name = some e₀ ∧ P e₀ := by
  obtain ⟨e₀, he₀, hbare⟩ := h.exists_eip he
  refine ⟨e₀, Eip.eq_of_bare Eip.name (fun _ => rfl) hbare, he₀, ?_⟩
  rwa [Eip.eq_of_bare P hP hbare]

theorem SpecsKept.hasBound (h : SpecsKept s s') {e : Eip} (he : s'.HasBound name labels e) :
    ∃ e₀, e₀.name = e.name ∧ s.HasBound name labels e₀ :=
  h.exists_like (fun e => e.usable ∧ e.boundTo name labels) (fun _ => rfl) he.1 he.2

theorem SpecsKept.hasDefault (h : SpecsKept s s') {e : Eip} (he : s'.HasDefault e) :
    ∃ e₀, e₀.name = e.name ∧ s.HasDefault e₀ :=
  h.exists_like (fun e => e.usable ∧ e.isDefault) (fun _ => rfl) he.1 he.2

theorem SpecsKept.canChoose {env : Env} (h : SpecsKept s s') (hcan : CanChoose env name labels s) :
    CanChoose env name labels s' := by
  obtain ⟨hfound, hvalid, hcand⟩ := hcan
  refine ⟨by rwa [h.namespaces], fun e he => ?_, ?_⟩
  · obtain ⟨e₀, he₀, hbare⟩ := h.exists_eip he
    have hv : e₀.SelectorValid env labels = e.SelectorValid env labels :=
      Eip.eq_of_bare (Eip.SelectorValid env labels) (fun _ => rfl) hbare
    exact hv ▸ hvalid e₀ he₀
  · obtain ⟨e, he | he⟩ := hcand
    · obtain ⟨e₀, -, he₀⟩ := h.symm.hasBound he
      exact ⟨e₀, .inl he₀⟩
    · obtain ⟨e₀, -, he₀⟩ := h.symm.hasDefault he
      exact ⟨e₀, .inr he₀⟩

end SpecsKept

/-! ## The only choice -/

/-- What an Eip has that was chosen, whatever has happened to the statuses since. -/
structure Eligible (name : String) (labels : Map String String) (s : Cluster) (holder : String) :
    Prop where
  bound : ∀ e, s.HasBound name labels e → ∃ h, h.name = holder ∧ s.HasBound name labels h
  default : (∀ e, ¬ s.HasBound name labels e) → ∃ h, h.name = holder ∧ s.HasDefault h

/-- The Eip is the only one that may be chosen: it is better than all others that are
bound to the namespace, or if none is, it is the only default one. -/
def SoleChoice (name : String) (labels : Map String String) (s : Cluster) (holder : String) : Prop :=
  (∀ h e, s.eip holder = some h → s.HasBound name labels e → e.name ≠ holder → h.less e) ∧
    ((∀ e, ¬ s.HasBound name labels e) → ∀ e, s.HasDefault e → e.name = holder)

section SoleChoice
variable {name : String} {labels : Map String String} {s s' : Cluster} {holder : String}

theorem IsChoice.eligible {e : Eip} (h : IsChoice name labels s e) :
    Eligible name labels s e.name := by
  cases h with
  | bound hb _ => exact ⟨fun _ _ => ⟨e, rfl, hb⟩, fun hnone => absurd hb (hnone e)⟩
  | default hnone hd => exact ⟨fun e' hb => absurd hb (hnone e'), fun _ => ⟨e, rfl, hd⟩⟩

theorem Eligible.kept (h : Eligible name labels s holder) (hk : SpecsKept s s') :
    Eligible name labels s' holder := by
  refine ⟨fun e he => ?_, fun hnone => ?_⟩
  · obtain ⟨e₀, -, he₀⟩ := hk.hasBound he
    obtain ⟨h₀, hname, hb⟩ := h.bound e₀ he₀
    obtain ⟨h', hname', hb'⟩ := hk.symm.hasBound hb
    exact ⟨h', hname'.trans hname, hb'⟩
  · have hnone₀ : ∀ e, ¬ s.HasBound name labels e := by
      intro e he
      obtain ⟨e', -, he'⟩ := hk.symm.hasBound he
      exact hnone e' he'
    obtain ⟨h₀, hname, hd⟩ := h.default hnone₀
    obtain ⟨h', hname', hd'⟩ := hk.symm.hasDefault hd
    exact ⟨h', hname'.trans hname, hd'⟩

/-- **The sole choice is what its name says.** -/
theorem Eligible.soleChoice_iff (h : Eligible name labels s holder) :
    SoleChoice name labels s holder ↔ ∀ e, IsChoice name labels s e → e.name = holder := by
  constructor
  · rintro ⟨hbetter, hsole⟩ e (⟨hb, hbest⟩ | ⟨hnone, hd⟩)
    · by_contra hne
      obtain ⟨h', rfl, hb'⟩ := h.bound e hb
      exact hbest h' hb' (hbetter h' e hb'.1 hb hne)
    · exact hsole hnone e hd
  · intro hsole
    refine ⟨fun h' e hst hb hne => ?_, fun hnone e hd => hsole e (.default hnone hd)⟩
    by_contra hnot
    -- the best of the others may be chosen as well
    obtain ⟨eips, hl⟩ := s.eips.exists_lists
    have hmem : ∀ e', e' ∈ ((eips.map Version.obj).flatMap (Eip.copies name labels)).filter
        (fun e' => e'.name ≠ holder) ↔ s.HasBound name labels e' ∧ e'.name ≠ holder := by
      intro e'
      rw [List.mem_filter, mem_flatMap_copies hl, decide_eq_true_eq]
    obtain ⟨m, hm, hbest⟩ := exists_best (List.ne_nil_of_mem ((hmem e).mpr ⟨hb, hne⟩))
    obtain ⟨hbm, hnem⟩ := (hmem m).mp hm
    refine hnem (hsole m (.bound hbm fun e' hb' => ?_))
    by_cases hn : e'.name = holder
    · subst hn
      obtain rfl := Option.some.inj (hb'.1.symm.trans hst)
      exact Eip.not_less_trans (hbest e ((hmem e).mpr ⟨hb, hne⟩)) hnot
    · exact hbest e' ((hmem e').mpr ⟨hb', hn⟩)

end SoleChoice

/-! ## A service that has been given an address -/

/-- The service asks for the same. -/
structure Service.SameSpec (svc svc' : Service) : Prop where
  ns : svc'.ns = svc.ns
  annotations : ∀ key, svc'.annotations.get key = svc.annotations.get key
  type : svc'.type = svc.type
  loadBalancerIP : svc'.loadBalancerIP = svc.loadBalancerIP
  deletionTimestamp : svc'.deletionTimestamp = svc.deletionTimestamp

section SameSpec
variable {svc svc' result : Service}

theorem needRelease_eq_false_iff : needRelease svc = false ↔
    svc.deletionTimestamp = false ∧ svc.type = .loadBalancer ∧
      svc.annotations.get openELBAnnotationKey = some openELBAnnotationValue := by
  rw [needRelease]
  cases hann : svc.annotations with
  | none => simp [Map.isNil, Map.get]
  | some _ => simp [Map.isNil, and_assoc]

theorem Service.SameSpec.needRelease (h : svc.SameSpec svc') (hw : OpenELB.needRelease svc = false) :
    OpenELB.needRelease svc' = false := by
  rw [needRelease_eq_false_iff] at *
  rwa [h.deletionTimestamp, h.type, h.annotations]

theorem Service.SameSpec.proxy (h : svc.SameSpec svc') :
    hasOpenELBNPAnnotation svc'.annotations = hasOpenELBNPAnnotation svc.annotations := by
  exact hasOpenELBNPAnnotation_congr (by rw [h.annotations])

theorem Service.SameSpec.specifyEIP (h : svc.SameSpec svc') : svc'.specifyEIP = svc.specifyEIP := by
  rw [Service.specifyEIP, h.annotations, Service.specifyEIP]

theorem Service.SameSpec.specifyLBIP (h : svc.SameSpec svc') :
    svc'.specifyLBIP = svc.specifyLBIP := by
  rw [Service.specifyLBIP, h.annotations, h.loadBalancerIP, Service.specifyLBIP]

/-- The result of a `Reconcile` is written without a change to what is asked for. -/
theorem StoredAs.sameSpec (h : StoredAs svc result svc') : svc.SameSpec svc' :=
  ⟨h.ns, h.annotations, h.type, h.loadBalancerIP, h.deletionTimestamp⟩

end SameSpec

/-- A service that asks for neither an Eip nor an address has been given one: all that
the next `Reconcile` looks at. -/
structure Given (env : Env) (k : NamespacedName) (s : Cluster) (svc : Service)
    (labels : Map String String) (eip addr : String) : Prop where
  found : s.service k = some svc
  noProxy : hasOpenELBNPAnnotation svc.annotations = false
  wants : needRelease svc = false
  noEip : svc.specifyEIP = ""
  noIP : svc.specifyLBIP = ""
  recorded : k.text ∈ s.records eip addr
  once : AtMostOnce k.text s
  upToDate : (svc.infoFor eip addr eip).needUpdate = false
  label : (svc.labels.get openELBEIPAnnotationKeyV1Alpha2).isSome
  can : CanChoose env svc.ns labels s
  eligible : Eligible svc.ns labels s eip

section First
variable {f : Faults} {env : Env} {k : NamespacedName} {svc : Service} {s s' : Cluster}
  {l : List (Prog.Event Call Reply)} {eip addr : String}

theorem chooseEIP_eq (heip : svc.specifyEIP = "") (hip : svc.specifyLBIP = "") :
    chooseEIP env svc = (do
      let eip ← getDefaultEIP env svc.ns
      pure eip.name) := by
  rw [chooseEIP, if_pos heip, getEIP, if_pos heip, if_neg (not_not.mpr hip)]

/-- The Eip that was chosen, with what made it a choice. -/
theorem run_chooseEIP_default (hf : f.stale = false) (heip : svc.specifyEIP = "")
    (hip : svc.specifyLBIP = "")
    (h : Prog.Run (exec f) s (chooseEIP env svc) l (.ok eip) s') :
    ∃ e labels, e.name = eip ∧ CanChoose env svc.ns labels s ∧ IsChoice svc.ns labels s e := by
  rw [chooseEIP_eq heip hip] at h
  obtain ⟨e, l₁, l₂, s₁, hget, hrun, -⟩ := run_bind_ok h
  obtain ⟨-, ho, -⟩ := run_pure_iff.mp hrun
  cases ho
  rcases run_getDefaultEIP hf hget with ⟨_, labels, ho, hcan, hchoice⟩ | ⟨_, ho, -⟩
  · cases ho
    exact ⟨e, labels, rfl, hcan, hchoice⟩
  · cases ho

theorem eip_of_requestGiven {allocate : SvcRecord} {allocatedEip allocatedIP : String}
    (h : (svc.requestGiven allocatedEip allocatedIP (.ok eip)).allocate = some allocate) :
    allocate.eip = eip := by
  rw [Service.requestGiven] at h
  split at h
  · cases h
  · cases h
    rfl

/-- There is nothing to update if the status has the address that is recorded. -/
theorem needUpdate_of_status (hip : svc.specifyLBIP = "") (hst : svc.statusLBIP = addr) :
    (svc.infoFor eip addr eip).needUpdate = false := by
  rw [Info.needUpdate]
  split
  · rfl
  · rw [if_pos ⟨rfl, .inr ⟨hip, hst⟩⟩]

/-- **A `Reconcile` that has given an address** leaves the service so. -/
theorem given_of_run (hf : f.stale = false) (honce : AtMostOnce k.text s)
    (hsvc : s.service k = some svc) (hnp : hasOpenELBNPAnnotation svc.annotations = false)
    (hwants : needRelease svc = false) (heip : svc.specifyEIP = "") (hip : svc.specifyLBIP = "")
    (h : Prog.Run (exec f) s (reconcile env k) l (.ok ()) s')
    (hmem : k.text ∈ s'.records eip addr) :
    ∃ svc' labels, svc.SameSpec svc' ∧ Given env k s' svc' labels eip addr := by
  obtain ⟨-, hdel⟩ := needRelease_eq_false hwants
  have honce' : AtMostOnce k.text s' :=
    keeps_of_run_reconcile (I := fun s => AtMostOnce k.text s) hf honce
      (fun _ _ _ _ hstep => hstep.atMostOnce trivial) h honce
  have hkept : SpecsKept s s' :=
    keeps_of_run_reconcile hf honce (fun _ _ _ _ hstep ht => ht.trans hstep.specsKept) h (.refl s)
  obtain ⟨v, E, a, choice, l₁, l₂, hv, hget, hrec, hfor, hchoose, hcarry⟩ :=
    run_reconcile_wanting hf hsvc hnp hwants h
  subst hv
  obtain rfl := Cluster.service_key hsvc
  have hcarried := run_carryOut_ok hf hget honce hrec hfor hcarry
  rcases run_attempt_ok hchoose with ⟨name, rfl, hok⟩ | ⟨e, rfl, -⟩
  · obtain ⟨e, labels, rfl, hcan, hchoice⟩ := run_chooseEIP_default hf heip hip hok
    -- whatever it did, the service is recorded in the Eip chosen
    have hgiven : ∀ svc', v.obj.SameSpec svc' → s'.service v.obj.key = some svc' →
        eip = e.name → (svc'.infoFor eip addr eip).needUpdate = false →
        (svc'.labels.get openELBEIPAnnotationKeyV1Alpha2).isSome →
        Given env v.obj.key s' svc' labels eip addr := by
      rintro svc' hsame hfound rfl hupd hlabel
      exact ⟨hfound, hsame.proxy.trans hnp, hsame.needRelease hwants, hsame.specifyEIP.trans heip,
        hsame.specifyLBIP.trans hip, hmem, honce', hupd, hlabel,
        hsame.ns.symm ▸ hkept.canChoose hcan, hsame.ns.symm ▸ hchoice.eligible.kept hkept⟩
    cases hcarried with
    | released hr ha hfree hres => exact absurd hmem (hfree _ _)
    | @assigned allocate clone _ a' ha _ hmem' hclone hres =>
      obtain ⟨svc', hsvc', hstored, hing, hlab⟩ := withResult_assigned hdel hclone allocate.eip a'
      obtain ⟨rfl, rfl⟩ := honce'.unique hmem hmem'
      have hsame := hstored.sameSpec
      refine ⟨svc', labels, hsame, hgiven svc' hsame (hres.trans hsvc') ?_ ?_ (by rw [hlab]; rfl)⟩
      · exact eip_of_requestGiven ha
      · refine needUpdate_of_status (hsame.specifyLBIP.trans hip) ?_
        rw [Service.statusLBIP, hing]
        simp
    | nothing hr ha hs =>
      subst hs
      rw [Service.requestGiven] at ha
      split at ha
      · rename_i hkeep
        have hupd : (v.obj.infoFor E a e.name).needUpdate = false := by simpa using hkeep.1
        obtain ⟨rfl, -⟩ := needUpdate_eq_false e.name_ne hupd
        have hmem' : v.obj.key.text ∈ s'.records e.name a := by
          rcases hrec with ⟨hE, -⟩ | hmem'
          · exact absurd hE e.name_ne
          · exact hmem'
        obtain ⟨rfl, rfl⟩ := honce.unique hmem hmem'
        have hsame : v.obj.SameSpec v.obj := ⟨rfl, fun _ => rfl, rfl, rfl, rfl⟩
        exact ⟨v.obj, labels, hsame, hgiven v.obj hsame hsvc rfl hupd hkeep.2⟩
      · cases ha
  · -- no Eip was chosen, so nothing is recorded
    exfalso
    cases hcarried with
    | released hr ha hfree hres => exact hfree _ _ hmem
    | assigned ha => cases ha
    | nothing hr ha hs =>
      subst hs
      have hfree := hrec.freeBut honce
      rw [show E = "" from (constructRelease_none hr).1] at hfree
      exact hfree.free _ _ hmem

end First

/-! ## The next `Reconcile` -/

section Next
variable {env : Env} {k : NamespacedName} {s s' : Cluster} {svc : Service}
  {labels : Map String String} {eip addr : String} {l : List (Prog.Event Call Reply)}

theorem CanChoose.labels_eq {labels' : Map String String} {name : String}
    (h : CanChoose env name labels s) (h' : CanChoose env name labels' s) : labels = labels' := by
  obtain ⟨ns, hns, rfl⟩ := h.found
  obtain ⟨ns', hns', rfl⟩ := h'.found
  rw [Option.some.inj (hns.symm.trans hns')]

/-- A record that is found is one of those there are. -/
theorem run_findAllocated {key : String} {eips : List (Version Eip)} (hl : s.eips.Lists eips)
    {o : Outcome (String × String)}
    (hrun : Prog.Run (exec {}) s (findAllocated key eips) l o s') :
    ∃ E a, o = .ok (E, a) ∧ Recorded s key E a := by
  obtain ⟨E, a, rfl, hfound⟩ := trace_findAllocated (hrun.trace honest_of_exec)
  exact ⟨E, a, rfl, hfound.recorded hl⟩

/-- Any record there is may be the one that is found. -/
theorem exists_run_findAllocated {key : String} (hmem : key ∈ s.records eip addr) :
    ∃ eips l, s.eips.Lists eips ∧
      Prog.Run (exec {}) s (findAllocated key eips) l (.ok (eip, addr)) s := by
  obtain ⟨e, he, hdel, hlisted⟩ := Cluster.exists_of_mem_records hmem
  obtain ⟨v, hv, rfl⟩ := Option.map_eq_some_iff.mp he
  obtain rfl : v.obj.name = eip := VStore.key_of_get hv
  obtain ⟨eips, hl⟩ := VStore.exists_lists_cons hv
  obtain ⟨svcs, hget, -⟩ := Eip.exists_get_of_mem_listed hlisted
  obtain ⟨keys, hkeys⟩ : ∃ keys, v.obj.status.used.Ranges (addr :: keys) :=
    Map.exists_ranges_cons (by rw [hget]; rfl)
  have hrange : exec {} (.rangeUsed v.obj.status.used) s (addr :: keys) s := ⟨rfl, hkeys⟩
  refine ⟨v :: eips, [⟨.rangeUsed v.obj.status.used, addr :: keys⟩], hl, ?_⟩
  rw [findAllocated, if_neg (by simp [hdel])]
  refine run_of_api hrange ?_
  rw [List.find?_cons_of_pos (by simpa using hlisted)]
  exact run_pure_iff.mpr ⟨rfl, rfl, rfl⟩

/-- If there is none, none is found. -/
theorem exists_run_findAllocated_of_recorded {key : String} (hrec : Recorded s key eip addr) :
    ∃ eips l, s.eips.Lists eips ∧
      Prog.Run (exec {}) s (findAllocated key eips) l (.ok (eip, addr)) s := by
  rcases hrec with ⟨rfl, rfl, hnone⟩ | hmem
  · obtain ⟨eips, hl⟩ := s.eips.exists_lists
    obtain ⟨l, o, s', hrun⟩ := Prog.exists_run exec_total (findAllocated key eips) s
    obtain ⟨E, a, rfl, hrec⟩ := run_findAllocated hl hrun
    obtain rfl := state_of_run_readOnly (all_findAllocated _ _) hrun
    rcases hrec with ⟨rfl, rfl, -⟩ | hmem
    · exact ⟨eips, l, hl, hrun⟩
    · exact absurd hmem (hnone E a)
  · exact exists_run_findAllocated hmem

/-- **The next `ConstructRequest`** of a service for which an Eip is found whatever happens. -/
theorem run_constructRequest_live (hwants : needRelease svc = false) {P : String → Prop}
    (hchoose : ∀ l o s', Prog.Run (exec {}) s (chooseEIP env svc) l o s' → ∃ e, P e ∧ o = .ok e)
    {o : Outcome Request} (hrun : Prog.Run (exec {}) s (constructRequest env svc) l o s') :
    ∃ E a e, Recorded s svc.key.text E a ∧ P e ∧ o = .ok (svc.requestGiven E a (.ok e)) := by
  rw [constructRequest_eq (needRelease_eq_false hwants).1] at hrun
  obtain ⟨r, s₁, l₁, ⟨rfl, hread⟩, hrun₁, rfl⟩ := run_api hrun
  rcases r with e | eips
  · cases hread
  have hl := hread
  rw [must_ok, Code.pure_bind, requestFrom] at hrun₁
  rcases run_bind hrun₁ with ⟨p, l₂, l₃, s₂, hfind, hrun₂, -⟩ | ⟨_, -, hfind⟩ | ⟨-, hfind⟩
  · obtain ⟨E, a, ho, hrec⟩ := run_findAllocated hl hfind
    cases ho
    obtain rfl := state_of_run_readOnly (all_findAllocated _ _) hfind
    dsimp only at hrun₂
    rw [if_neg (by simp [hwants])] at hrun₂
    rcases run_bind hrun₂ with ⟨r, l₄, l₅, s₃, htry, hrun₃, -⟩ | ⟨_, -, htry⟩ | ⟨-, htry⟩
    · rcases run_attempt htry with ⟨_, hr, hrun₄⟩ | ⟨_, -, hrun₄⟩ | ⟨-, hrun₄⟩
      · obtain ⟨e, hP, ho⟩ := hchoose _ _ _ hrun₄
        cases hr
        cases ho
        exact ⟨E, a, _, hrec, hP, (run_pure_iff.mp hrun₃).2.1⟩
      · obtain ⟨_, -, ho⟩ := hchoose _ _ _ hrun₄
        cases ho
      · obtain ⟨_, -, ho⟩ := hchoose _ _ _ hrun₄
        cases ho
    · rcases run_attempt htry with ⟨_, ho, -⟩ | ⟨_, ho, -⟩ | ⟨ho, -⟩ <;> cases ho
    · rcases run_attempt htry with ⟨_, ho, -⟩ | ⟨_, ho, -⟩ | ⟨-, hrun₄⟩
      · cases ho
      · cases ho
      · obtain ⟨_, -, ho⟩ := hchoose _ _ _ hrun₄
        cases ho
  · obtain ⟨_, _, ho, -⟩ := run_findAllocated hl hfind
    cases ho
  · obtain ⟨_, _, ho, -⟩ := run_findAllocated hl hfind
    cases ho

/-- **Any record may be found, and any choice may be made.** -/
theorem exists_run_constructRequest (hwants : needRelease svc = false)
    (hrec : Recorded s svc.key.text eip addr) {e : String}
    (hchoose : ∃ l, Prog.Run (exec {}) s (chooseEIP env svc) l (.ok e) s) :
    ∃ l, Prog.Run (exec {}) s (constructRequest env svc) l
      (.ok (svc.requestGiven eip addr (.ok e))) s := by
  obtain ⟨eips, l₁, hl, hfind⟩ := exists_run_findAllocated_of_recorded hrec
  obtain ⟨l₂, hchoose⟩ := hchoose
  have hread : exec {} .listEips s (.ok eips) s := ⟨rfl, hl⟩
  have hreq : Prog.Run (exec {}) s (requestFrom env svc eips) (l₁ ++ (l₂ ++ []))
      (.ok (svc.requestGiven eip addr (.ok e))) s := by
    rw [requestFrom]
    refine run_of_bind hfind ?_
    dsimp only
    rw [if_neg (by simp [hwants])]
    exact run_of_bind (run_of_attempt hchoose) (run_pure_iff.mpr ⟨rfl, rfl, rfl⟩)
  rw [constructRequest_eq (needRelease_eq_false hwants).1]
  exact ⟨_, run_of_api hread hreq⟩

/-- **If the next `ConstructRequest` asks for nothing, the next `Reconcile` does nothing.** -/
theorem run_reconcile_of_idle (hfound : s.service k = some svc)
    (hnp : hasOpenELBNPAnnotation svc.annotations = false)
    (hidle : ∀ l o s', Prog.Run (exec {}) s (constructRequest env svc) l o s' → o = .ok {})
    {o : Outcome Unit} (hrun : Prog.Run (exec {}) s (reconcile env k) l o s') :
    (∀ ev ∈ l, ev.call.ReadOnly) ∧ o = .ok () ∧ s' = s := by
  rw [reconcile] at hrun
  obtain ⟨r, s₁, l₁, ⟨rfl, hread⟩, hrun₁, rfl⟩ := run_api hrun
  rcases r with (_ | _ | _) | v
  · rw [Cluster.service, hread.get_none rfl] at hfound
    cases hfound
  · cases hread
  · cases hread
  obtain rfl : v.obj = svc :=
    Option.some.inj ((Cluster.service_of_get (hread.get rfl)).symm.trans hfound)
  dsimp only at hrun₁
  rw [if_neg (by simp [hnp])] at hrun₁
  rcases run_bind hrun₁ with ⟨req, l₂, l₃, s₂, hreq, hcarry, rfl⟩ | ⟨_, -, hreq⟩ | ⟨-, hreq⟩
  · cases hidle _ _ _ hreq
    obtain rfl := state_of_run_readOnly (all_constructRequest env v.obj) hreq
    obtain ⟨rfl, rfl, rfl⟩ := run_pure_iff.mp hcarry
    refine ⟨List.forall_mem_cons.mpr ⟨trivial, ?_⟩, rfl, rfl⟩
    rw [List.append_nil]
    exact (all_constructRequest env v.obj).of_run hreq
  · cases hidle _ _ _ hreq
  · cases hidle _ _ _ hreq

namespace Given

theorem eip_ne (h : Given env k s svc labels eip addr) : eip ≠ "" := by
  obtain ⟨e, he, -⟩ := Cluster.exists_of_mem_records h.recorded
  rw [← Cluster.eip_name he]
  exact e.name_ne

/-- If the same Eip is chosen, there is nothing to do. -/
theorem requestGiven_self (h : Given env k s svc labels eip addr) :
    svc.requestGiven eip addr (.ok eip) = {} := by
  rw [Service.requestGiven, if_pos ⟨by simp [h.upToDate], h.label⟩]

/-- If another one is chosen, the address is released. -/
theorem requestGiven_of_ne (h : Given env k s svc labels eip addr) {name : String}
    (hname : name ≠ "") (hne : name ≠ eip) :
    svc.requestGiven eip addr (.ok name) =
      { release := some ⟨svc.key.text, addr, eip⟩
        allocate := some ⟨svc.key.text, svc.specifyLBIP, name⟩ } := by
  have hupd : (svc.infoFor eip addr name).needUpdate = true := by
    rw [Info.needUpdate, if_neg fun hc => hname hc.1, if_neg fun hc => hne hc.1]
  rw [Service.requestGiven, if_neg fun hc => hc.1 hupd, constructRelease,
    if_neg fun hc => h.eip_ne hc.1]
  rfl

theorem run_chooseEIP (h : Given env k s svc labels eip addr) {o : Outcome String}
    (hrun : Prog.Run (exec {}) s (chooseEIP env svc) l o s') :
    ∃ e, IsChoice svc.ns labels s e ∧ o = .ok e.name := by
  rw [chooseEIP_eq h.noEip h.noIP] at hrun
  have hget : ∀ {l s' o}, Prog.Run (exec {}) s (getDefaultEIP env svc.ns) l o s' →
      ∃ e, IsChoice svc.ns labels s e ∧ o = .ok e := by
    intro l s' o hrun
    rcases run_getDefaultEIP rfl hrun with ⟨e, labels', rfl, hcan, hchoice⟩ | ⟨err, -, hno⟩
    · obtain rfl := hcan.labels_eq h.can
      exact ⟨e, hchoice, rfl⟩
    · rcases hno with hfail | hno
      · cases hfail
      · exact absurd h.can (hno labels)
  rcases run_bind hrun with ⟨e, l₁, l₂, s₁, hrun₁, hrun₂, -⟩ | ⟨err, -, hrun₁⟩ | ⟨-, hrun₁⟩
  · obtain ⟨_, hchoice, ho⟩ := hget hrun₁
    cases ho
    exact ⟨e, hchoice, (run_pure_iff.mp hrun₂).2.1⟩
  · obtain ⟨_, -, ho⟩ := hget hrun₁
    cases ho
  · obtain ⟨_, -, ho⟩ := hget hrun₁
    cases ho

/-- The record is found, and an Eip is chosen. -/
theorem run_constructRequest (h : Given env k s svc labels eip addr) {o : Outcome Request}
    (hrun : Prog.Run (exec {}) s (constructRequest env svc) l o s') :
    ∃ e, IsChoice svc.ns labels s e ∧ o = .ok (svc.requestGiven eip addr (.ok e.name)) := by
  obtain ⟨E, a, _, hrec, ⟨e, hchoice, rfl⟩, rfl⟩ := run_constructRequest_live h.wants
    (P := fun name => ∃ e, IsChoice svc.ns labels s e ∧ name = e.name) (fun l o s' hchoose => by
      obtain ⟨e, hchoice, rfl⟩ := h.run_chooseEIP hchoose
      exact ⟨_, ⟨e, hchoice, rfl⟩, rfl⟩) hrun
  rw [Cluster.service_key h.found] at hrec
  rcases hrec with ⟨-, -, hnone⟩ | hmem
  · exact absurd h.recorded (hnone _ _)
  · obtain ⟨rfl, rfl⟩ := h.once.unique h.recorded hmem
    exact ⟨e, hchoice, rfl⟩

/-- Any choice may be made. -/
theorem exists_run_request (h : Given env k s svc labels eip addr) {e : Eip}
    (hchoice : IsChoice svc.ns labels s e) :
    ∃ l, Prog.Run (exec {}) s (constructRequest env svc) l
      (.ok (svc.requestGiven eip addr (.ok e.name))) s := by
  refine exists_run_constructRequest h.wants (.inr (Cluster.service_key h.found ▸ h.recorded)) ?_
  obtain ⟨l, hget⟩ := exists_run_getDefaultEIP h.can hchoice
  rw [chooseEIP_eq h.noEip h.noIP]
  exact ⟨_, run_of_bind hget (run_pure_iff.mpr ⟨rfl, rfl, rfl⟩)⟩

/-- **If the same Eip is chosen whatever happens, the next `Reconcile` does nothing.** -/
theorem run_reconcile (h : Given env k s svc labels eip addr)
    (hsole : ∀ e, IsChoice svc.ns labels s e → e.name = eip) {o : Outcome Unit}
    (hrun : Prog.Run (exec {}) s (reconcile env k) l o s') :
    (∀ ev ∈ l, ev.call.ReadOnly) ∧ o = .ok () ∧ s' = s := by
  refine run_reconcile_of_idle h.found h.noProxy (fun l o s' hreq => ?_) hrun
  obtain ⟨e, hchoice, rfl⟩ := h.run_constructRequest hreq
  rw [hsole e hchoice, h.requestGiven_self]

/-- The release of the address is a write. -/
theorem exists_run_releaseIP (h : Given env k s svc labels eip addr) :
    ∃ l o s', Prog.Run (exec {}) s (releaseIP ⟨svc.key.text, addr, eip⟩) l o s' ∧
      ∃ ev ∈ l, ¬ ev.call.ReadOnly := by
  obtain ⟨e, he, hdel, hmem⟩ := Cluster.exists_of_mem_records h.recorded
  obtain ⟨v, hv, rfl⟩ := Option.map_eq_some_iff.mp he
  obtain ⟨keys, hkeys⟩ := v.obj.status.used.exists_ranges
  have hne : releaseIPFromEip keys svc.key.text v.obj ≠ v.obj := by
    intro heq
    have hnot := notMem_listed_releaseIPFromEip (NamespacedName.Valid.text_ne_empty (k := svc.key))
      hkeys hdel addr
    rw [heq, Cluster.service_key h.found] at hnot
    exact hnot hmem
  have hget : exec {} (.getEip eip) s (.ok v) s := ⟨rfl, hv⟩
  have hrange : exec {} (.rangeUsed v.obj.status.used) s keys s := ⟨rfl, hkeys⟩
  obtain ⟨r, s₁, hwrite⟩ :=
    exec_total (.updateEipStatus ⟨v.rv, releaseIPFromEip keys svc.key.text v.obj⟩) s
  obtain ⟨l, o, s', hrest⟩ := Prog.exists_run exec_total
    (do let _ ← must r; pure () : Code Unit) s₁
  have hrun : Prog.Run (exec {}) s (releaseIP ⟨svc.key.text, addr, eip⟩)
      (⟨.getEip eip, .ok v⟩ :: ⟨.rangeUsed v.obj.status.used, keys⟩ ::
        ⟨.updateEipStatus ⟨v.rv, releaseIPFromEip keys svc.key.text v.obj⟩, r⟩ :: l) o s' := by
    refine run_of_api hget (run_of_api hrange ?_)
    rw [if_pos hne]
    exact run_of_api hwrite hrest
  exact ⟨_, o, s', hrun, _, List.mem_cons_of_mem _ (List.mem_cons_of_mem _ List.mem_cons_self), id⟩

/-- **If another Eip may be chosen, the next `Reconcile` may release the address.** -/
theorem exists_run_reconcile (h : Given env k s svc labels eip addr) {e : Eip}
    (hchoice : IsChoice svc.ns labels s e) (hne : e.name ≠ eip) :
    ∃ l o s', Prog.Run (exec {}) s (reconcile env k) l o s' ∧ ∃ ev ∈ l, ¬ ev.call.ReadOnly := by
  obtain ⟨v, hv, rfl⟩ := Option.map_eq_some_iff.mp h.found
  have hget : exec {} (.getService k) s (.ok v) s := ⟨rfl, hv⟩
  obtain ⟨l₁, hreq⟩ := h.exists_run_request hchoice
  rw [h.requestGiven_of_ne e.name_ne hne] at hreq
  obtain ⟨l₂, o₂, s₂, hrelease, ev, hev, hwrite⟩ := h.exists_run_releaseIP
  obtain ⟨l₃, o, s', hcarry⟩ : ∃ l₃ o s', Prog.Run (exec {}) s (carryOut v
      { release := some ⟨v.obj.key.text, addr, eip⟩
        allocate := some ⟨v.obj.key.text, v.obj.specifyLBIP, e.name⟩ }) (l₂ ++ l₃) o s' := by
    rw [carryOut, if_neg (by simp)]
    simp only [Code.bind_assoc, Code.pure_bind]
    exact hrelease.exists_bind exec_total _
  refine ⟨⟨.getService k, .ok v⟩ :: (l₁ ++ (l₂ ++ l₃)), o, s', run_of_api hget ?_, ev, ?_, hwrite⟩
  · dsimp only
    rw [if_neg (by simp [h.noProxy])]
    exact run_of_bind hreq hcarry
  · simp [hev]

end Given

end Next

/-! ## Two calls of `Reconcile` -/

/-- The labels of a namespace. -/
def Cluster.labelsOf (s : Cluster) (name : String) : Map String String :=
  ((s.namespaces.get name).map Namespace.labels).getD Map.nil

/-- **When the choice of an Eip is stable.**  A `Reconcile` has returned and a service
that asks for neither an Eip nor an address is recorded in an Eip.  Whatever the
order in which Eips are listed, the next `Reconcile` returns without a write, and
leaves everything as it is, if and only if the Eip is now better than all others
bound to the namespace, or no Eip is bound to it and no other is a default one. -/
theorem choice_stable_iff {f : Faults} (hf : f.stale = false) {env : Env} {k : NamespacedName}
    {svc : Service} {s s' : Cluster} {l : List (Prog.Event Call Reply)} {eip addr : String}
    (honce : AtMostOnce k.text s) (hsvc : s.service k = some svc)
    (hnp : hasOpenELBNPAnnotation svc.annotations = false) (hwants : needRelease svc = false)
    (heip : svc.specifyEIP = "") (hip : svc.specifyLBIP = "")
    (h : Prog.Run (exec f) s (reconcile env k) l (.ok ()) s')
    (hmem : k.text ∈ s'.records eip addr) :
    (∀ l₂ o s₂, Prog.Run (exec {}) s' (reconcile env k) l₂ o s₂ →
        (∀ ev ∈ l₂, ev.call.ReadOnly) ∧ o = .ok () ∧ s₂ = s') ↔
      SoleChoice svc.ns (s'.labelsOf svc.ns) s' eip := by
  obtain ⟨svc', labels, hsame, hg⟩ := given_of_run hf honce hsvc hnp hwants heip hip h hmem
  have hlabels : s'.labelsOf svc.ns = labels := by
    obtain ⟨ns, hns, rfl⟩ := hg.can.found
    rw [Cluster.labelsOf, ← hsame.ns, hns]
    rfl
  rw [hlabels, ← hsame.ns, hg.eligible.soleChoice_iff]
  constructor
  · intro hstable e hchoice
    by_contra hne
    obtain ⟨l₂, o, s₂, hrun, ev, hev, hwrite⟩ := hg.exists_run_reconcile hchoice hne
    exact hwrite ((hstable l₂ o s₂ hrun).1 ev hev)
  · intro hsole l₂ o s₂ hrun
    exact hg.run_reconcile hsole hrun

/-- The Eips of a cluster are those it was made with. -/
theorem Cluster.mem_of_eip {s : Cluster} {eips : List Eip} {e : Eip}
    (hs : s.eips = eips.foldl VStore.put VStore.empty) (h : s.eip e.name = some e) : e ∈ eips := by
  obtain ⟨v, hv, rfl⟩ := Option.map_eq_some_iff.mp h
  rw [hs] at hv
  rcases VStore.mem_of_get_puts hv with hempty | hmem
  · nomatch hempty
  · exact hmem

/-- A service in a namespace that the Eips may be bound to, which asks for nothing. -/
def nsCluster (eips : List Eip) : Cluster :=
  { clusterOf eips [{ webService with
      annotations := Map.ofList [(openELBAnnotationKey, openELBAnnotationValue)] }] with
    namespaces := Map.ofList [("ns", { name := "ns" })] }

/-- A pool of two addresses for the namespace. -/
def nsPool : Eip :=
  { twoAddressesReady with spec := { address := "192.0.2.1-192.0.2.2", namespaces := ["ns"] } }

/-- A pool of one address for the namespace, with a larger priority number. -/
def sparePool : Eip where
  name := "spare"
  spec := { address := "192.0.2.2", namespaces := ["ns"], priority := 2 }
  status := {
    poolSize := 1, used := Map.empty, firstIP := "192.0.2.2", lastIP := "192.0.2.2", v4 := true }

/-- As `inOrder`, with the second pool. -/
def inOrderTwo : Oracle := { order := ["pool", "spare", "192.0.2.1", "192.0.2.2"] }

/-- With two pools for the namespace, of which the better one has an address left, the
service stays where it is. -/
theorem choice_stable_iff_twoPools :
    ∃ l s', Prog.Run (exec {}) (nsCluster [nsPool, sparePool]) (reconcile plainEnv web) l (.ok ())
        s' ∧
      "ns/web" ∈ s'.records "pool" "192.0.2.1" ∧
      ∀ l₂ o s₂, Prog.Run (exec {}) s' (reconcile plainEnv web) l₂ o s₂ → s₂ = s' := by
  obtain ⟨l, s', hrun, hg⟩ : ∃ l s', Prog.Run (exec {}) (nsCluster [nsPool, sparePool])
      (reconcile plainEnv web) l (.ok ()) s' ∧
      (s'.records "pool" "192.0.2.1",
        (s'.eip "pool").bind fun h => (s'.eip "spare").map h.less) = (["ns/web"], some true) :=
    run_of_eval (g := fun s => (s.records "pool" "192.0.2.1",
      (s.eip "pool").bind fun h => (s.eip "spare").map h.less))
      (exec_of_steady inOrderTwo) (by decide +kernel)
  obtain ⟨hrec, hless⟩ := Prod.mk.inj hg
  have honce : AtMostOnce web.text (nsCluster [nsPool, sparePool]) :=
    (Free.of_unused (by decide +kernel) _).atMostOnce
  have hkept : SpecsKept (nsCluster [nsPool, sparePool]) s' :=
    keeps_of_run_reconcile rfl honce (fun _ _ _ _ hstep ht => ht.trans hstep.specsKept) hrun
      (.refl _)
  have hmem : web.text ∈ s'.records "pool" "192.0.2.1" := by
    rw [hrec]
    decide +kernel
  refine ⟨l, s', hrun, hmem, fun l₂ o s₂ hrun₂ => ?_⟩
  have hstable := (choice_stable_iff rfl honce (show _ = some _ by rfl) (by decide +kernel)
    (by decide +kernel) (by decide +kernel) (by decide +kernel) hrun hmem).mpr
    ⟨fun h e hh hb hne => ?_, fun _ e hd => ?_⟩
  · exact (hstable l₂ o s₂ hrun₂).2.2
  · -- the other Eip is the spare one, and the run has kept it worse
    obtain ⟨e₀, he₀, hbare⟩ := hkept.exists_eip hb.1
    have hname : e₀.name = e.name := Eip.eq_of_bare Eip.name (fun _ => rfl) hbare
    have hspare : e.name = "spare" := by
      rcases List.mem_pair.mp (Cluster.mem_of_eip rfl he₀) with rfl | rfl
      · exact absurd hname.symm hne
      · exact hname.symm
    have hst := hb.1
    rw [hspare] at hst
    rw [hh, hst] at hless
    exact Option.some.inj hless
  · -- neither is a default one
    obtain ⟨e₀, -, he₀, -, hd₀⟩ := hkept.hasDefault hd
    have hnone : ∀ e ∈ [nsPool, sparePool], e.isDefault = false := by decide +kernel
    rw [hnone e₀ (Cluster.mem_of_eip rfl he₀)] at hd₀
    cases hd₀

/-- Two pools of one address for the namespace. -/
def twoPools : List Eip :=
  [{ nsPool with
      spec := { address := "192.0.2.1", namespaces := ["ns"], priority := 1 }
      status := {
        poolSize := 1, used := Map.empty, firstIP := "192.0.2.1", lastIP := "192.0.2.1", v4 := true } },
    sparePool]

/-- The better pool is full once the service has its address, so the next `Reconcile`
moves the service to the other one. -/
theorem choice_unstable :
    ∃ l s' l₂ s₂, Prog.Run (exec {}) (nsCluster twoPools) (reconcile plainEnv web) l (.ok ()) s' ∧
      s'.records "pool" "192.0.2.1" = ["ns/web"] ∧
      Prog.Run (exec {}) s' (reconcile plainEnv web) l₂ (.ok ()) s₂ ∧
      s₂.records "pool" "192.0.2.1" = [] ∧ s₂.records "spare" "192.0.2.2" = ["ns/web"] := by
  have hrun : (do
      let x ← Prog.eval (answer inOrderTwo) (reconcile plainEnv web) (nsCluster twoPools)
      let y ← Prog.eval (answer inOrderTwo) (reconcile plainEnv web) x.2
      pure ((x.1, y.1), x.2.records "pool" "192.0.2.1", y.2.records "pool" "192.0.2.1",
        y.2.records "spare" "192.0.2.2")) = some ((.ok (), .ok ()), ["ns/web"], [], ["ns/web"]) := by
    decide +kernel
  simp only [Option.bind_eq_bind, Option.bind_eq_some_iff, Option.pure_def, Option.some.injEq,
    Prod.mk.injEq] at hrun
  obtain ⟨⟨_, s'⟩, hx, ⟨_, s₂⟩, hy, ⟨rfl, rfl⟩, hrec, hrec₁, hrec₂⟩ := hrun
  obtain ⟨l, hrun⟩ := Prog.run_eval (exec_of_steady inOrderTwo) hx
  obtain ⟨l₂, hrun₂⟩ := Prog.run_eval (exec_of_steady inOrderTwo) hy
  exact ⟨l, s', l₂, s₂, hrun, hrec, hrun₂, hrec₁, hrec₂⟩

end OpenELB
