import OpenELB.RequestedAddress
import OpenELB.Stability

/-! # Whether a service that asks for an address is left alone

A service may name an Eip and an address of its pool.  `needUpdate` compares the address as
a text: what the service asks for, as the user has spelled it, with the key in the Eip's
`Status.Used`, as `net.IP.String` spells it.  If the two spellings differ, the service gets
the address that it asks for, and every later `Reconcile` releases it and assigns it again
(`spelling_moves`).

So the service is left alone if and only if all its records are for the Eip and the address
that it asks for, letter for letter, which comes to the spelling of the request
(`left_alone_iff`). -/
namespace OpenELB
open Go Code

/-- There is nothing left to do for the service: `ConstructRequest` asks for nothing, and
`Reconcile` returns without a write. -/
structure LeftAlone (env : Env) (k : NamespacedName) (s : Cluster) : Prop where
  request : ∃ svc, s.service k = some svc ∧
    ∀ l o s', Prog.Run (exec {}) s (constructRequest env svc) l o s' → o = .ok {}
  reconcile : ∀ l o s', Prog.Run (exec {}) s (OpenELB.reconcile env k) l o s' →
    (∀ ev ∈ l, ev.call.ReadOnly) ∧ o = .ok () ∧ s' = s

/-- All records of the service are for the Eip and the address that it asks for, letter for
letter. -/
def Service.RecordedAsAsked (svc : Service) (s : Cluster) : Prop :=
  ∀ eip addr, svc.key.text ∈ s.records eip addr → eip = svc.specifyEIP ∧ addr = svc.specifyLBIP

/-! ## A service that has got an address -/

/-- A service that asks for an Eip and an address has a record, a label and a status. -/
structure Granted (k : NamespacedName) (s : Cluster) (svc : Service) : Prop where
  found : s.service k = some svc
  noProxy : hasOpenELBNPAnnotation svc.annotations = false
  wants : needRelease svc = false
  eip : svc.specifyEIP ≠ ""
  ip : svc.specifyLBIP ≠ ""
  label : (svc.labels.get openELBEIPAnnotationKeyV1Alpha2).isSome
  status : svc.statusLBIP ≠ ""
  recorded : ∃ eip addr, k.text ∈ s.records eip addr

section Named
variable {env : Env} {k : NamespacedName} {s s' : Cluster} {svc : Service}

theorem chooseEIP_named (h : svc.specifyEIP ≠ "") : chooseEIP env svc = pure svc.specifyEIP := by
  rw [chooseEIP, if_neg h]

namespace Granted

/-- The request is empty if what is recorded is what is asked for. -/
theorem requestGiven_eq_iff (h : Granted k s svc) (eip addr : String) :
    svc.requestGiven eip addr (.ok svc.specifyEIP) = {} ↔
      eip = svc.specifyEIP ∧ addr = svc.specifyLBIP := by
  have hupd : (svc.infoFor eip addr svc.specifyEIP).needUpdate = false ↔
      eip = svc.specifyEIP ∧ addr = svc.specifyLBIP := by
    constructor
    · intro hno
      obtain ⟨heip, ⟨hip, -⟩ | ⟨hip, -⟩⟩ := needUpdate_eq_false h.eip hno
      · exact ⟨heip.symm, hip.symm⟩
      · exact absurd hip h.ip
    · rintro ⟨rfl, rfl⟩
      rw [Info.needUpdate, if_neg fun hc => h.eip hc.1, if_pos ⟨rfl, .inl ⟨rfl, h.status⟩⟩]
  rw [← hupd, Service.requestGiven]
  by_cases hno : (svc.infoFor eip addr svc.specifyEIP).needUpdate = false
  · rw [if_pos ⟨by simp [hno], h.label⟩]
    exact iff_of_true rfl hno
  · rw [if_neg fun hc => hno (by simpa using hc.1)]
    refine iff_of_false (fun he => ?_) hno
    cases congrArg Request.allocate he

/-- **The service is left alone if all its records are as asked, and only then.** -/
theorem leftAlone_iff (h : Granted k s svc) : LeftAlone env k s ↔ svc.RecordedAsAsked s := by
  have hkey := Cluster.service_key h.found
  constructor
  · rintro ⟨⟨svc', hfound, hidle⟩, -⟩ eip addr hmem
    obtain rfl := Option.some.inj (hfound.symm.trans h.found)
    -- any of the records may be the one that is found
    have hchoose : ∃ l, Prog.Run (exec {}) s (chooseEIP env svc') l (.ok svc'.specifyEIP) s :=
      ⟨[], by rw [chooseEIP_named h.eip]; exact run_pure_iff.mpr ⟨rfl, rfl, rfl⟩⟩
    obtain ⟨l, hrun⟩ := exists_run_constructRequest h.wants (.inr hmem) hchoose
    exact (h.requestGiven_eq_iff eip addr).mp (Outcome.ok.inj (hidle _ _ _ hrun))
  · intro hasked
    have hidle : ∀ l o s', Prog.Run (exec {}) s (constructRequest env svc) l o s' → o = .ok {} := by
      intro l o s' hrun
      obtain ⟨E, a, _, hrec, rfl, rfl⟩ := run_constructRequest_live h.wants
        (P := fun name => name = svc.specifyEIP) (fun l o s' hchoose => by
          rw [chooseEIP_named h.eip] at hchoose
          exact ⟨_, rfl, (run_pure_iff.mp hchoose).2.1⟩) hrun
      rcases hrec with ⟨-, -, hnone⟩ | hmem
      · obtain ⟨eip, addr, hmem⟩ := h.recorded
        exact absurd (hkey ▸ hmem) (hnone eip addr)
      · rw [(h.requestGiven_eq_iff E a).mpr (hasked E a hmem)]
    exact ⟨⟨svc, h.found, hidle⟩, fun l o s' => run_reconcile_of_idle h.found h.noProxy hidle⟩

end Granted

end Named

/-! ## A `Reconcile` of such a service -/

/-- How a `Reconcile` of a service that asks for an Eip and an address ends well.  What is
recorded is what is asked for, or the service has lost what it had and got an address. -/
inductive NamedRun (f : Faults) (svc : Service) (s s' : Cluster) : Prop
  | kept : s' = s → svc.key.text ∈ s.records svc.specifyEIP svc.specifyLBIP →
      (svc.labels.get openELBEIPAnnotationKeyV1Alpha2).isSome → svc.statusLBIP ≠ "" →
      NamedRun f svc s s'
  | got {req : Request} {E a addr : String} {clone : Service} {s₁ s₂ : Cluster}
      {l : List (Prog.Event Call Reply)} : Recorded s svc.key.text E a → RequestFor svc E a req →
      ReleasePart f svc req s clone s₁ →
      Prog.Run (exec f) s₁ (assignIP svc.ipFamilies
        ⟨svc.key.text, svc.specifyLBIP, svc.specifyEIP⟩) l (.ok addr) s₂ →
      svc.key.text ∈ s'.records svc.specifyEIP addr →
      s'.service svc.key = svc.withResult (clone.assigned svc.specifyEIP addr) →
      NamedRun f svc s s'

section First
variable {f : Faults} {env : Env} {k : NamespacedName} {svc : Service} {s s' : Cluster}
  {l : List (Prog.Event Call Reply)}

theorem namedRun_of_run (hf : f.stale = false) (hsvc : s.service k = some svc)
    (hnp : hasOpenELBNPAnnotation svc.annotations = false) (hwants : needRelease svc = false)
    (heip : svc.specifyEIP ≠ "") (hip : svc.specifyLBIP ≠ "")
    (h : Prog.Run (exec f) s (reconcile env k) l (.ok ()) s') : NamedRun f svc s s' := by
  obtain ⟨v, E, a, eip, l₁, l₂, rfl, hget, hrec, hfor, hchoose, hcarry⟩ :=
    run_reconcile_wanting hf hsvc hnp hwants h
  -- the Eip is the one that the service names
  obtain rfl : eip = .ok v.obj.specifyEIP := by
    rw [chooseEIP_named heip] at hchoose
    rcases run_attempt_ok hchoose with ⟨name, rfl, hok⟩ | ⟨e, rfl, hfail⟩
    · rw [Outcome.ok.inj (run_pure_iff.mp hok).2.1]
    · cases (run_pure_iff.mp hfail).2.1
  by_cases hkeep : ¬ (v.obj.infoFor E a v.obj.specifyEIP).needUpdate ∧
      (v.obj.labels.get openELBEIPAnnotationKeyV1Alpha2).isSome
  · rw [Service.requestGiven, if_pos hkeep] at hcarry
    have hsame : s' = s := (run_pure_iff.mp hcarry).2.2
    obtain ⟨rfl, ⟨rfl, hst⟩ | ⟨hempty, -⟩⟩ := needUpdate_eq_false heip (by simpa using hkeep.1)
    · rcases hrec with ⟨hE, -⟩ | hmem
      · exact absurd hE heip
      · exact .kept hsame hmem hkeep.2 hst
    · exact absurd hempty hip
  · rw [Service.requestGiven, if_neg hkeep] at hfor hcarry
    rcases run_carryOut_parts hcarry with ⟨-, ha, -⟩ | ⟨clone, s₁, l₄, hpart, hrun⟩
    · cases ha
    · have hget₁ : s₁.services.get v.obj.key = some v := hpart.services ▸ hget
      obtain ⟨addr, l₅, s₂, hassign, hmem, hres⟩ :=
        run_allocateFor_ok hf hget₁ hpart.key rfl hrun
      exact .got hrec hfor hpart hassign hmem hres

/-- The address that is returned is not the empty text. -/
theorem addr_ne_of_run_assignIP (hf : f.stale = false) {ipFamilies : List IPFamily}
    {allocate : SvcRecord} {addr : String} (hip : allocate.ip ≠ "")
    (h : Prog.Run (exec f) s (assignIP ipFamilies allocate) l (.ok addr) s') : addr ≠ "" := by
  obtain ⟨e, keys, clone, -, -, hassign, -⟩ := run_assignIP_ok hf h
  cases (assignIPFromEip_ok hassign).2.2 with
  | already => exact hip
  | free haddr _ => exact haddr.ne_empty
  | shared _ haddr _ => exact haddr.ne_empty

/-- **After such a `Reconcile` the service has a record, a label and a status**, and asks for
the same as before. -/
theorem NamedRun.granted (hf : f.stale = false) (hsvc : s.service svc.key = some svc)
    (hnp : hasOpenELBNPAnnotation svc.annotations = false) (hwants : needRelease svc = false)
    (heip : svc.specifyEIP ≠ "") (hip : svc.specifyLBIP ≠ "") (h : NamedRun f svc s s') :
    ∃ svc', svc.SameSpec svc' ∧ Granted svc.key s' svc' := by
  cases h with
  | kept hs hmem hlabel hst =>
    subst hs
    exact ⟨svc, ⟨rfl, fun _ => rfl, rfl, rfl, rfl⟩, hsvc, hnp, hwants, heip, hip, hlabel, hst,
      _, _, hmem⟩
  | @got req E a addr clone s₁ s₂ l _ _ hpart hassign hmem hres =>
    obtain ⟨svc', hsvc', hstored, hing, hlab⟩ :=
      withResult_assigned (needRelease_eq_false hwants).2 hpart.clone_eq svc.specifyEIP addr
    have hsame := hstored.sameSpec
    have hst : svc'.statusLBIP = addr := by
      rw [Service.statusLBIP, hing]
      simp
    exact ⟨svc', hsame, hres.trans hsvc', hsame.proxy.trans hnp, hsame.needRelease hwants,
      hsame.specifyEIP ▸ heip, hsame.specifyLBIP ▸ hip, by rw [hlab]; rfl,
      hst ▸ addr_ne_of_run_assignIP hf hip hassign, _, _, hmem⟩

end First

/-! ## The spelling of the address -/

/-- The Eip is stored with a status that was filled in, its `Status.Used` has addresses of the
pool as `net.IP.String` spells them, and the address is in the pool and of the family of the
first one. -/
structure Cluster.Offers (s : Cluster) (e : Eip) (ip : IP) : Prop where
  stored : s.eip e.name = some e
  initialised : e.Initialised
  used : ∀ addr, (e.status.used.get addr).isSome → ∃ x, e.Denotes x ∧ addr = ipString x
  denotes : e.Denotes ip
  family : ∀ b, parseIP e.status.firstIP = some b → ((to4 ip).isSome ↔ (to4 b).isSome)

section Spelling
variable {f : Faults} {svc : Service} {s s' : Cluster} {l : List (Prog.Event Call Reply)} {e : Eip}
  {ip : IP}

theorem StatusWritten.sameButUsed {clone : Eip} (h : StatusWritten s e clone s')
    (hsame : e.SameButUsed clone) : ∃ e', s'.eip e.name = some e' ∧ e.SameButUsed e' := by
  rw [h.obj, hsame]
  exact ⟨_, rfl, rfl⟩

/-- A release changes nothing of an Eip but what is in use. -/
theorem ReleasePart.eip (hf : f.stale = false) {req : Request} {clone : Service}
    (h : ReleasePart f svc req s clone s') (he : s.eip e.name = some e) :
    ∃ e', s'.eip e.name = some e' ∧ e.SameButUsed e' := by
  cases h with
  | skipped => exact ⟨e, he, .refl e⟩
  | released _ hrel =>
    rcases run_releaseIP_ok hf hrel with ⟨rfl, -⟩ | ⟨e₁, keys, -, -, ⟨rfl, -⟩ | hw⟩
    · exact ⟨e, he, .refl e⟩
    · exact ⟨e, he, .refl e⟩
    · by_cases hn : e.name = e₁.name
      · obtain rfl : e = e₁ := Option.some.inj (he.symm.trans (hn ▸ hw.found))
        exact hw.sameButUsed (sameButUsed_releaseIPFromEip keys _ e)
      · exact ⟨e, (hw.frame _ hn).trans he, .refl e⟩

/-- **A service without records gets the address that it asks for, in the spelling of
`net.IP.String`.** -/
theorem addr_of_run_assignIP (hf : f.stale = false) {ipFamilies : List IPFamily}
    {allocate : SvcRecord} {addr : String}
    (h : Prog.Run (exec f) s (assignIP ipFamilies allocate) l (.ok addr) s')
    (hsemi : ';' ∉ allocate.key.toList) (hfree : Free allocate.key s)
    (he : s.eip allocate.eip = some e) (hinit : e.Initialised)
    (hip : parseIP allocate.ip = some ip) (hin : e.Denotes ip)
    (hfam : ∀ b, parseIP e.status.firstIP = some b → ((to4 ip).isSome ↔ (to4 b).isSome)) :
    addr = ipString ip := by
  obtain ⟨e', keys, clone, he', hkeys, hassign, -⟩ := run_assignIP_ok hf h
  obtain rfl := Option.some.inj (he'.symm.trans he)
  obtain ⟨hdel, hdis, ha⟩ := assignIPFromEip_ok hassign
  have hnew : allocate.key ∉ e'.listed allocate.ip := by
    rw [← Cluster.records_of_eip he hdel]
    exact hfree _ _
  have hgood : HonouredOrRefused keys allocate e' :=
    (honouredOrRefused_iff_of_some hinit hdel hdis hkeys hnew hip).mpr fun b hb =>
      .inl ⟨hsemi, hin, hfam b hb⟩
  obtain ⟨⟨x, hx, haddr⟩, -⟩ := hgood.honoured _ _ hassign
  obtain rfl := Option.some.inj (hip.symm.trans hx)
  exact (ha.hasAddr hnew).eq_ipString haddr

/-- With one record, it is the one that is asked for or not. -/
theorem recordedAsAsked_iff_of_mem {addr : String} (honce : AtMostOnce svc.key.text s)
    (hmem : svc.key.text ∈ s.records svc.specifyEIP addr) :
    svc.RecordedAsAsked s ↔ addr = svc.specifyLBIP := by
  refine ⟨fun hasked => (hasked _ _ hmem).2, ?_⟩
  rintro rfl E a hmem'
  obtain ⟨rfl, rfl⟩ := honce.unique hmem hmem'
  exact ⟨rfl, rfl⟩

/-- **What is recorded is as asked if the request is in the spelling of `net.IP.String`.** -/
theorem NamedRun.recordedAsAsked_iff (hf : f.stale = false) (honce : AtMostOnce svc.key.text s)
    (honce' : AtMostOnce svc.key.text s') (heip : svc.specifyEIP = e.name)
    (hip : parseIP svc.specifyLBIP = some ip) (hoff : s.Offers e ip) (h : NamedRun f svc s s') :
    svc.RecordedAsAsked s' ↔ svc.specifyLBIP = ipString ip := by
  cases h with
  | kept hs hmem _ _ =>
    subst hs
    refine iff_of_true ((recordedAsAsked_iff_of_mem honce hmem).mpr rfl) ?_
    -- the text is a key of the map, and those are spelled so
    obtain ⟨e', he', -, hlisted⟩ := Cluster.exists_of_mem_records hmem
    rw [heip] at he'
    obtain rfl := Option.some.inj (he'.symm.trans hoff.stored)
    obtain ⟨svcs, hget, -⟩ := Eip.exists_get_of_mem_listed hlisted
    obtain ⟨x, hx, htext⟩ := hoff.used _ (by rw [hget]; rfl)
    rw [htext, parseIP_ipString (.inr hx.length), to16_of_to4_none hx.length] at hip
    rw [htext, Option.some.inj hip]
  | got hrec hfor hpart hassign hmem _ =>
    obtain ⟨e', he', hsame⟩ := hpart.eip hf hoff.stored
    have hsemi : ';' ∉ svc.key.text.toList := svc.key_valid.semicolon_notMem
    have hinit : e'.Initialised := by
      rw [hsame]
      exact hoff.initialised
    have hin : e'.Denotes ip := by
      rw [hsame]
      exact hoff.denotes
    have hfam : ∀ b, parseIP e'.status.firstIP = some b → ((to4 ip).isSome ↔ (to4 b).isSome) := by
      rw [hsame]
      exact hoff.family
    have hfree := hpart.free hf honce hrec hfor
    obtain rfl := addr_of_run_assignIP hf hassign hsemi hfree (heip ▸ he') hinit hip hin hfam
    rw [recordedAsAsked_iff_of_mem honce' hmem, eq_comm]

end Spelling

/-- **When a service that asks for an address is left alone.**  A `Reconcile` has returned for
a service that names an Eip and, in some spelling, an address.  Then `ConstructRequest` asks
for nothing and the next `Reconcile` writes nothing if and only if all records of the service
are for the Eip and the text that it asks for.  If the service had at most one record, and the
address is one that the Eip has to offer, that is so if and only if the request is in the
spelling of `net.IP.String`. -/
theorem left_alone_iff {f : Faults} (hf : f.stale = false) {env : Env} {k : NamespacedName}
    {svc : Service} {s s' : Cluster} {l : List (Prog.Event Call Reply)} {e : Eip} {ip : IP}
    (hsvc : s.service k = some svc) (hnp : hasOpenELBNPAnnotation svc.annotations = false)
    (hwants : needRelease svc = false) (heip : svc.specifyEIP = e.name)
    (hip : parseIP svc.specifyLBIP = some ip)
    (h : Prog.Run (exec f) s (reconcile env k) l (.ok ()) s') :
    (LeftAlone env k s' ↔ svc.RecordedAsAsked s') ∧
      (AtMostOnce k.text s → s.Offers e ip →
        (LeftAlone env k s' ↔ svc.specifyLBIP = ipString ip)) := by
  have hne : svc.specifyEIP ≠ "" := heip ▸ e.name_ne
  have hipne : svc.specifyLBIP ≠ "" := by
    intro he
    rw [he, show parseIP "" = none by decide] at hip
    cases hip
  have hnamed := namedRun_of_run hf hsvc hnp hwants hne hipne h
  obtain rfl := Cluster.service_key hsvc
  have hasked : LeftAlone env svc.key s' ↔ svc.RecordedAsAsked s' := by
    obtain ⟨svc', hsame, hg⟩ := hnamed.granted hf hsvc hnp hwants hne hipne
    rw [hg.leftAlone_iff, Service.RecordedAsAsked, Cluster.service_key hg.found, hsame.specifyEIP,
      hsame.specifyLBIP, Service.RecordedAsAsked]
  refine ⟨hasked, fun honce hoff => ?_⟩
  have honce' : AtMostOnce svc.key.text s' :=
    keeps_of_run_reconcile (I := fun s => AtMostOnce svc.key.text s) hf honce
      (fun _ _ _ _ hstep => hstep.atMostOnce trivial) h honce
  rw [hasked, hnamed.recordedAsAsked_iff hf honce honce' heip hip hoff]

/-- The service asks for an address of an Eip. -/
def askingService (eip addr : String) (ipFamily : IPFamily) : Service :=
  { webService with
    annotations := Map.ofList [(openELBAnnotationKey, openELBAnnotationValue),
      (openELBEIPAnnotationKeyV1Alpha2, eip)]
    loadBalancerIP := addr
    ipFamilies := [ipFamily] }

/-- A new pool and a service that asks for an address of it. -/
def askingCluster (e : Eip) (addr : String) (ipFamily : IPFamily) : Cluster :=
  clusterOf [e] [askingService e.name addr ipFamily]

/-- As `inOrder`, for the two pools. -/
def inOrderAsked : Oracle := { order := ["lan", "2001:db8::1", "10.0.0.7", "doc"] }

/-- A request for `10.0.0.7` is spelled so, and the service is left alone. -/
theorem left_alone_iff_lan :
    ∃ l s', Prog.Run (exec {}) (askingCluster lanReady "10.0.0.7" .ipv4) (reconcile plainEnv web) l
        (.ok ()) s' ∧ LeftAlone plainEnv web s' := by
  obtain ⟨l, s', hrun, -⟩ : ∃ l s', Prog.Run (exec {}) (askingCluster lanReady "10.0.0.7" .ipv4)
      (reconcile plainEnv web) l (.ok ()) s' ∧ s'.records "lan" "10.0.0.7" = ["ns/web"] :=
    run_of_eval (g := fun s => s.records "lan" "10.0.0.7") (exec_of_steady inOrderAsked)
      (by decide +kernel)
  have hparse : parseIP "10.0.0.7" = some (v4InV6Prefix ++ [10, 0, 0, 7]) := by decide +kernel
  have hfirst : parseIP lanReady.status.firstIP = some (v4InV6Prefix ++ [10, 0, 0, 0]) := by
    decide +kernel
  have hoff : (askingCluster lanReady "10.0.0.7" .ipv4).Offers lanReady
      (v4InV6Prefix ++ [10, 0, 0, 7]) := by
    refine ⟨rfl, initialised_lanReady, used_lanReady, ?_, fun b hb => ?_⟩
    · exact (Eip.denotes_iff (show readPool lanReady.spec.address = _ from readPool_lan) _).mpr
        ⟨by decide, by decide +kernel⟩
    · cases hfirst.symm.trans hb
      decide +kernel
  have hone : AtMostOnce web.text (askingCluster lanReady "10.0.0.7" .ipv4) :=
    (Free.of_unused (by decide +kernel) _).atMostOnce
  have hiff := left_alone_iff rfl (show _ = some (askingService "lan" "10.0.0.7" .ipv4) by rfl)
    (by decide +kernel) (by decide +kernel) (show _ = lanReady.name by decide +kernel) hparse hrun
  exact ⟨l, s', hrun, (hiff.2 hone hoff).mpr (by decide +kernel)⟩

/-- A pool of IPv6 addresses. -/
def docPool : Eip where
  name := "doc"
  spec := { address := "2001:0db8::0/120" }

/-- The pool as the controller leaves it when it is new. -/
def docReady : Eip :=
  { docPool with status := {
      poolSize := 256, used := Map.empty, firstIP := "2001:db8::", lastIP := "2001:db8::ff" } }

theorem readPool_docPool : readPool docPool.spec.address =
    some (.block [0x20, 1, 0xd, 0xb8, 0, 0, 0, 0, 0, 0, 0, 0, 0, 0, 0, 0] 8) := by
  decide +kernel

theorem initialised_docReady : docReady.Initialised := by
  have hstatus : initStatus docPool = some { docReady with status.used := Map.nil } := by
    decide +kernel
  have hrun : Prog.Trace Honest (updateEip docPool) [⟨.rangeUsed Map.nil, []⟩] (.ok docReady) :=
    (trace_updateEip_fresh rfl).mpr (.inl ⟨_, hstatus, rfl, rfl⟩)
  have hcount : docPool.count = 256 := by
    rw [Eip.count_eq readPool_docPool]
    decide +kernel
  exact ⟨docPool, docReady, _, rfl, rfl, hrun, by rw [hcount]; rfl, rfl, rfl⟩

/-- **A service that is moved for the spelling of its request.**  It asks for `2001:0db8::1` and
gets it, as `2001:db8::1`.  The next `ConstructRequest` asks for the release of the address and
for the same address again, and the next `Reconcile` writes both. -/
theorem spelling_moves :
    docReady.Initialised ∧
    docReady.Denotes [0x20, 1, 0xd, 0xb8, 0, 0, 0, 0, 0, 0, 0, 0, 0, 0, 0, 1] ∧
    parseIP "2001:0db8::1" = some [0x20, 1, 0xd, 0xb8, 0, 0, 0, 0, 0, 0, 0, 0, 0, 0, 0, 1] ∧
    ∃ l s' svc l₁ s₁ l₂ s₂,
      Prog.Run (exec {}) (askingCluster docReady "2001:0db8::1" .ipv6) (reconcile plainEnv web) l
        (.ok ()) s' ∧
      s'.records "doc" "2001:db8::1" = ["ns/web"] ∧ s'.service web = some svc ∧
      svc.statusLBIP = "2001:db8::1" ∧
      Prog.Run (exec {}) s' (constructRequest plainEnv svc) l₁
        (.ok { release := some ⟨"ns/web", "2001:db8::1", "doc"⟩
               allocate := some ⟨"ns/web", "2001:0db8::1", "doc"⟩ }) s₁ ∧
      Prog.Run (exec {}) s' (reconcile plainEnv web) l₂ (.ok ()) s₂ ∧
      (s₂.eips.get "doc").map Version.rv ≠ (s'.eips.get "doc").map Version.rv := by
  refine ⟨initialised_docReady, ?_, by decide +kernel, ?_⟩
  · exact (Eip.denotes_iff (show readPool docReady.spec.address = _ from readPool_docPool) _).mpr
      ⟨by decide, by decide +kernel⟩
  have hrun : (do
      let x ← Prog.eval (answer inOrderAsked) (reconcile plainEnv web)
        (askingCluster docReady "2001:0db8::1" .ipv6)
      let svc ← x.2.service web
      let y ← Prog.eval (answer inOrderAsked) (constructRequest plainEnv svc) x.2
      let z ← Prog.eval (answer inOrderAsked) (reconcile plainEnv web) x.2
      pure ((x.1, y.1, z.1), x.2.records "doc" "2001:db8::1", svc.statusLBIP,
        decide ((z.2.eips.get "doc").map Version.rv = (x.2.eips.get "doc").map Version.rv))) =
      some ((.ok (), .ok { release := some ⟨"ns/web", "2001:db8::1", "doc"⟩
                           allocate := some ⟨"ns/web", "2001:0db8::1", "doc"⟩ }, .ok ()),
        ["ns/web"], "2001:db8::1", false) := by
    decide +kernel
  simp only [Option.bind_eq_bind, Option.bind_eq_some_iff, Option.pure_def, Option.some.injEq,
    Prod.mk.injEq, decide_eq_false_iff_not] at hrun
  obtain ⟨⟨_, s'⟩, hx, svc, hsvc, ⟨_, s₁⟩, hy, ⟨_, s₂⟩, hz, ⟨rfl, rfl, rfl⟩, hrec, hst, hne⟩ := hrun
  obtain ⟨l, hrun⟩ := Prog.run_eval (exec_of_steady inOrderAsked) hx
  obtain ⟨l₁, hreq⟩ := Prog.run_eval (exec_of_steady inOrderAsked) hy
  obtain ⟨l₂, hrun₂⟩ := Prog.run_eval (exec_of_steady inOrderAsked) hz
  exact ⟨l, s', svc, l₁, s₁, l₂, s₂, hrun, hrec, hsvc, hst, hreq, hrun₂, hne⟩

end OpenELB
