import OpenELB.LowestFree
import OpenELB.Stability

/-! # Which pool is chosen, and which pool is accepted

`getDefaultEIP` ranks the Eips bound to a namespace by whether they are full and by
their priority.  `AssignIP` then checks that the Eip is of a family of the service, and
looks for a free address.  Nothing makes the two agree: the request is accepted exactly
if each Eip that may be chosen can serve the service (`accepted_iff`). -/
namespace OpenELB
open Go Code

/-! ## What `AssignIP` needs -/

/-- The pool is of one of the families of the service. -/
def Eip.OfFamily (e : Eip) (ipFamilies : List IPFamily) : Prop :=
  ∃ r, IpRange.parseRange e.spec.address = .ok (some r) ∧ isSameFamily r.family ipFamilies

/-- An address of the pool that nobody has. -/
def Eip.HasFree (e : Eip) : Prop := ∃ addr, e.HasAddr addr ∧ e.status.used.get addr = none

/-- The Eip can give an address to a service that names none. -/
structure Eip.Serves (e : Eip) (svc : Service) : Prop where
  family : e.OfFamily svc.ipFamilies
  free : e.HasFree
  fresh : svc.key.text ∉ e.listed ""

section Scan
variable {e : Eip} {key addr : String}

/-- Before an address that can be computed, all can. -/
theorem addrAt_of_le {j k : Nat} (hjk : j ≤ k) (h : e.addrAt k = some addr) :
    ∃ addr', e.addrAt j = some addr' := by
  rw [Eip.addrAt] at h ⊢
  split at h
  · cases h
  · rename_i first hfirst
    rw [incrementIP_natCast] at h ⊢
    split at h
    · exact ⟨_, by rw [if_pos (by omega)]; rfl⟩
    · cases h

/-- The loop finds a free address if there is one ahead. -/
theorem scanPool_of_free {fuel offset k : Nat} (hle : offset ≤ k) (hlt : k < offset + fuel)
    (hat : e.addrAt k = some addr) (hfree : e.status.used.get addr = none) :
    ∃ r, scanPool false key e fuel offset = .ok r := by
  induction fuel generalizing offset with
  | zero => omega
  | succ fuel ih =>
    obtain ⟨addr', hat'⟩ := addrAt_of_le hle hat
    rw [scanPool, hat']
    dsimp only
    cases hget : e.status.used.get addr' with
    | none => exact ⟨_, rfl⟩
    | some tmp =>
      have hne : offset ≠ k := by
        rintro rfl
        rw [hat] at hat'
        cases hat'
        rw [hfree] at hget
        cases hget
      obtain ⟨r, hr⟩ := ih (show offset + 1 ≤ k by omega) (by omega)
      exact ⟨r, by simpa using hr⟩

/-- **A service that names no address gets one exactly if one is free.** -/
theorem assignIPFromEip_plain {keys : List String} {svc : Service} (hu : e.usable)
    (hkeys : e.status.used.Ranges keys) (hfresh : svc.key.text ∉ e.listed "") :
    (∃ addr clone, assignIPFromEip keys ⟨svc.key.text, "", e.name⟩ e = .ok (addr, clone)) ↔
      e.HasFree := by
  obtain ⟨hdel, hdis⟩ : e.deletionTimestamp = false ∧ e.spec.disable = false := by
    simpa [Eip.usable] using hu
  rw [assignIPFromEip_of_parseIP_none hdel hdis hkeys hfresh (show parseIP "" = none by decide)]
  constructor
  · rintro ⟨addr, clone, h⟩
    obtain ⟨i, hle, hlt, hat, ⟨hfree, -⟩ | ⟨hnamed, -⟩⟩ := scanPool_ok h
    · exact ⟨addr, ⟨i, hle, by omega, hat⟩, hfree⟩
    · cases hnamed
  · rintro ⟨addr, ⟨offset, h0, hlt, hat⟩, hfree⟩
    obtain ⟨k, rfl⟩ := Int.eq_ofNat_of_zero_le h0
    have hscan : ∃ r, scanPool false svc.key.text e e.status.poolSize.toNat (0 : Nat) = .ok r :=
      scanPool_of_free (Nat.zero_le k) (by omega) hat hfree
    obtain ⟨⟨addr', clone⟩, hr⟩ := hscan
    exact ⟨addr', clone, hr⟩

end Scan

section Assign
variable {s s' : Cluster} {l : List (Prog.Event Call Reply)} {svc : Service} {e : Eip}
  {o : Outcome String}

/-- An Eip that can serve the service does. -/
theorem run_assignIP_serves (he : s.eip e.name = some e) (hu : e.usable) (hserves : e.Serves svc)
    (h : Prog.Run (exec {}) s (assignIP svc.ipFamilies ⟨svc.key.text, "", e.name⟩) l o s') :
    ∃ addr, o = .ok addr := by
  rw [assignIP] at h
  obtain ⟨r, s₁, l₁, ⟨rfl, hread⟩, hrun, rfl⟩ := run_api h
  obtain ⟨v, hv, rfl⟩ := Option.map_eq_some_iff.mp he
  obtain rfl : r = .ok v := by
    rcases r with (_ | _ | _) | w
    · rcases hread with hnone | hstale
      · rw [hv] at hnone
        cases hnone
      · cases hstale
    · cases hread
    · cases hread
    · have hw : s₁.eips.get v.obj.name = some w := hread
      rw [Option.some.inj (hv.symm.trans hw)]
  obtain ⟨range, hparse, hfam⟩ := hserves.family
  rw [must_ok, Code.pure_bind, hparse] at hrun
  dsimp only at hrun
  rw [if_pos hfam, assignFrom] at hrun
  obtain ⟨keys, s₂, l₂, ⟨rfl, hkeys⟩, hrun₂, rfl⟩ := run_api hrun
  obtain ⟨addr, clone, hassign⟩ := (assignIPFromEip_plain hu hkeys hserves.fresh).mpr hserves.free
  rw [hassign] at hrun₂
  dsimp only at hrun₂
  split at hrun₂
  · obtain ⟨r, s₃, l₃, ⟨eips, hwrite, rfl⟩, hrun₃, rfl⟩ := run_api hrun₂
    have hname : clone.name = v.obj.name := by
      rw [(assignIPFromEip_ok hassign).2.2.sameButUsed]
    -- the version that was read is still the one that is stored
    have hok : ∃ w, r = .ok w := by
      rcases hwrite with hw | ⟨hfail, -⟩
      · rw [VStore.write] at hw
        simp only [hname, hv] at hw
        split at hw
        · exact absurd rfl ‹_›
        · dsimp only [Eip.applyStatus] at hw
          split at hw
          · exact ⟨_, congrArg Prod.fst hw⟩
          · exact ⟨_, congrArg Prod.fst hw⟩
      · cases hfail
    obtain ⟨w, rfl⟩ := hok
    exact ⟨addr, (run_pure_iff.mp hrun₃).2.1⟩
  · exact ⟨addr, (run_pure_iff.mp hrun₂).2.1⟩

/-- `AssignIP` returns only if the family is right. -/
theorem ofFamily_of_run_assignIP {ipFamilies : List IPFamily} {allocate : SvcRecord} {addr : String}
    (he : s.eip allocate.eip = some e)
    (h : Prog.Run (exec {}) s (assignIP ipFamilies allocate) l (.ok addr) s') :
    e.OfFamily ipFamilies := by
  rw [assignIP] at h
  obtain ⟨r, s₁, l₁, ⟨rfl, hread⟩, hrun, rfl⟩ := run_api h
  rcases r with _ | v
  · cases (run_fail_iff.mp hrun).2.1
  · have hv : s₁.eips.get allocate.eip = some v := hread
    obtain rfl : e = v.obj := Option.some.inj (he.symm.trans (Cluster.eip_of_get hv))
    rw [must_ok, Code.pure_bind] at hrun
    split at hrun
    · cases (run_fail_iff.mp hrun).2.1
    · cases (run_crash_iff.mp hrun).2.1
    · rename_i range hparse
      split at hrun
      · rename_i hfam
        exact ⟨range, hparse, hfam⟩
      · cases (run_fail_iff.mp hrun).2.1

/-- **`AssignIP` gives the service an address of the Eip exactly if the Eip can serve it.** -/
theorem run_assignIP_iff (hk : svc.key.Valid) (he : s.eip e.name = some e) (hu : e.usable)
    (h : Prog.Run (exec {}) s (assignIP svc.ipFamilies ⟨svc.key.text, "", e.name⟩) l o s') :
    (∃ addr, o = .ok addr ∧ e.HasAddr addr ∧ svc.key.text ∈ s'.records e.name addr) ↔
      e.Serves svc := by
  constructor
  · rintro ⟨addr, rfl, haddr, -⟩
    obtain ⟨e', keys, clone, he', hkeys, hassign, -⟩ := run_assignIP_ok rfl h
    obtain rfl : e = e' := Option.some.inj (he.symm.trans he')
    have hfresh : svc.key.text ∉ e.listed "" := by
      intro hmem
      obtain ⟨hdel, hdis, -⟩ := assignIPFromEip_ok hassign
      have hempty : assignIPFromEip keys ⟨svc.key.text, "", e.name⟩ e = .ok ("", e) :=
        assignIPFromEip_of_mem hdel hdis hkeys hmem
      rw [hassign] at hempty
      cases hempty
      exact haddr.ne_empty rfl
    exact ⟨ofFamily_of_run_assignIP he h, (assignIPFromEip_plain hu hkeys hfresh).mp
      ⟨addr, clone, hassign⟩, hfresh⟩
  · intro hserves
    obtain ⟨addr, rfl⟩ := run_assignIP_serves he hu hserves h
    have hmem := mem_records_of_run_assignIP rfl hk rfl h
    obtain ⟨e', keys, clone, he', hkeys, hassign, -⟩ := run_assignIP_ok rfl h
    obtain rfl : e = e' := Option.some.inj (he.symm.trans he')
    refine ⟨addr, rfl, ?_, hmem⟩
    exact (assignIPFromEip_ok hassign).2.2.hasAddr hserves.fresh

end Assign

/-! ## The request and its acceptance -/

/-- Whatever request `ConstructRequest` returns, `AssignIP` accepts it: the service gets an
address of the Eip.  A request to do nothing is for a service that has an address. -/
def Accepted (env : Env) (svc : Service) (s : Cluster) : Prop :=
  ∀ l o s', Prog.Run (exec {}) s (constructRequest env svc) l o s' → ∃ req, o = .ok req ∧
    (req.allocate = none → req = {} ∧ ∃ eip addr, svc.key.text ∈ s.records eip addr) ∧
    ∀ allocate, req.allocate = some allocate →
      ∀ l o s₁, Prog.Run (exec {}) s' (assignIP svc.ipFamilies allocate) l o s₁ →
        ∃ e addr, s.eip allocate.eip = some e ∧ o = .ok addr ∧ e.HasAddr addr ∧
          svc.key.text ∈ s₁.records allocate.eip addr

/-- Each Eip that may be chosen can serve the service, or is the one it has its address
from. -/
structure ChoicesServe (env : Env) (svc : Service) (labels : Map String String) (s : Cluster) :
    Prop where
  valid : ∀ e, s.eip e.name = some e → e.SelectorValid env labels
  serves : ∀ e, IsChoice svc.ns labels s e → e.Serves svc ∨
    ∀ eip addr, Recorded s svc.key.text eip addr → svc.requestGiven eip addr (.ok e.name) = {}

/-- What may be chosen is stored and counts. -/
theorem IsChoice.stored {name : String} {labels : Map String String} {s : Cluster} {e : Eip}
    (h : IsChoice name labels s e) : s.eip e.name = some e ∧ e.usable := by
  rcases h with ⟨⟨he, hu, -⟩, -⟩ | ⟨-, he, hu, -⟩
  · exact ⟨he, hu⟩
  · exact ⟨he, hu⟩

section Request
variable {env : Env} {svc : Service} {labels : Map String String} {s s' : Cluster}
  {l : List (Prog.Event Call Reply)}

/-- Without faults, what `chooseEIP` returns is one of the choices. -/
theorem run_chooseEIP_choice (hcan : CanChoose env svc.ns labels s) (heip : svc.specifyEIP = "")
    (hip : svc.specifyLBIP = "") {o : Outcome String}
    (h : Prog.Run (exec {}) s (chooseEIP env svc) l o s') :
    ∃ name, (∃ e, IsChoice svc.ns labels s e ∧ e.name = name) ∧ o = .ok name := by
  rw [chooseEIP_eq heip hip] at h
  rcases run_bind h with ⟨e, l₁, l₂, s₁, hget, hrun, -⟩ | ⟨err, -, hget⟩ | ⟨-, hget⟩
  · rcases run_getDefaultEIP rfl hget with ⟨e', labels', ho, hcan', hchoice⟩ | ⟨_, ho, -⟩
    · obtain rfl := Outcome.ok.inj ho
      rw [hcan'.labels_eq hcan] at hchoice
      exact ⟨e.name, ⟨e, hchoice, rfl⟩, (run_pure_iff.mp hrun).2.1⟩
    · nomatch ho
  · rcases run_getDefaultEIP rfl hget with ⟨_, _, ho, -⟩ | ⟨_, -, hfail | hno⟩
    · nomatch ho
    · nomatch hfail
    · exact absurd hcan (hno labels)
  · rcases run_getDefaultEIP rfl hget with ⟨_, _, ho, -⟩ | ⟨_, ho, -⟩
    · nomatch ho
    · nomatch ho

/-- Each of the choices may be returned. -/
theorem exists_run_chooseEIP {e : Eip} (hcan : CanChoose env svc.ns labels s)
    (heip : svc.specifyEIP = "") (hip : svc.specifyLBIP = "") (hchoice : IsChoice svc.ns labels s e) :
    ∃ l, Prog.Run (exec {}) s (chooseEIP env svc) l (.ok e.name) s := by
  obtain ⟨l, hget⟩ := exists_run_getDefaultEIP hcan hchoice
  rw [chooseEIP_eq heip hip]
  exact ⟨_, run_of_bind hget (run_pure_iff.mpr ⟨rfl, rfl, rfl⟩)⟩

/-- With an Eip chosen, a request that assigns nothing leaves a record in that Eip alone. -/
theorem requestGiven_idle {e : Eip} {eip addr : String} (hrec : Recorded s svc.key.text eip addr)
    (h : (svc.requestGiven eip addr (.ok e.name)).allocate = none) :
    svc.requestGiven eip addr (.ok e.name) = {} ∧ svc.key.text ∈ s.records eip addr := by
  rw [Service.requestGiven] at h ⊢
  split at h
  · rename_i hkeep
    rw [if_pos hkeep]
    obtain ⟨hname, -⟩ := needUpdate_eq_false e.name_ne (by simpa using hkeep.1)
    rcases hrec with ⟨hE, -⟩ | hmem
    · exact absurd (hname.trans hE) e.name_ne
    · exact ⟨rfl, hmem⟩
  · contradiction

/-- A request that assigns something is for the Eip chosen. -/
theorem requestGiven_allocate {e : Eip} {eip addr : String} {allocate : SvcRecord}
    (hip : svc.specifyLBIP = "")
    (h : (svc.requestGiven eip addr (.ok e.name)).allocate = some allocate) :
    allocate = ⟨svc.key.text, "", e.name⟩ := by
  rw [Service.requestGiven] at h
  split at h
  · contradiction
  · rw [← hip]
    exact (Option.some.inj h).symm

/-- Without an Eip, nothing is assigned to the service and it does not keep an address. -/
theorem not_accepted_of_error {eip addr : String} {err : Err}
    (hrec : Recorded s svc.key.text eip addr) :
    ¬ (svc.requestGiven eip addr (.error err) = {} ∧
      ∃ eip addr, svc.key.text ∈ s.records eip addr) := by
  rintro ⟨hreq, E, a, hmem⟩
  obtain ⟨heip, -, -⟩ := constructRelease_none (congrArg Request.release hreq)
  rcases hrec with ⟨-, -, hnone⟩ | hmem'
  · exact hnone E a hmem
  · obtain ⟨e, he, -⟩ := Cluster.exists_of_mem_records hmem'
    exact e.name_ne ((Cluster.eip_name he).trans heip)

/-- A request that is accepted was made with an Eip chosen, so all selectors are valid. -/
theorem Accepted.canChoose (hwants : needRelease svc = false) (heip : svc.specifyEIP = "")
    (hip : svc.specifyLBIP = "") (h : Accepted env svc s) :
    ∃ labels, CanChoose env svc.ns labels s := by
  obtain ⟨l, o, s', hrun⟩ := Prog.exists_run exec_total (constructRequest env svc) s
  obtain ⟨req, rfl, hidle, -⟩ := h l o s' hrun
  obtain ⟨-, ⟨hnil, -⟩ | ⟨-, E, a, hrec, -, hreq⟩⟩ := run_constructRequest_ok rfl hrun
  · rw [(needRelease_eq_false hwants).1] at hnil
    nomatch hnil
  · rcases hreq with ⟨hrel, -⟩ | ⟨-, choice, l₂, hchoose, rfl⟩
    · rw [hwants] at hrel
      nomatch hrel
    · rcases run_attempt_ok hchoose with ⟨name, rfl, hok⟩ | ⟨err, rfl, -⟩
      · obtain ⟨-, labels, -, hcan, -⟩ := run_chooseEIP_default rfl heip hip hok
        exact ⟨labels, hcan⟩
      · exact absurd (hidle rfl) (not_accepted_of_error hrec)

/-- If each choice serves, every request is accepted. -/
theorem ChoicesServe.accepted (hk : svc.key.Valid) (hwants : needRelease svc = false)
    (heip : svc.specifyEIP = "") (hip : svc.specifyLBIP = "")
    (hcan : CanChoose env svc.ns labels s) (h : ChoicesServe env svc labels s) :
    Accepted env svc s := by
  intro l o s' hrun
  obtain rfl := state_of_run_readOnly (all_constructRequest env svc) hrun
  obtain ⟨E, a, _, hrec, ⟨e, hchoice, rfl⟩, rfl⟩ := run_constructRequest_live hwants
    (fun l o s' hrun => run_chooseEIP_choice hcan heip hip hrun) hrun
  refine ⟨_, rfl, fun hnone => ?_, fun allocate hallocate l₁ o₁ s₁ hassign => ?_⟩
  · obtain ⟨hreq, hmem⟩ := requestGiven_idle hrec hnone
    exact ⟨hreq, E, a, hmem⟩
  · obtain rfl := requestGiven_allocate hip hallocate
    obtain ⟨he, hu⟩ := hchoice.stored
    rcases h.serves e hchoice with hserves | hempty
    · obtain ⟨addr, ho, haddr, hmem⟩ := (run_assignIP_iff hk he hu hassign).mpr hserves
      exact ⟨e, addr, he, ho, haddr, hmem⟩
    · rw [hempty E a hrec] at hallocate
      nomatch hallocate

/-- If every request is accepted, each choice serves. -/
theorem Accepted.choicesServe (hk : svc.key.Valid) (hwants : needRelease svc = false)
    (heip : svc.specifyEIP = "") (hip : svc.specifyLBIP = "")
    (hcan : CanChoose env svc.ns labels s) (h : Accepted env svc s) :
    ChoicesServe env svc labels s := by
  refine ⟨hcan.valid, fun e hchoice => ?_⟩
  by_cases hempty : ∀ eip addr, Recorded s svc.key.text eip addr →
      svc.requestGiven eip addr (.ok e.name) = {}
  · exact .inr hempty
  · push Not at hempty
    obtain ⟨E, a, hrec, hne⟩ := hempty
    obtain ⟨l, hrun⟩ := exists_run_constructRequest hwants hrec
      (exists_run_chooseEIP hcan heip hip hchoice)
    obtain ⟨req, ho, -, hassign⟩ := h l _ s hrun
    obtain rfl := Outcome.ok.inj ho
    cases hallocate : (svc.requestGiven E a (.ok e.name)).allocate with
    | none => exact absurd (requestGiven_idle hrec hallocate).1 hne
    | some allocate =>
      have hsome := hallocate
      obtain rfl := requestGiven_allocate hip hallocate
      obtain ⟨he, hu⟩ := hchoice.stored
      obtain ⟨l₁, o₁, s₁, hrun₁⟩ := Prog.exists_run exec_total
        (assignIP svc.ipFamilies ⟨svc.key.text, "", e.name⟩) s
      obtain ⟨e', addr, he', ho₁, haddr, hmem⟩ := hassign _ hsome l₁ o₁ s₁ hrun₁
      obtain rfl : e = e' := Option.some.inj (he.symm.trans he')
      exact .inl ((run_assignIP_iff hk he hu hrun₁).mp ⟨addr, ho₁, haddr, hmem⟩)

/-- Of a pool whose books are right and that is chosen while another one is not full, only
the family matters. -/
theorem serves_iff_ofFamily {e e₀ : Eip} {b : IP} (hchoice : IsChoice svc.ns labels s e)
    (hbound : s.HasBound svc.ns labels e₀) (hfull : e₀.status.occupied = false) (hpool : Pooled e b)
    (hocc : e.status.occupied = true ↔ e.status.poolSize ≤ e.status.usage) :
    e.Serves svc ↔ e.OfFamily svc.ipFamilies := by
  refine ⟨Eip.Serves.family, fun hfam => ⟨hfam, ?_, ?_⟩⟩
  · -- a full pool would come after the one that is not
    have hnot : e.status.occupied ≠ true := by
      intro htrue
      rcases hchoice with ⟨-, hbest⟩ | ⟨hnone, -⟩
      · exact hbest e₀ hbound (Eip.less_iff.mpr (.inl ⟨hfull, htrue⟩))
      · exact hnone e₀ hbound
    obtain ⟨k, hk, hfree⟩ := hpool.exists_free_iff.mpr (not_le.mp fun hle => hnot (hocc.mpr hle))
    exact ⟨_, hpool.hasAddr hk, hfree⟩
  · rw [Eip.listed_of_get_none hpool.get_empty_text]
    exact List.not_mem_nil

end Request

/-- **When the choice of a pool and the family check agree.**  A service that names neither
an Eip nor an address, in a namespace to which an Eip is bound: its request is accepted and
gives it an address exactly if the selectors of the Eips are valid and every best bound Eip
can serve it (or already does).  Among pools whose books are right, with one that is not
full, this is a matter of their families. -/
theorem accepted_iff {env : Env} {svc : Service} {s : Cluster} {ns : Namespace} {e₀ : Eip}
    (hk : svc.key.Valid) (hwants : needRelease svc = false) (heip : svc.specifyEIP = "")
    (hip : svc.specifyLBIP = "") (hns : s.namespaces.get svc.ns = some ns)
    (hbound : s.HasBound svc.ns ns.labels e₀) :
    (Accepted env svc s ↔ ChoicesServe env svc ns.labels s) ∧
      ∀ e b, IsChoice svc.ns ns.labels s e → Pooled e b →
        (e.status.occupied = true ↔ e.status.poolSize ≤ e.status.usage) →
        e₀.status.occupied = false → (e.Serves svc ↔ e.OfFamily svc.ipFamilies) := by
  have hcan : (∀ e, s.eip e.name = some e → e.SelectorValid env ns.labels) →
      CanChoose env svc.ns ns.labels s :=
    fun hvalid => ⟨⟨ns, hns, rfl⟩, hvalid, e₀, .inl hbound⟩
  refine ⟨⟨fun h => ?_, fun h => h.accepted hk hwants heip hip (hcan h.valid)⟩, ?_⟩
  · obtain ⟨labels, hcan'⟩ := h.canChoose hwants heip hip
    obtain ⟨ns', hns', rfl⟩ := hcan'.found
    obtain rfl : ns = ns' := Option.some.inj (hns.symm.trans hns')
    exact h.choicesServe hk hwants heip hip hcan'
  · intro e b hchoice hpool hocc hfull
    exact serves_iff_ofFamily hchoice hbound hfull hpool hocc

/-- A service that names neither an Eip nor an address. -/
def askingNothing : Service :=
  { webService with annotations := Map.ofList [(openELBAnnotationKey, openELBAnnotationValue)] }

theorem serves_nsPool : nsPool.Serves askingNothing := by
  refine ⟨⟨⟨.v4Family, v4InV6Prefix ++ [192, 0, 2, 1], v4InV6Prefix ++ [192, 0, 2, 2]⟩, ?_⟩,
    ⟨"192.0.2.1", ⟨0, ?_⟩, rfl⟩, List.not_mem_nil⟩
  · decide +kernel
  · decide +kernel

/-- An IPv6 pool for the namespace. -/
def sixPool : Eip where
  name := "six"
  spec := { address := "2001:db8::1-2001:db8::2", namespaces := ["ns"] }
  status := { poolSize := 2, used := Map.empty, firstIP := "2001:db8::1", lastIP := "2001:db8::2" }

/-- The IPv6 pool, with a larger priority number. -/
def laterSix : Eip := { sixPool with spec := { sixPool.spec with priority := 1 } }

/-- With a pool of each family for the namespace and the right one before the other, the
service gets an address. -/
theorem accepted_iff_bothFamilies :
    (nsCluster [laterSix, nsPool]).HasBound "ns" Map.nil laterSix ∧
      Accepted plainEnv askingNothing (nsCluster [laterSix, nsPool]) := by
  have hbound : (nsCluster [laterSix, nsPool]).HasBound "ns" Map.nil laterSix ∧
      (nsCluster [laterSix, nsPool]).HasBound "ns" Map.nil nsPool :=
    ⟨⟨by rfl, by decide +kernel, by decide +kernel⟩, by rfl, by decide +kernel, by decide +kernel⟩
  have hk : askingNothing.key.Valid := ⟨by decide, by decide⟩
  have hns : (nsCluster [laterSix, nsPool]).namespaces.get askingNothing.ns =
      some { name := "ns" } := by rfl
  refine ⟨hbound.1, (accepted_iff hk (by decide +kernel) (by decide +kernel) (by decide +kernel)
    hns hbound.2).1.mpr ⟨fun e _ => ?_, fun e hchoice => ?_⟩⟩
  · exact fun _ _ => rfl
  · rcases List.mem_pair.mp (Cluster.mem_of_eip rfl hchoice.stored.1) with rfl | rfl
    · -- the IPv4 pool is better
      rcases hchoice with ⟨-, hbest⟩ | ⟨hnone, -⟩
      · exact absurd (by decide +kernel) (hbest nsPool hbound.2)
      · exact absurd hbound.2 (hnone nsPool)
    · exact .inl serves_nsPool

/-- The IPv4 pool, with a larger priority number. -/
def fourPool : Eip := { nsPool with spec := { nsPool.spec with priority := 1 } }

/-- As `inOrder`, with the IPv6 pool. -/
def inOrderFamilies : Oracle := { order := ["six", "pool"] }

/-- The IPv4 pool is bound to the namespace and has free addresses, but the IPv6 pool is
chosen, and refused. -/
theorem family_refused :
    (nsCluster [sixPool, fourPool]).HasBound "ns" Map.nil fourPool ∧
      fourPool.status.occupied = false ∧ fourPool.Serves askingNothing ∧
      ∃ l l₁ s₁, Prog.Run (exec {}) (nsCluster [sixPool, fourPool])
          (constructRequest plainEnv askingNothing) l
          (.ok { allocate := some ⟨"ns/web", "", "six"⟩ }) (nsCluster [sixPool, fourPool]) ∧
        Prog.Run (exec {}) (nsCluster [sixPool, fourPool])
          (assignIP askingNothing.ipFamilies ⟨"ns/web", "", "six"⟩) l₁
          (.err (.text "service can't use different family eip")) s₁ := by
  have heval : Prog.returns (answer inOrderFamilies) (constructRequest plainEnv askingNothing)
      (nsCluster [sixPool, fourPool]) = some (.ok { allocate := some ⟨"ns/web", "", "six"⟩ }) ∧
      Prog.returns (answer inOrderFamilies)
        (assignIP askingNothing.ipFamilies ⟨"ns/web", "", "six"⟩) (nsCluster [sixPool, fourPool]) =
      some (.err (.text "service can't use different family eip")) := by
    decide +kernel
  obtain ⟨l, hrun⟩ := Prog.run_eval (exec_of_steady inOrderFamilies) (Prog.eval_of_returns heval.1)
  obtain ⟨l₁, hrun₁⟩ := Prog.run_eval (exec_of_steady inOrderFamilies)
    (Prog.eval_of_returns heval.2)
  rw [state_of_run_readOnly (all_constructRequest plainEnv askingNothing) hrun] at hrun
  -- the priority is all that the pool does not share with `nsPool`
  have hserves : fourPool.Serves askingNothing :=
    ⟨serves_nsPool.family, serves_nsPool.free, serves_nsPool.fresh⟩
  exact ⟨⟨by rfl, by decide +kernel, by decide +kernel⟩, rfl, hserves, l, l₁, _, hrun, hrun₁⟩

end OpenELB
