import OpenELB.Records

/-! # What `ConstructRequest` asks for

`ConstructRequest` only reads.  It lists the Eips, looks for the record of the
service in them (`FoundIn`), and decides from that, from the service and from the
Eip chosen for it (`Service.requestGiven`).  `run_requestFrom` takes a run of the
decision apart, under any semantics of the calls, so it serves runs against the
server and traces alike. -/
namespace OpenELB
open Go Code

/-! ## Code that only reads -/

/-- The call changes nothing. -/
def Call.ReadOnly : Call → Prop
  | .updateEip _ | .updateEipStatus _ | .updateService _ | .updateServiceStatus _ | .updateNode _
  | .createWorkload _ | .updateWorkload _ | .deleteWorkload _ => False
  | _ => True

theorem state_of_readOnly {f : Faults} {c : Call} {s s' : Cluster} {r : Reply c} (hc : c.ReadOnly)
    (h : exec f c s r s') : s' = s := by
  cases c with
  | updateEip _ | updateEipStatus _ | updateService _ | updateServiceStatus _ | updateNode _
  | createWorkload _ | updateWorkload _ | deleteWorkload _ => exact hc.elim
  | _ => exact h.1

theorem state_of_run_readOnly {α : Type} {f : Faults} {p : Prog Call Reply α} {s s' : Cluster}
    {l : List (Prog.Event Call Reply)} {a : α} (hp : p.All Call.ReadOnly)
    (h : Prog.Run (exec f) s p l a s') : s' = s := by
  induction h with
  | ret => rfl
  | call he _ ih => exact (ih (hp.2 _)).trans (state_of_readOnly hp.1 he)

theorem all_findAllocated (svcInfo : String) (eips : List (Version Eip)) :
    Prog.All Call.ReadOnly (findAllocated svcInfo eips) := by
  induction eips with
  | nil => trivial
  | cons v eips ih =>
    rw [findAllocated]
    split
    · exact ih
    · refine all_api trivial fun keys => ?_
      split
      · trivial
      · exact ih

theorem all_usableEip (e : Eip) : Prog.All Call.ReadOnly (usableEip e) := by
  rw [usableEip]
  split
  · trivial
  split <;> trivial

theorem all_pickEip (nseips : List Eip) (defaultEip : Option Eip) :
    Prog.All Call.ReadOnly (pickEip nseips defaultEip) := by
  unfold pickEip
  split
  · refine all_api trivial fun l => ?_
    split <;> trivial
  · split <;> trivial

theorem all_getDefaultEIP (env : Env) (name : String) :
    Prog.All Call.ReadOnly (getDefaultEIP env name) := by
  refine all_api trivial fun r => all_bind (all_must r) fun ns => ?_
  refine all_api trivial fun r => all_bind (all_must r) fun eips => ?_
  split
  · trivial
  · exact all_pickEip _ _

theorem all_getEIP (env : Env) (ns svcip specifyEip : String) :
    Prog.All Call.ReadOnly (getEIP env ns svcip specifyEip) := by
  rw [getEIP]
  split
  · split
    · refine all_api trivial fun r => all_bind (all_must r) fun eips => ?_
      split
      · exact all_usableEip _
      · trivial
    · exact all_getDefaultEIP env ns
  · refine all_api trivial fun r => all_bind (all_must r) fun v => ?_
    refine all_bind (all_usableEip _) fun e => ?_
    split <;> trivial

theorem all_chooseEIP (env : Env) (svc : Service) : Prog.All Call.ReadOnly (chooseEIP env svc) := by
  rw [chooseEIP]
  split
  · exact all_bind (all_getEIP _ _ _ _) fun _ => trivial
  · trivial

/-! ## The record of a service -/

/-- What the loops of `getAllocatedEIPInfo` find in a list of Eips. -/
def FoundIn (eips : List (Version Eip)) (svcInfo eip addr : String) : Prop :=
  (eip = "" ∧ addr = "" ∧
    ∀ v ∈ eips, v.obj.deletionTimestamp = false → ∀ a, svcInfo ∉ v.obj.listed a) ∨
  ∃ v ∈ eips, v.obj.deletionTimestamp = false ∧ v.obj.name = eip ∧ svcInfo ∈ v.obj.listed addr

/-- What is recorded for a service: nothing, or the record at an address of an Eip. -/
def Recorded (s : Cluster) (svcInfo eip addr : String) : Prop :=
  (eip = "" ∧ addr = "" ∧ ∀ name a, svcInfo ∉ s.records name a) ∨ svcInfo ∈ s.records eip addr

theorem FoundIn.recorded {s : Cluster} {eips : List (Version Eip)} {svcInfo eip addr : String}
    (hl : s.eips.Lists eips) (h : FoundIn eips svcInfo eip addr) : Recorded s svcInfo eip addr := by
  rcases h with ⟨rfl, rfl, hnone⟩ | ⟨v, hv, hdel, rfl, hmem⟩
  · refine .inl ⟨rfl, rfl, fun name a hmem => ?_⟩
    obtain ⟨e, he, hdel, hlisted⟩ := Cluster.exists_of_mem_records hmem
    obtain ⟨v, hv, rfl⟩ := Option.map_eq_some_iff.mp he
    have hname := VStore.key_of_get hv
    exact hnone v (hl.mem_iff.mpr (hname.symm ▸ hv)) hdel a hlisted
  · refine .inr ?_
    rw [Cluster.records_of_eip (Cluster.eip_of_get (hl.mem_iff.mp hv)) hdel]
    exact hmem

theorem trace_findAllocated {svcInfo : String} {eips : List (Version Eip)}
    {l : List (Prog.Event Call Reply)} {o : Outcome (String × String)}
    (h : Prog.Trace Honest (findAllocated svcInfo eips) l o) :
    ∃ eip addr, o = .ok (eip, addr) ∧ FoundIn eips svcInfo eip addr := by
  induction eips generalizing l with
  | nil =>
    obtain ⟨-, rfl, -⟩ := run_pure_iff.mp h
    refine ⟨"", "", rfl, .inl ⟨rfl, rfl, ?_⟩⟩
    intro v hv
    cases hv
  | cons v eips ih =>
    -- a later Eip is found only if this one does not list the service
    have hcons : ∀ {l}, Prog.Trace Honest (findAllocated svcInfo eips) l o →
        (v.obj.deletionTimestamp = false → ∀ a, svcInfo ∉ v.obj.listed a) →
        ∃ eip addr, o = .ok (eip, addr) ∧ FoundIn (v :: eips) svcInfo eip addr := by
      intro l hl hv
      obtain ⟨eip, addr, rfl, hfound⟩ := ih hl
      refine ⟨eip, addr, rfl, ?_⟩
      rcases hfound with ⟨rfl, rfl, hnone⟩ | ⟨w, hw, hrest⟩
      · exact .inl ⟨rfl, rfl, List.forall_mem_cons.mpr ⟨hv, hnone⟩⟩
      · exact .inr ⟨w, List.mem_cons_of_mem _ hw, hrest⟩
    rw [findAllocated] at h
    split at h
    · rename_i hdel
      refine hcons h fun hdel' => ?_
      rw [hdel] at hdel'
      cases hdel'
    · rename_i hdel
      rw [api_bind] at h
      obtain ⟨keys, s₁, l', hkeys, hrun, rfl⟩ := Prog.run_call_iff.mp h
      have hranges : v.obj.status.used.Ranges keys := hkeys
      split at hrun
      · rename_i addr hfind
        obtain ⟨-, rfl, -⟩ := run_pure_iff.mp hrun
        refine ⟨v.obj.name, addr, rfl, .inr ⟨v, List.mem_cons_self, by simpa using hdel, rfl, ?_⟩⟩
        exact of_decide_eq_true
          (List.find?_some (p := fun addr => decide (svcInfo ∈ v.obj.listed addr)) hfind)
      · rename_i hfind
        refine hcons hrun fun _ a hmem => ?_
        obtain ⟨svcs, hget, -⟩ := Eip.exists_get_of_mem_listed hmem
        have hnone := List.find?_eq_none.mp hfind a (hranges.mem hget)
        exact absurd hmem (by simpa using hnone)

/-! ## The request -/

/-- What `ConstructRequest` knows of a service and its record. -/
def Service.info (svc : Service) (allocatedEip allocatedIP : String) : Info where
  svcName := svc.key.text
  svcStatusLBIP := svc.statusLBIP
  allocatedEip := allocatedEip
  allocatedIP := allocatedIP

/-- What `ConstructRequest` knows once an Eip is chosen. -/
def Service.infoFor (svc : Service) (allocatedEip allocatedIP eip : String) : Info :=
  { svc.info allocatedEip allocatedIP with
    svcSpecifyLBIP := svc.specifyLBIP, svcSpecifyEIP := eip }

/-- The request for a service with a record, once an Eip is chosen for it or not. -/
def Service.requestGiven (svc : Service) (allocatedEip allocatedIP : String) :
    Except Err String → Request
  | .error _ => { release := constructRelease (svc.info allocatedEip allocatedIP) }
  | .ok eip =>
    if ¬ (svc.infoFor allocatedEip allocatedIP eip).needUpdate ∧
        (svc.labels.get openELBEIPAnnotationKeyV1Alpha2).isSome then {}
    else
      { release := constructRelease (svc.info allocatedEip allocatedIP)
        allocate := some ⟨svc.key.text, svc.specifyLBIP, eip⟩ }

/-- The part of `ConstructRequest` that follows the listing of the Eips. -/
def requestFrom (env : Env) (svc : Service) (eips : List (Version Eip)) : Code Request := do
  let (allocatedEip, allocatedIP) ← findAllocated svc.key.text eips
  if needRelease svc then
    pure { release := constructRelease (svc.info allocatedEip allocatedIP) }
  else
    let eip ← attempt (chooseEIP env svc)
    pure (svc.requestGiven allocatedEip allocatedIP eip)

theorem constructRequest_eq {env : Env} {svc : Service} (h : svc.annotations.isNil = false) :
    constructRequest env svc = (do
      let eips ← must (← api .listEips)
      requestFrom env svc eips) := by
  rw [constructRequest, if_neg (by simp [h]), getAllocatedEIPInfo, Code.bind_assoc]
  refine congrArg (Bind.bind (api Call.listEips)) (funext fun r => ?_)
  rw [Code.bind_assoc]
  refine congrArg (Bind.bind (must r)) (funext fun eips => ?_)
  rw [requestFrom]
  refine congrArg (Bind.bind (findAllocated _ eips)) (funext fun p => ?_)
  obtain ⟨allocatedEip, allocatedIP⟩ := p
  show (if needRelease svc then _ else _ : Code Request) = if needRelease svc then _ else _
  refine congrArg (ite _ _) ?_
  refine congrArg (Bind.bind (attempt (chooseEIP env svc))) (funext fun eip => ?_)
  cases eip with
  | error e => rfl
  | ok eip =>
    rw [Service.requestGiven, apply_ite (pure : Request → Code Request)]
    rfl

theorem all_requestFrom (env : Env) (svc : Service) (eips : List (Version Eip)) :
    Prog.All Call.ReadOnly (requestFrom env svc eips) := by
  refine all_bind (all_findAllocated _ _) fun p => ?_
  dsimp only
  split
  · trivial
  · exact all_bind (all_attempt (all_chooseEIP env svc)) fun _ => trivial

theorem all_constructRequest (env : Env) (svc : Service) :
    Prog.All Call.ReadOnly (constructRequest env svc) := by
  by_cases h : svc.annotations.isNil = true
  · rw [constructRequest, if_pos h]
    trivial
  · rw [constructRequest_eq (by simpa using h)]
    exact all_api trivial fun r => all_bind (all_must r) fun eips => all_requestFrom env svc eips

section Runs
variable {σ : Type} {step : (c : Call) → σ → Reply c → σ → Prop} {s s' : σ}
  {l : List (Prog.Event Call Reply)} {env : Env} {svc : Service}

/-- The request that a run returns. -/
theorem run_requestFrom {eips : List (Version Eip)} {req : Request}
    (h : Prog.Run step s (requestFrom env svc eips) l (.ok req) s') :
    ∃ allocatedEip allocatedIP l₁ s₁,
      Prog.Run step s (findAllocated svc.key.text eips) l₁ (.ok (allocatedEip, allocatedIP)) s₁ ∧
      (needRelease svc = true ∧
          req = { release := constructRelease (svc.info allocatedEip allocatedIP) } ∨
        needRelease svc = false ∧ ∃ eip l₂,
          Prog.Run step s₁ (attempt (chooseEIP env svc)) l₂ (.ok eip) s' ∧
          req = svc.requestGiven allocatedEip allocatedIP eip) := by
  obtain ⟨⟨allocatedEip, allocatedIP⟩, l₁, l₂, s₁, h₁, h₂, rfl⟩ := run_bind_ok h
  refine ⟨allocatedEip, allocatedIP, l₁, s₁, h₁, ?_⟩
  dsimp only at h₂
  split at h₂
  · rename_i hrel
    obtain ⟨-, ho, -⟩ := run_pure_iff.mp h₂
    cases ho
    exact .inl ⟨hrel, rfl⟩
  · rename_i hrel
    obtain ⟨eip, l₃, l₄, s₂, h₃, h₄, rfl⟩ := run_bind_ok h₂
    obtain ⟨-, ho, rfl⟩ := run_pure_iff.mp h₄
    cases ho
    exact .inr ⟨by simpa using hrel, eip, l₃, h₃, rfl⟩

end Runs

/-! ## What the controller relies on -/

/-- What a request is about: the service, its record, and a chosen Eip.  If nothing
is to be released and something to be assigned, there is no record; what is to be
released is the record. -/
structure RequestFor (svc : Service) (allocatedEip allocatedIP : String) (req : Request) : Prop where
  allocate : ∀ r, req.allocate = some r →
    r.key = svc.key.text ∧ r.ip = svc.specifyLBIP ∧ needRelease svc = false
  release : ∀ r, req.release = some r → r.key = svc.key.text ∧ r.eip = allocatedEip
  unreleased : req.release = none → req.allocate.isSome → allocatedEip = "" ∧ allocatedIP = ""

theorem constructRelease_some {info : Info} {r : SvcRecord} (h : constructRelease info = some r) :
    r.key = info.svcName ∧ r.eip = info.allocatedEip := by
  rw [constructRelease] at h
  split at h
  · split at h
    · cases h
    · cases h
      exact ⟨rfl, rfl⟩
  · cases h
    exact ⟨rfl, rfl⟩

theorem constructRelease_none {info : Info} (h : constructRelease info = none) :
    info.allocatedEip = "" ∧ info.allocatedIP = "" ∧ info.svcStatusLBIP = "" := by
  rw [constructRelease] at h
  split at h
  · rename_i hnone
    split at h
    · rename_i hst
      exact ⟨hnone.1, hnone.2, hst⟩
    · cases h
  · cases h

theorem requestFor_release (svc : Service) (allocatedEip allocatedIP : String) :
    RequestFor svc allocatedEip allocatedIP
      { release := constructRelease (svc.info allocatedEip allocatedIP) } where
  allocate _ h := by cases h
  release _ h := constructRelease_some h
  unreleased _ h := by cases h

theorem requestFor_requestGiven {svc : Service} (hrel : needRelease svc = false)
    (allocatedEip allocatedIP : String) (eip : Except Err String) :
    RequestFor svc allocatedEip allocatedIP (svc.requestGiven allocatedEip allocatedIP eip) := by
  cases eip with
  | error e => exact requestFor_release svc allocatedEip allocatedIP
  | ok eip =>
    rw [Service.requestGiven]
    split
    · exact ⟨fun _ h => (by cases h), fun _ h => (by cases h), fun _ h => (by cases h)⟩
    · refine ⟨?_, fun _ h => constructRelease_some h, fun h _ => ?_⟩
      · rintro r h
        cases h
        exact ⟨rfl, rfl, hrel⟩
      · obtain ⟨he, ha, -⟩ := constructRelease_none h
        exact ⟨he, ha⟩

/-- **The request is made for what the listed Eips record.** -/
theorem trace_requestFrom {env : Env} {svc : Service} {eips : List (Version Eip)} {req : Request}
    {l : List (Prog.Event Call Reply)}
    (h : Prog.Trace Honest (requestFrom env svc eips) l (.ok req)) :
    ∃ allocatedEip allocatedIP, FoundIn eips svc.key.text allocatedEip allocatedIP ∧
      RequestFor svc allocatedEip allocatedIP req := by
  obtain ⟨allocatedEip, allocatedIP, l₁, s₁, hfind, hreq⟩ := run_requestFrom h
  obtain ⟨_, _, ho, hfound⟩ := trace_findAllocated hfind
  cases ho
  refine ⟨allocatedEip, allocatedIP, hfound, ?_⟩
  rcases hreq with ⟨-, rfl⟩ | ⟨hrel, eip, l₂, -, rfl⟩
  · exact requestFor_release svc allocatedEip allocatedIP
  · exact requestFor_requestGiven hrel allocatedEip allocatedIP eip

end OpenELB
