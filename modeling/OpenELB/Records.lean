import OpenELB.EipController
import OpenELB.ServiceReconciler

/-! # What happens to the records

The records of a cluster are the lists of service keys in `Status.Used` of its
Eips.  This module says once, for every call and every edit by a user, what it
can do to them:

* `StatusKept`: no Eip's status changes.  That is all but one kind of call, and
  every edit (`statusKept_of_exec`, `EipEdit.statusKept`);
* `StatusWritten`: one Eip gets the status the client computed, from the version
  it had read, which was still the stored one (`exec_updateEipStatus`).

The invariants of the controllers are derived from these two. -/
namespace OpenELB
open Go Code

namespace Cluster

/-- The Eip stored under a name. -/
def eip (s : Cluster) (name : String) : Option Eip := (s.eips.get name).map Version.obj

/-- The service stored under a name. -/
def service (s : Cluster) (k : NamespacedName) : Option Service :=
  (s.services.get k).map Version.obj

/-- The service keys listed at an address of an Eip. -/
def listed (s : Cluster) (name addr : String) : List String :=
  match s.eip name with
  | some e => e.listed addr
  | none => []

/-- The same, for Eips that are not being deleted. -/
def records (s : Cluster) (name addr : String) : List String :=
  match s.eip name with
  | some e => if e.deletionTimestamp then [] else e.listed addr
  | none => []

theorem eip_of_get {s : Cluster} {name : String} {v : Version Eip} (h : s.eips.get name = some v) :
    s.eip name = some v.obj := by
  rw [eip, h]
  rfl

theorem eip_name {s : Cluster} {name : String} {e : Eip} (h : s.eip name = some e) :
    e.name = name := by
  obtain ⟨v, hv, rfl⟩ := Option.map_eq_some_iff.mp h
  exact VStore.key_of_get hv

theorem service_of_get {s : Cluster} {k : NamespacedName} {v : Version Service}
    (h : s.services.get k = some v) : s.service k = some v.obj := by
  rw [service, h]
  rfl

theorem service_key {s : Cluster} {k : NamespacedName} {svc : Service} (h : s.service k = some svc) :
    svc.key = k := by
  obtain ⟨v, hv, rfl⟩ := Option.map_eq_some_iff.mp h
  exact VStore.key_of_get hv

theorem listed_of_eip {s : Cluster} {name : String} {e : Eip} (h : s.eip name = some e)
    (addr : String) : s.listed name addr = e.listed addr := by
  rw [listed, h]

theorem listed_of_eip_none {s : Cluster} {name : String} (h : s.eip name = none) (addr : String) :
    s.listed name addr = [] := by
  rw [listed, h]

theorem records_of_eip {s : Cluster} {name : String} {e : Eip} (h : s.eip name = some e)
    (hdel : e.deletionTimestamp = false) (addr : String) : s.records name addr = e.listed addr := by
  rw [records, h]
  simp [hdel]

theorem records_of_deleting {s : Cluster} {name : String} {e : Eip} (h : s.eip name = some e)
    (hdel : e.deletionTimestamp = true) (addr : String) : s.records name addr = [] := by
  rw [records, h]
  simp [hdel]

theorem records_of_eip_none {s : Cluster} {name : String} (h : s.eip name = none) (addr : String) :
    s.records name addr = [] := by
  rw [records, h]

/-- A record is one of an Eip that exists and is not being deleted. -/
theorem exists_of_mem_records {s : Cluster} {name addr key : String}
    (h : key ∈ s.records name addr) :
    ∃ e, s.eip name = some e ∧ e.deletionTimestamp = false ∧ key ∈ e.listed addr := by
  cases he : s.eip name with
  | none => rw [records_of_eip_none he] at h; cases h
  | some e =>
    cases hdel : e.deletionTimestamp with
    | true => rw [records_of_deleting he hdel] at h; cases h
    | false =>
      rw [records_of_eip he hdel] at h
      exact ⟨e, rfl, hdel, h⟩

end Cluster

/-! ## Steps that keep every status -/

/-- No status changes: an Eip that is there afterwards is new, and has no records,
or was there before with the same status, and an Eip being deleted stays so. -/
def StatusKept (s s' : Cluster) : Prop :=
  ∀ name e', s'.eip name = some e' →
    (s.eip name = none ∧ e'.status = {}) ∨
      ∃ e, s.eip name = some e ∧ e'.status = e.status ∧
        (e.deletionTimestamp = true → e'.deletionTimestamp = true)

theorem StatusKept.of_eips_eq {s s' : Cluster} (h : s'.eips = s.eips) : StatusKept s s' := by
  intro name e' he'
  rw [Cluster.eip, h] at he'
  exact .inr ⟨e', he', rfl, id⟩

namespace StatusKept
variable {s s' : Cluster}

theorem listed (h : StatusKept s s') {name : String} (hex : s'.eip name ≠ none) (addr : String) :
    s'.listed name addr = s.listed name addr := by
  obtain ⟨e', he'⟩ := Option.ne_none_iff_exists'.mp hex
  rw [Cluster.listed_of_eip he']
  rcases h name e' he' with ⟨hnone, hst⟩ | ⟨e, he, hst, -⟩
  · rw [Cluster.listed_of_eip_none hnone, Eip.listed, hst]
    rfl
  · rw [Cluster.listed_of_eip he, Eip.listed, Eip.listed, hst]

/-- The records of an address stay, or all go. -/
theorem records (h : StatusKept s s') (name addr : String) :
    s'.records name addr = s.records name addr ∨ s'.records name addr = [] := by
  cases he' : s'.eip name with
  | none => exact .inr (Cluster.records_of_eip_none he' addr)
  | some e' =>
    cases hdel' : e'.deletionTimestamp with
    | true => exact .inr (Cluster.records_of_deleting he' hdel' addr)
    | false =>
      rw [Cluster.records_of_eip he' hdel']
      rcases h name e' he' with ⟨-, hst⟩ | ⟨e, he, hst, hdel⟩
      · exact .inr (by rw [Eip.listed, hst]; rfl)
      · have hedel : e.deletionTimestamp = false := by
          rw [Bool.eq_false_iff]
          intro ht
          rw [hdel ht] at hdel'
          cases hdel'
        rw [Cluster.records_of_eip he hedel]
        exact .inl (by rw [Eip.listed, Eip.listed, hst])

end StatusKept

/-- A change of one Eip that keeps its status keeps every status. -/
theorem statusKept_of_change {s s' : Cluster} (name : String) (change : Eip → Option Eip)
    (hchange : ∀ e e', change e = some e' →
      e'.status = e.status ∧ (e.deletionTimestamp = true → e'.deletionTimestamp = true))
    (hobj : s'.eip name = (s.eip name).bind change)
    (hframe : ∀ n, n ≠ name → s'.eip n = s.eip n) : StatusKept s s' := by
  intro n e' he'
  by_cases hn : n = name
  · subst hn
    rw [hobj] at he'
    obtain ⟨e, he, hc⟩ := Option.bind_eq_some_iff.mp he'
    exact .inr ⟨e, he, hchange e e' hc⟩
  · rw [hframe n hn] at he'
    exact .inr ⟨e', he', rfl, id⟩

/-! ### Edits by users -/

theorem Eip.applyUpdate_some {new stored e : Eip} (h : new.applyUpdate stored = some e) :
    e.name = stored.name ∧ e.status = stored.status ∧
      e.deletionTimestamp = stored.deletionTimestamp := by
  unfold Eip.applyUpdate at h
  split at h
  · cases h
  · cases h
    exact ⟨rfl, rfl, rfl⟩

theorem Eip.applyDelete_some {stored e : Eip} (h : stored.applyDelete = some e) :
    e.name = stored.name ∧ e.status = stored.status ∧ e.deletionTimestamp = true := by
  unfold Eip.applyDelete at h
  split at h
  · cases h
  · cases h
    exact ⟨rfl, rfl, rfl⟩

theorem Service.applyUpdate_key {new stored svc : Service} (h : new.applyUpdate stored = some svc) :
    svc.key = stored.key := by
  unfold Service.applyUpdate at h
  split at h
  · cases h
  · cases h
    rfl

theorem Service.applyDelete_key {stored svc : Service} (h : stored.applyDelete = some svc) :
    svc.key = stored.key := by
  unfold Service.applyDelete at h
  split at h
  · cases h
  · cases h
    rfl

theorem Service.applyStatus_key {new stored svc : Service} (h : new.applyStatus stored = some svc) :
    svc.key = stored.key := by
  unfold Service.applyStatus at h
  split at h
  · cases h
  · cases h
    rfl

/-- What a user can do to Eips: create one, whose status is dropped, change
anything but the status of one, or delete one. -/
inductive EipEdit : Cluster → Cluster → Prop
  | create {s : Cluster} (e : Eip) : s.eips.get e.name = none → e.status = {} →
      e.deletionTimestamp = false → EipEdit s { s with eips := s.eips.put e }
  | update {s : Cluster} (name : String) (new : Eip) :
      EipEdit s { s with eips := s.eips.modify name new.applyUpdate }
  | delete {s : Cluster} (name : String) :
      EipEdit s { s with eips := s.eips.modify name Eip.applyDelete }

namespace EipEdit
variable {s s' : Cluster}

theorem later (h : EipEdit s s') : VStore.Later s.eips s'.eips := by
  cases h with
  | create e _ _ _ => exact VStore.later_put _ _
  | update name new => exact VStore.later_modify _ _ _
  | delete name => exact VStore.later_modify _ _ _

theorem statusKept (h : EipEdit s s') : StatusKept s s' := by
  cases h with
  | create e hnone hst _ =>
    intro name e' he'
    rw [Cluster.eip, VStore.get_put] at he'
    split at he'
    · rename_i hn
      cases he'
      exact .inl ⟨by rw [Cluster.eip, hn, hnone]; rfl, hst⟩
    · exact .inr ⟨e', he', rfl, id⟩
  | update name new =>
    have hkey : ∀ a b, new.applyUpdate a = some b → b.name = a.name :=
      fun a b hab => (Eip.applyUpdate_some hab).1
    refine statusKept_of_change name new.applyUpdate ?_ (VStore.obj_modify hkey) ?_
    · intro e e' he
      obtain ⟨-, hst, hdel⟩ := Eip.applyUpdate_some he
      exact ⟨hst, fun ht => hdel.trans ht⟩
    · intro n hn
      exact congrArg (Option.map Version.obj) (VStore.get_modify_ne hkey hn)
  | delete name =>
    have hkey : ∀ a b, Eip.applyDelete a = some b → b.name = a.name :=
      fun a b hab => (Eip.applyDelete_some hab).1
    refine statusKept_of_change name Eip.applyDelete ?_ (VStore.obj_modify hkey) ?_
    · intro e e' he
      obtain ⟨-, hst, hdel⟩ := Eip.applyDelete_some he
      exact ⟨hst, fun _ => hdel⟩
    · intro n hn
      exact congrArg (Option.map Version.obj) (VStore.get_modify_ne hkey hn)

end EipEdit

/-! ## Calls -/

section Calls
variable {f : Faults} {c : Call} {s s' : Cluster} {r : Reply c}

/-- The call does not write to Eips. -/
def Call.KeepsEips : Call → Prop
  | .updateEip _ | .updateEipStatus _ => False
  | _ => True

/-- The call does not write to services. -/
def Call.KeepsServices : Call → Prop
  | .updateService _ | .updateServiceStatus _ => False
  | _ => True

/-- A write without a condition to something else leaves Eips and services alone. -/
theorem WritesUnit.project {σ τ : Type} {st st' t : σ} {e : ApiErr} {c : Prop} [Decidable c]
    {u : Except ApiErr Unit} (g : σ → τ)
    (h : WritesUnit f st (if c then .error e else .ok t) u st') (hg : g t = g st) :
    g st' = g st := by
  by_cases hc : c
  · rw [if_pos hc] at h
    rw [h.1]
  · rw [if_neg hc] at h
    obtain ⟨-, rfl⟩ | ⟨-, e', -, rfl | rfl⟩ := h
    · exact hg
    · rfl
    · exact hg

theorem eips_of_exec (hc : c.KeepsEips) (h : exec f c s r s') : s'.eips = s.eips := by
  cases c with
  | updateEip v => exact hc.elim
  | updateEipStatus v => exact hc.elim
  | updateService v => obtain ⟨x, -, rfl⟩ := h; rfl
  | updateServiceStatus v => obtain ⟨x, -, rfl⟩ := h; rfl
  | updateNode v => obtain ⟨x, -, rfl⟩ := h; rfl
  | createWorkload w => exact WritesUnit.project Cluster.eips h rfl
  | updateWorkload w => exact WritesUnit.project Cluster.eips h rfl
  | deleteWorkload k => exact WritesUnit.project Cluster.eips h rfl
  | _ => rw [h.1]

theorem services_of_exec (hc : c.KeepsServices) (h : exec f c s r s') :
    s'.services = s.services := by
  cases c with
  | updateService v => exact hc.elim
  | updateServiceStatus v => exact hc.elim
  | updateEip v => obtain ⟨x, -, rfl⟩ := h; rfl
  | updateEipStatus v => obtain ⟨x, -, rfl⟩ := h; rfl
  | updateNode v => obtain ⟨x, -, rfl⟩ := h; rfl
  | createWorkload w => exact WritesUnit.project Cluster.services h rfl
  | updateWorkload w => exact WritesUnit.project Cluster.services h rfl
  | deleteWorkload k => exact WritesUnit.project Cluster.services h rfl
  | _ => rw [h.1]

theorem services_of_run {α : Type} {p : Code α} {log : List (Prog.Event Call Reply)}
    {o : Outcome α} (hp : Prog.All Call.KeepsServices p) (h : Prog.Run (exec f) s p log o s') :
    s'.services = s.services := by
  induction h with
  | ret => rfl
  | call he _ ih => exact (ih (hp.2 _)).trans (services_of_exec hp.1 he)

/-- No call forgets a version of an Eip. -/
theorem later_of_exec (h : exec f c s r s') : VStore.Later s.eips s'.eips := by
  by_cases hc : c.KeepsEips
  · rw [eips_of_exec hc h]
    exact .refl _
  · cases c with
    | updateEip v => obtain ⟨x, hw, rfl⟩ := h; exact hw.later
    | updateEipStatus v => obtain ⟨x, hw, rfl⟩ := h; exact hw.later
    | _ => exact absurd trivial hc

/-- No call forgets a version of a service. -/
theorem servicesLater_of_exec (h : exec f c s r s') : VStore.Later s.services s'.services := by
  by_cases hc : c.KeepsServices
  · rw [services_of_exec hc h]
    exact .refl _
  · cases c with
    | updateService v => obtain ⟨x, hw, rfl⟩ := h; exact hw.later
    | updateServiceStatus v => obtain ⟨x, hw, rfl⟩ := h; exact hw.later
    | _ => exact absurd trivial hc

/-- An update of an Eip keeps every status. -/
theorem statusKept_of_updateEip {v : Version Eip} {u : Reply (.updateEip v)}
    (h : exec f (.updateEip v) s u s') : StatusKept s s' := by
  obtain ⟨eips, hw, rfl⟩ := h
  have hkey : ∀ a b, v.obj.applyUpdate a = some b → b.name = a.name :=
    fun a b hab => (Eip.applyUpdate_some hab).1
  rcases hw.cases hkey with ⟨rfl, -⟩ | ⟨w, ha, -⟩
  · exact StatusKept.of_eips_eq rfl
  · refine statusKept_of_change v.obj.name v.obj.applyUpdate ?_ ?_ ?_
    · intro e e' he
      obtain ⟨-, hst, hdel⟩ := Eip.applyUpdate_some he
      exact ⟨hst, fun ht => hdel.trans ht⟩
    · show (eips.get v.obj.name).map Version.obj = _
      rw [ha.obj, Cluster.eip_of_get ha.found, Option.bind_some]
    · exact fun n hn => congrArg (Option.map Version.obj) (ha.frame n hn)

/-- **Every call but the status update keeps every status.** -/
theorem statusKept_of_exec (hc : ∀ v, c ≠ .updateEipStatus v) (h : exec f c s r s') :
    StatusKept s s' := by
  by_cases hk : c.KeepsEips
  · exact StatusKept.of_eips_eq (eips_of_exec hk h)
  · cases c with
    | updateEip v => exact statusKept_of_updateEip h
    | updateEipStatus v => exact absurd rfl (hc v)
    | _ => exact absurd trivial hk

/-! ### The status update -/

/-- The Eip `e` was stored, and has got the status of `clone`; nothing else has
changed. -/
structure StatusWritten (s : Cluster) (e clone : Eip) (s' : Cluster) : Prop where
  name : clone.name = e.name
  found : s.eip e.name = some e
  obj : s'.eip e.name = clone.applyStatus e
  frame : ∀ n, n ≠ e.name → s'.eip n = s.eip n
  services : s'.services = s.services

/-- **A status update that is carried out finds the version the client has read**,
so it changes the status from the one the client has seen to the one it sent. -/
theorem exec_updateEipStatus {v : Version Eip} {clone : Eip} (hv : v ∈ s.eips.log)
    (hname : clone.name = v.obj.name) {u : Reply (.updateEipStatus ⟨v.rv, clone⟩)}
    (h : exec f (.updateEipStatus ⟨v.rv, clone⟩) s u s') :
    s' = s ∧ (∃ e, u = .error e) ∨ StatusWritten s v.obj clone s' := by
  obtain ⟨eips, hw, rfl⟩ := h
  have hkey : ∀ a b, clone.applyStatus a = some b → b.name = a.name := by
    intro a b hab
    cases hab
    rfl
  rcases hw.cases hkey with ⟨rfl, he⟩ | ⟨w, ha, -⟩
  · exact .inl ⟨rfl, he⟩
  · have hwv : w = v := ha.eq_read hv rfl
    subst hwv
    have hfound := Cluster.eip_of_get ha.found
    have hobj := ha.obj
    have hframe := ha.frame
    simp only [hname] at hfound hobj hframe
    exact .inr ⟨hname, hfound, hobj, fun n hn => congrArg (Option.map Version.obj) (hframe n hn), rfl⟩

namespace StatusWritten
variable {e clone : Eip}

theorem listed_self (h : StatusWritten s e clone s') (addr : String) :
    s'.listed e.name addr = clone.listed addr := by
  rw [Cluster.listed, h.obj]
  simp [Eip.applyStatus, Eip.listed]

theorem listed_ne (h : StatusWritten s e clone s') {name : String} (hn : name ≠ e.name)
    (addr : String) : s'.listed name addr = s.listed name addr := by
  rw [Cluster.listed, h.frame name hn, Cluster.listed]

theorem records_self (h : StatusWritten s e clone s') (addr : String) :
    s'.records e.name addr = if e.deletionTimestamp then [] else clone.listed addr := by
  rw [Cluster.records, h.obj]
  simp [Eip.applyStatus, Eip.listed]

theorem records_ne (h : StatusWritten s e clone s') {name : String} (hn : name ≠ e.name)
    (addr : String) : s'.records name addr = s.records name addr := by
  rw [Cluster.records, h.frame name hn, Cluster.records]

theorem listed_before (h : StatusWritten s e clone s') (addr : String) :
    s.listed e.name addr = e.listed addr := Cluster.listed_of_eip h.found addr

theorem records_before (h : StatusWritten s e clone s') (addr : String) :
    s.records e.name addr = if e.deletionTimestamp then [] else e.listed addr := by
  rw [Cluster.records, h.found]

end StatusWritten

/-! ### Writes to services -/

/-- The service was stored, and has been changed; nothing else has. -/
structure ServiceWritten (s : Cluster) (svc : Service) (change : Service → Option Service)
    (s' : Cluster) : Prop where
  found : s.service svc.key = some svc
  obj : s'.service svc.key = change svc
  frame : ∀ k, k ≠ svc.key → s'.service k = s.service k
  eips : s'.eips = s.eips

theorem serviceWritten_of_writes {v : Version Service} {new : Service}
    {change : Service → Option Service} {services : VStore Service.key}
    {u : Except ApiErr (Version Service)} (hchange : ∀ a b, change a = some b → b.key = a.key)
    (hv : v ∈ s.services.log) (hkey : new.key = v.obj.key)
    (hw : VStore.Writes f s.services ⟨v.rv, new⟩ change u services) :
    services = s.services ∧ (∃ e, u = .error e) ∨
      ServiceWritten s v.obj change { s with services := services } ∧
        ∀ w, u = .ok w → ∀ a, change v.obj = some a →
          services.get v.obj.key = some w ∧ w.obj = a := by
  rcases hw.cases hchange with h | ⟨w, ha, hok⟩
  · exact .inl h
  · have hwv : w = v := ha.eq_read hv rfl
    subst hwv
    have hfound := Cluster.service_of_get ha.found
    have hobj := ha.obj
    have hframe := ha.frame
    simp only [hkey] at hfound hobj hframe hok
    exact .inr ⟨⟨hfound, hobj, fun n hn => congrArg (Option.map Version.obj) (hframe n hn), rfl⟩, hok⟩

/-- An update of a service that is carried out finds the version the client has
read, and answers with the new one. -/
theorem exec_updateService {v : Version Service} {new : Service} (hv : v ∈ s.services.log)
    (hkey : new.key = v.obj.key) {u : Reply (.updateService ⟨v.rv, new⟩)}
    (h : exec f (.updateService ⟨v.rv, new⟩) s u s') :
    s' = s ∧ (∃ e, u = .error e) ∨
      ServiceWritten s v.obj new.applyUpdate s' ∧
        ∀ w, u = .ok w → ∀ a, new.applyUpdate v.obj = some a →
          s'.services.get v.obj.key = some w ∧ w.obj = a := by
  obtain ⟨services, hw, rfl⟩ := h
  rcases serviceWritten_of_writes (fun _ _ => Service.applyUpdate_key) hv hkey hw with ⟨rfl, h⟩ | h
  · exact .inl ⟨rfl, h⟩
  · exact .inr h

/-- The same for an update of the status. -/
theorem exec_updateServiceStatus {v : Version Service} {new : Service} (hv : v ∈ s.services.log)
    (hkey : new.key = v.obj.key) {u : Reply (.updateServiceStatus ⟨v.rv, new⟩)}
    (h : exec f (.updateServiceStatus ⟨v.rv, new⟩) s u s') :
    s' = s ∧ (∃ e, u = .error e) ∨
      ServiceWritten s v.obj new.applyStatus s' ∧
        ∀ w, u = .ok w → ∀ a, new.applyStatus v.obj = some a →
          s'.services.get v.obj.key = some w ∧ w.obj = a := by
  obtain ⟨services, hw, rfl⟩ := h
  rcases serviceWritten_of_writes (fun _ _ => Service.applyStatus_key) hv hkey hw with ⟨rfl, h⟩ | h
  · exact .inl ⟨rfl, h⟩
  · exact .inr h

end Calls

/-! ## Code that does not write to Eips -/

section All

theorem all_syncSvcs (svcs : List String) : Prog.All Call.KeepsEips (syncSvcs svcs) := by
  induction svcs with
  | nil => trivial
  | cons svc svcs ih =>
    rw [syncSvcs]
    split
    · refine all_api trivial fun r => ?_
      rcases r with (_ | _ | _) | _
      · exact ih
      · trivial
      · trivial
      · exact all_bind ih fun _ => trivial
    · exact ih

theorem all_syncUsed (m : Map String String) (ks : List String) (used : Map String String) :
    Prog.All Call.KeepsEips (syncUsed m ks used) := by
  induction ks generalizing used with
  | nil => trivial
  | cons k ks ih => exact all_bind (all_syncSvcs _) fun _ => ih _

theorem all_syncEip (e : Eip) : Prog.All Call.KeepsEips (syncEip e) :=
  all_api trivial fun _ => all_bind (all_syncUsed _ _ _) fun _ => trivial

theorem all_updateEip (e : Eip) : Prog.All Call.KeepsEips (updateEip e) := by
  unfold updateEip
  split
  · split
    · exact all_syncEip _
    · trivial
  · exact all_syncEip e

theorem all_removeEip (e : Eip) : Prog.All Call.KeepsEips (removeEip e) := by
  have hloop : ∀ svcs, Prog.All Call.KeepsEips (unlabelServices svcs) := by
    intro svcs
    induction svcs with
    | nil => trivial
    | cons svc svcs ih => exact all_api trivial fun r => all_bind (all_must r) fun _ => ih
  exact all_api trivial fun r => all_bind (all_must r) hloop

/-! ## Code that only writes to services, nodes and workloads -/

/-- The call writes neither an Eip nor a status. -/
def Call.KeepsStatuses : Call → Prop
  | .updateEip _ | .updateEipStatus _ | .updateServiceStatus _ => False
  | _ => True

theorem Call.KeepsStatuses.keepsEips {c : Call} (h : c.KeepsStatuses) : c.KeepsEips := by
  cases c with
  | updateEip v => exact h
  | updateEipStatus v => exact h
  | _ => trivial

theorem all_reconcileNP (env : Env) (svc : Version Service) :
    Prog.All Call.KeepsStatuses (reconcileNP env svc) := by
  refine all_reconcileNP_of (fun k => ?_) svc
  constructor <;> intros <;> trivial

end All

end OpenELB
