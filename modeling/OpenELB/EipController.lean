import OpenELB.Allocation
import OpenELB.ApiServer

/-! # The Eip controller

`pkg/controllers/ipam/controller.go`: `EIPController.Reconcile` puts its
finalizer on an Eip, fills in the status of a new one (`updateEip`), drops
services that no longer exist from `Status.Used` (`syncEip`), and lets go of an
Eip that is being deleted (`removeEip`). -/
namespace OpenELB
open Go Code

/-- The inner loop of `syncEip`: the services of one entry that exist. -/
def syncSvcs : List String → Code (List String)
  | [] => pure []
  | svc :: svcs =>
    match split '/' svc with
    | ns :: name :: _ => do
      match ← api (.getService ⟨ns, name⟩) with
      | .ok _ => do
        let rest ← syncSvcs svcs
        pure (svc :: rest)
      | .error .notFound => syncSvcs svcs
      | .error e => fail (.api e)
    | _ => syncSvcs svcs

/-- The outer loop of `syncEip`, over the keys of `m` that are left. -/
def syncUsed (m : Map String String) : List String → Map String String → Code (Map String String)
  | [], used => pure used
  | k :: ks, used => do
    let svcs ← syncSvcs (split ';' ((m.get k).getD ""))
    syncUsed m ks (if svcs ≠ [] then used.set k (join ';' svcs) else used)

/-- The Eip with what a sync found to be in use. -/
def Eip.setUsed (e : Eip) (used : Map String String) : Eip :=
  { e with status := { e.status with
    used := used
    usage := used.len
    occupied := (used.len : Int) ≥ e.status.poolSize } }

/-- `EIPController.syncEip`. -/
def syncEip (e : Eip) : Code Eip := do
  let keys ← api (.rangeUsed e.status.used)
  let used ← syncUsed e.status.used keys Map.empty
  pure (e.setUsed used)

/-- What `updateEip` fills in the first time; `none` when `IncrementIP` panics. -/
def initStatus (e : Eip) : Option Eip :=
  let (base, size) := e.baseAndSize
  (incrementIP base (int64 (size - 1))).map fun last =>
    { e with status := { e.status with
      poolSize := size
      firstIP := ipString base
      lastIP := ipString last
      v4 := (to4 base).isSome || e.status.v4 } }

/-- `EIPController.updateEip`. -/
def updateEip (e : Eip) : Code Eip :=
  if e.status.firstIP = "" then
    match initStatus e with
    | some e => syncEip e
    | none => crash
  else syncEip e

/-- The loop of `removeEip`. -/
def unlabelServices : List (Version Service) → Code Unit
  | [] => pure ()
  | svc :: svcs => do
    let labels := svc.obj.labels.delete openELBEIPAnnotationKeyV1Alpha2
    let _ ← must (← api (.updateService ⟨svc.rv, { svc.obj with labels := labels }⟩))
    unlabelServices svcs

/-- `EIPController.removeEip`. -/
def removeEip (e : Eip) : Code Unit := do
  let svcs ← must (← api (.listServices openELBEIPAnnotationKeyV1Alpha2 e.name))
  unlabelServices svcs

/-- The part of `EIPController.Reconcile` that follows the finalizer. -/
def refreshEip (eip : Version Eip) : Code Unit := do
  let clone ← updateEip eip.obj
  if clone.status = eip.obj.status then pure ()
  else
    let _ ← must (← api (.updateEipStatus ⟨eip.rv, clone⟩))
    pure ()

/-- `EIPController.Reconcile`. -/
def reconcileEip (name : String) : Code Unit := do
  match ← api (.getEip name) with
  | .error .notFound => pure ()
  | .error e => fail (.api e)
  | .ok eip =>
    if isDeletionCandidate eip.obj.deletionTimestamp eip.obj.finalizers ipamFinalizerName then
      removeEip eip.obj
      let finalizers := removeFinalizer eip.obj.finalizers ipamFinalizerName
      let _ ← must (← api (.updateEip ⟨eip.rv, { eip.obj with finalizers := finalizers }⟩))
      pure ()
    else if needToAddFinalizer eip.obj.deletionTimestamp eip.obj.finalizers ipamFinalizerName then
      let finalizers := addFinalizer eip.obj.finalizers ipamFinalizerName
      let eip ← must (← api (.updateEip ⟨eip.rv, { eip.obj with finalizers := finalizers }⟩))
      refreshEip eip
    else refreshEip eip

/-! ## What a sync does -/

/-- One of the calls was a read of the service, answered with "not found". -/
def ReportedMissing (log : List (Prog.Event Call Reply)) (k : NamespacedName) : Prop :=
  (⟨.getService k, .error .notFound⟩ : Prog.Event Call Reply) ∈ log

/-- The services kept from a list are some of it, in order, and all but those
reported missing. -/
structure Kept (log : List (Prog.Event Call Reply)) (svcs out : List String) : Prop where
  sublist : out.Sublist svcs
  count : ∀ k : NamespacedName, k.Valid → ¬ ReportedMissing log k →
    out.count k.text = svcs.count k.text

theorem Kept.mono {log log' : List (Prog.Event Call Reply)} {svcs out : List String}
    (h : Kept log svcs out) (hlog : log ⊆ log') : Kept log' svcs out :=
  ⟨h.sublist, fun k hk hm => h.count k hk fun hm' => hm (hlog hm')⟩

/-- A service in front of the list is kept, or reported missing, or has no name. -/
theorem Kept.cons {log : List (Prog.Event Call Reply)} {svcs out : List String} (svc : String)
    (h : Kept log svcs out) : Kept log (svc :: svcs) (svc :: out) := by
  refine ⟨h.sublist.cons_cons svc, fun k hk hm => ?_⟩
  rw [List.count_cons, List.count_cons, h.count k hk hm]

theorem Kept.skip {log : List (Prog.Event Call Reply)} {svcs out : List String} {svc : String}
    (h : Kept log svcs out)
    (hsvc : ∀ k : NamespacedName, k.Valid → k.text = svc → ReportedMissing log k) :
    Kept log (svc :: svcs) out := by
  refine ⟨h.sublist.cons svc, fun k hk hm => ?_⟩
  have hne : svc ≠ k.text := fun he => hm (hsvc k hk he.symm)
  rw [List.count_cons_of_ne hne, h.count k hk hm]

theorem trace_syncSvcs {svcs out : List String} {log : List (Prog.Event Call Reply)}
    (h : Prog.Trace Honest (syncSvcs svcs) log (.ok out)) : Kept log svcs out := by
  induction svcs generalizing log out with
  | nil =>
    obtain ⟨rfl, ho, -⟩ := run_pure_iff.mp h
    cases ho
    exact ⟨.slnil, fun _ _ _ => rfl⟩
  | cons svc svcs ih =>
    rw [syncSvcs] at h
    split at h
    · rename_i ns name rest hsplit
      rw [api_bind] at h
      obtain ⟨r, s₁, log', -, hrun, rfl⟩ := Prog.run_call_iff.mp h
      have hsub : log' ⊆ ⟨.getService ⟨ns, name⟩, r⟩ :: log' := List.subset_cons_self _ _
      rcases r with (_ | _ | msg) | v
      · refine ((ih hrun).mono hsub).skip ?_
        intro k hk hkt
        -- the read that was answered "not found" was a read of this service
        have hs := hk.split_text
        rw [hkt, hsplit] at hs
        simp only [List.cons.injEq] at hs
        obtain ⟨rfl, rfl, -⟩ := hs
        exact List.mem_cons_self
      · cases (run_fail_iff.mp hrun).2.1
      · cases (run_fail_iff.mp hrun).2.1
      · obtain ⟨out', l₁, l₂, s₂, h₁, h₂, rfl⟩ := run_bind_ok hrun
        obtain ⟨rfl, ho, -⟩ := run_pure_iff.mp h₂
        cases ho
        rw [List.append_nil] at hsub ⊢
        exact ((ih h₁).mono hsub).cons svc
    · rename_i hsplit
      refine (ih h).skip ?_
      intro k hk hkt
      exact absurd (hkt ▸ hk.split_text) (hsplit k.ns k.name [])

/-- The outer loop keeps of every entry it visits what the inner loop keeps, and
drops the entry if that is nothing. -/
theorem trace_syncUsed {m used used' : Map String String} {ks : List String}
    {log : List (Prog.Event Call Reply)} (hks : ks.Nodup)
    (h : Prog.Trace Honest (syncUsed m ks used) log (.ok used')) :
    (∀ a, a ∉ ks → used'.get a = used.get a) ∧
      ∀ a ∈ ks, ∃ out, Kept log (split ';' ((m.get a).getD "")) out ∧
        used'.get a = if out = [] then used.get a else some (join ';' out) := by
  induction ks generalizing used log with
  | nil =>
    obtain ⟨rfl, ho, -⟩ := run_pure_iff.mp h
    cases ho
    exact ⟨fun _ _ => rfl, fun a ha => by cases ha⟩
  | cons k ks ih =>
    obtain ⟨hk, hks⟩ := List.nodup_cons.mp hks
    obtain ⟨out, l₁, l₂, s₁, h₁, h₂, rfl⟩ := run_bind_ok h
    have hout := trace_syncSvcs h₁
    obtain ⟨hrest, hmem⟩ := ih hks h₂
    constructor
    · intro a ha
      rw [List.mem_cons, not_or] at ha
      rw [hrest a ha.2]
      split
      · exact Map.get_set_ne _ _ ha.1
      · rfl
    · intro a ha
      rcases List.mem_cons.mp ha with rfl | ha
      · refine ⟨out, hout.mono (List.subset_append_left _ _), ?_⟩
        rw [hrest a hk]
        by_cases hnil : out = []
        · simp [hnil]
        · simp [hnil]
      · obtain ⟨out', hout', hget⟩ := hmem a ha
        refine ⟨out', hout'.mono (List.subset_append_right _ _), ?_⟩
        rw [hget]
        have hak : a ≠ k := fun he => hk (he ▸ ha)
        by_cases hnil : out = []
        · simp [hnil]
        · simp [hnil, Map.get_set_ne _ _ hak]

/-- What a sync that returned has done to the Eip. -/
structure Synced (log : List (Prog.Event Call Reply)) (e e' : Eip) : Prop where
  same : e.SameButUsed e'
  get : ∀ a, (e'.status.used.get a).isSome → (e.status.used.get a).isSome
  kept : ∀ a, Kept log (e.listed a) (e'.listed a)
  usage : e'.status.usage = e'.status.used.len
  occupied : e'.status.occupied = decide (e'.status.usage ≥ e'.status.poolSize)

theorem Synced.mono {log log' : List (Prog.Event Call Reply)} {e e' : Eip} (h : Synced log e e')
    (hlog : log ⊆ log') : Synced log' e e' :=
  ⟨h.same, h.get, fun a => (h.kept a).mono hlog, h.usage, h.occupied⟩

/-- **A sync drops only services it found missing**, and counts what is left. -/
theorem trace_syncEip {e e' : Eip} {log : List (Prog.Event Call Reply)}
    (h : Prog.Trace Honest (syncEip e) log (.ok e')) : Synced log e e' := by
  rw [syncEip, api_bind] at h
  obtain ⟨ks, s₁, log', hks, hrun, rfl⟩ := Prog.run_call_iff.mp h
  obtain ⟨used, l₁, l₂, s₂, h₁, h₂, rfl⟩ := run_bind_ok hrun
  obtain ⟨rfl, ho, -⟩ := run_pure_iff.mp h₂
  cases ho
  have hranges : e.status.used.Ranges ks := hks
  obtain ⟨hrest, hmem⟩ := trace_syncUsed hranges.1 h₁
  have hnone : ∀ a, e.status.used.get a = none → used.get a = none := by
    intro a ha
    rw [hrest a fun hin => by simpa [ha] using (hranges.2 a).mp hin, Map.get_empty]
  refine ⟨rfl, ?_, ?_, rfl, rfl⟩
  · intro a ha
    cases hget : e.status.used.get a with
    | none =>
      have hused : (e.setUsed used).status.used.get a = none := hnone a hget
      rw [hused] at ha
      cases ha
    | some svcs => rfl
  · intro a
    cases hget : e.status.used.get a with
    | none =>
      have hused : (e.setUsed used).status.used.get a = none := hnone a hget
      rw [Eip.listed_of_get_none hget, Eip.listed_of_get_none hused]
      exact ⟨.slnil, fun _ _ _ => rfl⟩
    | some svcs =>
      obtain ⟨out, hout, hused⟩ := hmem a (hranges.mem hget)
      rw [hget, Option.getD_some] at hout
      rw [Eip.listed_of_get hget]
      have hsub : l₁ ⊆ ⟨.rangeUsed e.status.used, ks⟩ :: (l₁ ++ []) := by
        rw [List.append_nil]
        exact List.subset_cons_self _ _
      have hlist : (e.setUsed used).listed a = out := by
        by_cases hnil : out = []
        · rw [if_pos hnil, Map.get_empty] at hused
          rw [hnil]
          exact Eip.listed_of_get_none hused
        · rw [if_neg hnil] at hused
          refine (Eip.listed_of_get hused).trans (split_join hnil ?_)
          exact fun x hx => notMem_of_mem_split (hout.sublist.subset hx)
      rw [hlist]
      exact hout.mono hsub

/-- Filling in the status of a new Eip leaves what is in use alone. -/
theorem initStatus_some {e e₁ : Eip} (h : initStatus e = some e₁) :
    e₁.name = e.name ∧ e₁.status.used = e.status.used ∧ e₁.deletionTimestamp = e.deletionTimestamp := by
  obtain ⟨last, -, rfl⟩ := Option.map_eq_some_iff.mp h
  exact ⟨rfl, rfl, rfl⟩

/-- `updateEip` is a sync, of an Eip whose status it may have filled in before. -/
theorem trace_updateEip {e e' : Eip} {log : List (Prog.Event Call Reply)}
    (h : Prog.Trace Honest (updateEip e) log (.ok e')) :
    ∃ e₁, (e₁ = e ∨ e.status.firstIP = "" ∧ initStatus e = some e₁) ∧ Synced log e₁ e' := by
  unfold updateEip at h
  split at h
  · rename_i hfirst
    split at h
    · rename_i e₁ he₁
      exact ⟨e₁, .inr ⟨hfirst, he₁⟩, trace_syncEip h⟩
    · cases (run_crash_iff.mp h).2.1
  · exact ⟨e, .inl rfl, trace_syncEip h⟩

end OpenELB
