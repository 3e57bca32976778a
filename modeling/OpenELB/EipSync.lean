import OpenELB.Requests
import OpenELB.SharingLists

/-! # What a sync of an Eip keeps

`syncEip` reads every service that `Used` lists and rebuilds the map from those that
exist.  With a fixed set of services its result is a function of the map, address by
address (`keepLive`), which a second sync does not change (`keepLive_keepLive`).  A read
that fails ends the whole `Reconcile`, before it has written a status
(`run_reconcileEip_failed`). -/
namespace OpenELB
open Go Code

/-- The answers when exactly the services of `S` exist: reads may still fail, and maps are
ranged over in any order. -/
def ServicesAre (S : NamespacedName → Bool) : (c : Call) → Reply c → Prop
  | .getService k, .ok _ => S k
  | .getService k, .error .notFound => S k = false
  | .rangeUsed m, r => m.Ranges r
  | .sortEips l, r => EipsSorted l r
  | _, _ => True

/-- Whether `syncEip` keeps an element of a list of services. -/
def isLive (S : NamespacedName → Bool) (svc : String) : Bool :=
  match split '/' svc with
  | ns :: name :: _ => S ⟨ns, name⟩
  | _ => false

/-- What is left of the value for an address; `none` if the entry goes away. -/
def keepLive (S : NamespacedName → Bool) (svcs : String) : Option String :=
  if (split ';' svcs).filter (isLive S) = [] then none
  else some (join ';' ((split ';' svcs).filter (isLive S)))

section Values
variable {S : NamespacedName → Bool}

/-- A value that a sync has left is left as it is. -/
theorem keepLive_keepLive (svcs : String) : (keepLive S svcs).bind (keepLive S) = keepLive S svcs := by
  rw [keepLive]
  split
  · rfl
  · rename_i hne
    have hsplit : split ';' (join ';' ((split ';' svcs).filter (isLive S))) =
        (split ';' svcs).filter (isLive S) := by
      apply split_join hne
      intro x hx
      exact notMem_of_mem_split (List.mem_of_mem_filter hx)
    rw [Option.bind_some, keepLive, hsplit, List.filter_filter]
    simp only [Bool.and_self]
    rw [if_neg hne]

/-- **The value of an address is the list of its services that exist**, in order. -/
theorem keepLive_join {ks : List NamespacedName} (hks : ∀ k ∈ ks, k.Valid) :
    keepLive S (join ';' (ks.map NamespacedName.text)) =
      if ks.filter S = [] then none else some (join ';' ((ks.filter S).map NamespacedName.text)) := by
  by_cases hnil : ks = []
  · subst hnil
    rw [keepLive, List.map_nil, split_join_nil]
    rfl
  · have hsplit : split ';' (join ';' (ks.map NamespacedName.text)) =
        ks.map NamespacedName.text := by
      apply split_join (by simpa using hnil)
      intro x hx
      obtain ⟨k, hk, rfl⟩ := List.mem_map.mp hx
      exact (hks k hk).semicolon_notMem
    have hfilter : (ks.map NamespacedName.text).filter (isLive S) =
        (ks.filter S).map NamespacedName.text := by
      rw [List.filter_map]
      refine congrArg (List.map NamespacedName.text) (List.filter_congr fun k hk => ?_)
      rw [Function.comp_apply, isLive, (hks k hk).split_text]
    rw [keepLive, hsplit, hfilter]
    simp only [List.map_eq_nil_iff]

end Values

/-! ## The loops -/

section Loops
variable {S : NamespacedName → Bool} {log : List (Prog.Event Call Reply)}

theorem trace_syncSvcs_eq {svcs out : List String}
    (h : Prog.Trace (ServicesAre S) (syncSvcs svcs) log (.ok out)) :
    out = svcs.filter (isLive S) := by
  induction svcs generalizing log out with
  | nil => exact Outcome.ok.inj (run_pure_iff.mp h).2.1
  | cons svc svcs ih =>
    rw [syncSvcs] at h
    split at h
    · rename_i ns name rest hsplit
      have hlive : isLive S svc = S ⟨ns, name⟩ := by rw [isLive, hsplit]
      obtain ⟨r, s₁, log', hr, hrun, rfl⟩ := run_api h
      rcases r with (_ | _ | msg) | v
      · have hgone : S ⟨ns, name⟩ = false := hr
        rw [List.filter_cons_of_neg (by simp [hlive, hgone])]
        exact ih hrun
      · obtain ⟨-, hend, -⟩ := run_fail_iff.mp hrun
        contradiction
      · obtain ⟨-, hend, -⟩ := run_fail_iff.mp hrun
        contradiction
      · have hthere : S ⟨ns, name⟩ = true := hr
        obtain ⟨out', l₁, l₂, s₂, h₁, h₂, -⟩ := run_bind_ok hrun
        obtain rfl := Outcome.ok.inj (run_pure_iff.mp h₂).2.1
        rw [List.filter_cons_of_pos (by simp [hlive, hthere]), ih h₁]
    · rename_i hsplit
      have hlive : isLive S svc = false := by
        rw [isLive]
        split
        · rename_i ns name rest hsplit'
          exact absurd hsplit' (hsplit ns name rest)
        · rfl
      rw [List.filter_cons_of_neg (by simp [hlive])]
      exact ih h

theorem trace_syncUsed_get {m used used' : Map String String} {ks : List String} (hks : ks.Nodup)
    (h : Prog.Trace (ServicesAre S) (syncUsed m ks used) log (.ok used')) (a : String) :
    used'.get a =
      if a ∈ ks then (keepLive S ((m.get a).getD "")).or (used.get a) else used.get a := by
  induction ks generalizing used log with
  | nil =>
    obtain rfl := Outcome.ok.inj (run_pure_iff.mp h).2.1
    rw [if_neg List.not_mem_nil]
  | cons k ks ih =>
    obtain ⟨hk, hks⟩ := List.nodup_cons.mp hks
    obtain ⟨out, l₁, l₂, s₁, h₁, h₂, -⟩ := run_bind_ok h
    obtain rfl := trace_syncSvcs_eq h₁
    rw [ih hks h₂]
    -- what this visit does to the entry of its key
    have hvisit : (if (split ';' ((m.get k).getD "")).filter (isLive S) ≠ [] then
        used.set k (join ';' ((split ';' ((m.get k).getD "")).filter (isLive S))) else used).get a =
        if a = k then (keepLive S ((m.get k).getD "")).or (used.get k) else used.get a := by
      rw [keepLive]
      by_cases hnil : (split ';' ((m.get k).getD "")).filter (isLive S) = []
      · rw [if_neg (not_not.mpr hnil), if_pos hnil]
        by_cases ha : a = k
        · rw [if_pos ha, ha]
          rfl
        · rw [if_neg ha]
      · rw [if_pos hnil, if_neg hnil, Map.get_set]
        rfl
    rw [hvisit]
    by_cases ha : a = k
    · subst ha
      rw [if_neg hk, if_pos rfl, if_pos List.mem_cons_self]
    · rw [if_neg ha]
      simp only [List.mem_cons, ha, false_or]

theorem honest_of_servicesAre (c : Call) (r : Reply c) (h : ServicesAre S c r) : Honest c r := by
  cases c
  case rangeUsed => exact h
  case sortEips => exact h
  all_goals trivial

/-- **What a sync leaves**: of every entry the services that exist, and the counts that go
with it. -/
theorem trace_syncEip_eq {e e' : Eip}
    (h : Prog.Trace (ServicesAre S) (syncEip e) log (.ok e')) :
    e' = e.setUsed e'.status.used ∧ e'.status.used.isNil = false ∧
      ∀ a, e'.status.used.get a = (e.status.used.get a).bind (keepLive S) := by
  refine ⟨?_, trace_syncEip_isNil (h.trace fun c _ r _ => honest_of_servicesAre c r), ?_⟩
  all_goals
    obtain ⟨ks, s₁, l₁, hks, hrun, -⟩ := run_api h
    obtain ⟨used, l₂, l₃, s₂, hused, hret, -⟩ := run_bind_ok hrun
    obtain rfl := Outcome.ok.inj (run_pure_iff.mp hret).2.1
  · rfl
  · intro a
    have hranges : e.status.used.Ranges ks := hks
    have hget := trace_syncUsed_get hranges.1 hused a
    rw [Map.get_empty, Option.or_none] at hget
    show used.get a = _
    rw [hget]
    cases hold : e.status.used.get a with
    | none =>
      rw [if_neg fun hmem => ?_]
      · rfl
      · have hsome := (hranges.2 a).mp hmem
        rw [hold] at hsome
        nomatch hsome
    | some svcs =>
      rw [if_pos (hranges.mem hold)]
      rfl

/-- **A second sync with the same services changes nothing.** -/
theorem syncEip_idempotent {e e' e'' : Eip} {log' : List (Prog.Event Call Reply)}
    (h : Prog.Trace (ServicesAre S) (syncEip e) log (.ok e'))
    (h' : Prog.Trace (ServicesAre S) (syncEip e') log' (.ok e'')) : e'' = e' := by
  obtain ⟨he', hnil', hget'⟩ := trace_syncEip_eq h
  obtain ⟨he'', hnil'', hget''⟩ := trace_syncEip_eq h'
  have hused : e''.status.used = e'.status.used := by
    refine Map.ext (hnil''.trans hnil'.symm) fun a => ?_
    rw [hget'' a, hget' a]
    cases e.status.used.get a with
    | none => rfl
    | some svcs => exact keepLive_keepLive svcs
  rw [he'', hused]
  conv_rhs => rw [he']
  conv_lhs => rw [he']
  rfl

end Loops

/-! ## Reads that fail -/

/-- One of the calls was a read of the service that failed. -/
def ReadFailed (log : List (Prog.Event Call Reply)) (k : NamespacedName) (err : ApiErr) : Prop :=
  (⟨.getService k, .error err⟩ : Prog.Event Call Reply) ∈ log

section ReadFailed
variable {k : NamespacedName} {err : ApiErr} {l : List (Prog.Event Call Reply)}

/-- The call that failed is not the first one, which reads no service. -/
theorem ReadFailed.tail {c : Call} {r : Reply c} (h : ReadFailed (⟨c, r⟩ :: l) k err)
    (hc : ∀ k, c ≠ .getService k) : ReadFailed l k err := by
  rcases List.mem_cons.mp h with heq | hmem
  · exact absurd (congrArg Prog.Event.call heq).symm (hc k)
  · exact hmem

/-- Code that reads no service has no read that fails. -/
theorem not_readFailed {α σ : Type} {step : (c : Call) → σ → Reply c → σ → Prop} {s s' : σ}
    {p : Prog Call Reply α} {a : α} (h : Prog.Run step s p l a s')
    (hp : p.All fun c => ∀ k, c ≠ .getService k) : ¬ ReadFailed l k err :=
  fun hbad => hp.of_run h _ hbad k rfl

end ReadFailed

/-- Code that ends with the error of the first read of a service that fails. -/
def FailsFast {α : Type} (p : Code α) : Prop :=
  ∀ log o, Prog.Trace (fun _ _ => True) p log o → ∀ k err, err ≠ .notFound →
    ReadFailed log k err → o = .err (.api err)

section FailsFast
variable {α β : Type} {f : α → Code β}

/-- Code that reads no service. -/
theorem failsFast_of_all {p : Code α} (hp : p.All fun c => ∀ k, c ≠ .getService k) :
    FailsFast p :=
  fun _ _ h _ _ _ hbad => absurd hbad (not_readFailed h hp)

theorem failsFast_pure (a : α) : FailsFast (pure a) := failsFast_of_all trivial

theorem failsFast_fail (e : Err) : FailsFast (fail e : Code α) := failsFast_of_all trivial

theorem failsFast_crash : FailsFast (crash : Code α) := failsFast_of_all trivial

theorem failsFast_bind {p : Code α} (hp : FailsFast p) (hf : ∀ a, FailsFast (f a)) :
    FailsFast (p >>= f : Code β) := by
  intro log o h k err herr hbad
  rcases run_bind h with ⟨a, l₁, l₂, s₁, h₁, h₂, rfl⟩ | ⟨e, rfl, h₁⟩ | ⟨rfl, h₁⟩
  · rcases List.mem_append.mp hbad with hbad | hbad
    · nomatch hp l₁ _ h₁ k err herr hbad
    · exact hf a l₂ o h₂ k err herr hbad
  · rw [Outcome.err.inj (hp log _ h₁ k err herr hbad)]
  · nomatch hp log _ h₁ k err herr hbad

/-- A call that is no read of a service. -/
theorem failsFast_api {c : Call} {f : Reply c → Code β} (hc : ∀ k, c ≠ .getService k)
    (hf : ∀ r, FailsFast (f r)) : FailsFast (api c >>= f : Code β) := by
  intro log o h k err herr hbad
  obtain ⟨r, s₁, l₁, -, hrun, rfl⟩ := run_api h
  exact hf r l₁ o hrun k err herr (hbad.tail hc)

/-- A read of a service whose errors are returned, but for "not found". -/
theorem failsFast_getService {k : NamespacedName}
    {f : Except ApiErr (Version Service) → Code β} (hok : ∀ v, FailsFast (f (.ok v)))
    (hnone : FailsFast (f (.error .notFound)))
    (herror : ∀ e, e ≠ .notFound → f (.error e) = fail (.api e)) :
    FailsFast (api (.getService k) >>= f : Code β) := by
  intro log o h k' err herr hbad
  obtain ⟨r, s₁, l₁, -, hrun, rfl⟩ := run_api h
  have hlater : r = .error err ∨ ReadFailed l₁ k' err := by
    rcases List.mem_cons.mp hbad with heq | hmem
    · left
      cases heq
      rfl
    · exact .inr hmem
  rcases hlater with rfl | hlater
  · rw [herror err herr] at hrun
    exact (run_fail_iff.mp hrun).2.1
  · rcases r with e | v
    · by_cases he : e = .notFound
      · subst he
        exact hnone l₁ o hrun k' err herr hlater
      · rw [herror e he] at hrun
        exact failsFast_fail (.api e) l₁ o hrun k' err herr hlater
    · exact hok v l₁ o hrun k' err herr hlater

end FailsFast

theorem failsFast_syncSvcs (svcs : List String) : FailsFast (syncSvcs svcs) := by
  induction svcs with
  | nil => exact failsFast_pure []
  | cons svc svcs ih =>
    rw [syncSvcs]
    split
    · apply failsFast_getService
      · exact fun _ => failsFast_bind ih fun rest => failsFast_pure _
      · exact ih
      · intro e he
        rcases e with _ | _ | _
        · exact absurd rfl he
        · rfl
        · rfl
    · exact ih

theorem failsFast_syncUsed (m : Map String String) (ks : List String) (used : Map String String) :
    FailsFast (syncUsed m ks used) := by
  induction ks generalizing used with
  | nil => exact failsFast_pure used
  | cons k ks ih => exact failsFast_bind (failsFast_syncSvcs _) fun _ => ih _

theorem failsFast_updateEip (e : Eip) : FailsFast (updateEip e) := by
  have hsync : ∀ e, FailsFast (syncEip e) := by
    intro e
    apply failsFast_api (fun k => Call.noConfusion)
    exact fun ks => failsFast_bind (failsFast_syncUsed _ _ _) fun used => failsFast_pure _
  unfold updateEip
  split
  · split
    · exact hsync _
    · exact failsFast_crash
  · exact hsync e

/-! ## The controller -/

/-- Every Eip has the status it had. -/
def SameStatuses (s s' : Cluster) : Prop :=
  ∀ name, (s'.eip name).map Eip.status = (s.eip name).map Eip.status

theorem SameStatuses.of_eips {s s' : Cluster} (h : s'.eips = s.eips) : SameStatuses s s' := by
  intro name
  rw [Cluster.eip, Cluster.eip, h]

section Controller
variable {f : Faults} {s s' : Cluster} {l : List (Prog.Event Call Reply)} {o : Outcome Unit}
  {k : NamespacedName} {err : ApiErr}

/-- An update with a finalizer keeps the Eip and every status. -/
theorem sameStatuses_of_updateEip {v : Version Eip} {u : Reply (.updateEip v)}
    (hfin : v.obj.finalizers ≠ []) (h : exec f (.updateEip v) s u s') : SameStatuses s s' := by
  obtain ⟨eips, hw, rfl⟩ := h
  rcases hw.cases (fun a b hab => (Eip.applyUpdate_some hab).1) with ⟨rfl, -⟩ | ⟨w, ha, -⟩
  · exact .of_eips rfl
  · intro name
    by_cases hname : name = v.obj.name
    · subst hname
      show ((eips.get v.obj.name).map Version.obj).map Eip.status = _
      rw [ha.obj, Cluster.eip_of_get ha.found, Eip.applyUpdate, if_neg fun hgone => hfin hgone.2]
      rfl
    · show ((eips.get name).map Version.obj).map Eip.status = _
      rw [ha.frame name hname]
      rfl

/-- An Eip that is let go of is not synced. -/
theorem removeEip_readsNoService (e : Eip) :
    Prog.All (fun c => ∀ k, c ≠ .getService k) (removeEip e) := by
  refine all_api (fun k => Call.noConfusion) fun r => all_bind (all_must r) fun svcs => ?_
  induction svcs with
  | nil => trivial
  | cons svc svcs ih =>
    exact all_api (fun k => Call.noConfusion) fun r => all_bind (all_must r) fun _ => ih

theorem eips_of_run {α : Type} {p : Prog Call Reply α} {a : α} (hp : p.All Call.KeepsEips)
    (h : Prog.Run (exec f) s p l a s') : s'.eips = s.eips := by
  induction h with
  | ret => rfl
  | call he _ ih => exact (ih (hp.2 _)).trans (eips_of_exec hp.1 he)

/-- A read fails while the status is computed, so it is not written. -/
theorem run_refreshEip_failed {v : Version Eip} (herr : err ≠ .notFound)
    (h : Prog.Run (exec f) s (refreshEip v) l o s') (hbad : ReadFailed l k err) :
    o = .err (.api err) ∧ SameStatuses s s' := by
  have hfast := failsFast_updateEip v.obj
  have hkeep : ∀ {l : List (Prog.Event Call Reply)} {o : Outcome Eip} {s₁ : Cluster},
      Prog.Run (exec f) s (updateEip v.obj) l o s₁ → SameStatuses s s₁ :=
    fun hrun => .of_eips (eips_of_run (all_updateEip v.obj) hrun)
  have htrace : ∀ {l : List (Prog.Event Call Reply)} {o : Outcome Eip} {s₁ : Cluster},
      Prog.Run (exec f) s (updateEip v.obj) l o s₁ → ReadFailed l k err → o = .err (.api err) :=
    fun hrun => hfast _ _ (hrun.trace fun _ _ _ _ _ => trivial) k err herr
  rcases run_bind h with ⟨clone, l₁, l₂, s₁, h₁, h₂, rfl⟩ | ⟨e, rfl, h₁⟩ | ⟨rfl, h₁⟩
  · rcases List.mem_append.mp hbad with hbad | hbad
    · nomatch htrace h₁ hbad
    · -- all that is left is the write of the status
      refine absurd hbad (not_readFailed h₂ ?_)
      split
      · trivial
      · exact all_api (fun k => Call.noConfusion) fun r => all_bind (all_must r) fun _ => trivial
  · rw [Outcome.err.inj (htrace h₁ hbad)]
    exact ⟨rfl, hkeep h₁⟩
  · nomatch htrace h₁ hbad

/-- **A read that fails ends `Reconcile`**, which has not changed a status. -/
theorem run_reconcileEip_failed {name : String} (herr : err ≠ .notFound)
    (h : Prog.Run (exec f) s (reconcileEip name) l o s') (hbad : ReadFailed l k err) :
    o = .err (.api err) ∧ SameStatuses s s' := by
  obtain ⟨r, s₁, l₁, ⟨rfl, -⟩, hrun, rfl⟩ := run_api h
  replace hbad := hbad.tail fun k => Call.noConfusion
  rcases r with (_ | _ | msg) | eip
  · exact absurd hbad (not_readFailed hrun trivial)
  · exact absurd hbad (not_readFailed hrun trivial)
  · exact absurd hbad (not_readFailed hrun trivial)
  · dsimp only at hrun
    split at hrun
    · refine absurd hbad (not_readFailed hrun (all_bind (removeEip_readsNoService _) fun _ => ?_))
      exact all_api (fun k => Call.noConfusion) fun r => all_bind (all_must r) fun _ => trivial
    · split at hrun
      · obtain ⟨r, s₂, l₂, hupdate, hrun₂, rfl⟩ := run_api hrun
        replace hbad := hbad.tail fun k => Call.noConfusion
        have hfin := List.ne_nil_of_mem (mem_addFinalizer eip.obj.finalizers ipamFinalizerName)
        have hkept := sameStatuses_of_updateEip hfin hupdate
        rcases r with e | v
        · exact absurd hbad (not_readFailed hrun₂ trivial)
        · obtain ⟨ho, hsame⟩ := run_refreshEip_failed herr hrun₂ hbad
          exact ⟨ho, fun n => (hsame n).trans (hkept n)⟩
      · exact run_refreshEip_failed herr hrun hbad

end Controller

/-- **A sync keeps exactly the live records.**  With the services of `S` in existence, an
address keeps the services of its list that exist, in order, and goes away with the last of
them; `Usage` and `Occupied` are computed from what is kept; nothing else changes, and a
second sync changes nothing.  If a read fails otherwise than with "not found", `Reconcile`
returns that error, and every stored status is what it was. -/
theorem sync_keeps_live {S : NamespacedName → Bool} {e e' : Eip}
    {log : List (Prog.Event Call Reply)}
    (h : Prog.Trace (ServicesAre S) (syncEip e) log (.ok e')) :
    (e.SameButUsed e' ∧
      (∀ a, e.status.used.get a = none → e'.status.used.get a = none) ∧
      (∀ a (ks : List NamespacedName), (∀ k ∈ ks, k.Valid) →
        e.status.used.get a = some (join ';' (ks.map NamespacedName.text)) →
        e'.status.used.get a = if ks.filter S = [] then none
          else some (join ';' ((ks.filter S).map NamespacedName.text))) ∧
      e'.status.usage = e'.status.used.len ∧
      e'.status.occupied = decide (e'.status.usage ≥ e'.status.poolSize)) ∧
      (∀ log' e'', Prog.Trace (ServicesAre S) (syncEip e') log' (.ok e'') → e'' = e') ∧
      ∀ f s s' name l o k err, Prog.Run (exec f) s (reconcileEip name) l o s' →
        err ≠ .notFound → ReadFailed l k err → o = .err (.api err) ∧ SameStatuses s s' := by
  obtain ⟨he', -, hget⟩ := trace_syncEip_eq h
  refine ⟨⟨?_, fun a hnone => ?_, fun a ks hks hsome => ?_, ?_, ?_⟩, ?_, ?_⟩
  · rw [he']
    rfl
  · rw [hget a, hnone]
    rfl
  · rw [hget a, hsome, Option.bind_some, keepLive_join hks]
  · rw [he']
    rfl
  · rw [he']
    rfl
  · exact fun log' e'' h' => syncEip_idempotent h h'
  · exact fun f s s' name l o k err hrun herr hbad => run_reconcileEip_failed herr hrun hbad

/-- Only the service `ns/web` exists. -/
def onlyWeb (k : NamespacedName) : Bool := k = web

/-- A pool whose addresses list services that are gone. -/
def halfGone : Eip :=
  { twoAddressesReady with status := { twoAddressesReady.status with
    used := Map.ofList [("192.0.2.1", "ns/gone;ns/web"), ("192.0.2.2", "ns/gone")] } }

/-- Answers to the calls of its sync. -/
def answerOnlyWeb : (c : Call) → Unit → Option (Reply c × Unit)
  | .getService k, _ => some (if onlyWeb k then .ok ⟨1, webService⟩ else .error .notFound, ())
  | .rangeUsed m, _ =>
    if m.Ranges ["192.0.2.1", "192.0.2.2"] then some (["192.0.2.1", "192.0.2.2"], ()) else none
  | _, _ => none

theorem servicesAre_of_answerOnlyWeb (c : Call) (u : Unit) (r : Reply c) (u' : Unit)
    (h : answerOnlyWeb c u = some (r, u')) : ServicesAre onlyWeb c r := by
  unfold answerOnlyWeb at h
  split at h
  · rename_i k
    obtain rfl := congrArg Prod.fst (Option.some.inj h)
    by_cases hk : onlyWeb k = true
    · rw [if_pos hk]
      exact hk
    · rw [if_neg hk]
      exact Bool.eq_false_of_not_eq_true hk
  · split at h
    · rename_i hranges
      obtain rfl := congrArg Prod.fst (Option.some.inj h)
      exact hranges
    · contradiction
  · contradiction

theorem sync_keeps_live_halfGone :
    ∃ log e', Prog.Trace (ServicesAre onlyWeb) (syncEip halfGone) log (.ok e') ∧
      e'.status.used.get "192.0.2.1" = some "ns/web" ∧
      e'.status.used.get "192.0.2.2" = none ∧ e'.status.usage = 1 := by
  have heval : ∃ e', Prog.eval answerOnlyWeb (syncEip halfGone) () = some (.ok e', ()) ∧
      e'.status.used.len = 1 := by
    refine ⟨halfGone.setUsed (Map.ofList [("192.0.2.1", "ns/web")]), ?_, ?_⟩ <;> decide +kernel
  obtain ⟨e', heval, hlen⟩ := heval
  obtain ⟨log, hrun⟩ := Prog.run_eval servicesAre_of_answerOnlyWeb heval
  have hgone : NamespacedName.Valid ⟨"ns", "gone"⟩ := ⟨by decide, by decide⟩
  have hweb : web.Valid := ⟨by decide, by decide⟩
  obtain ⟨⟨-, -, hkept, husage, -⟩, -⟩ := sync_keeps_live hrun
  have hone := hkept "192.0.2.1" [⟨"ns", "gone"⟩, web] (by simp [hgone, hweb]) (by decide +kernel)
  have htwo := hkept "192.0.2.2" [⟨"ns", "gone"⟩] (by simp [hgone]) (by decide +kernel)
  refine ⟨log, e', hrun, hone.trans (by decide +kernel), htwo.trans (by decide +kernel), ?_⟩
  rw [husage, hlen]
  rfl

end OpenELB
