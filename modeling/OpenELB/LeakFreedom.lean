import OpenELB.Evaluation
import OpenELB.ServiceSteps
import OpenELB.Threads

/-! # Whether an address can be leaked

One service is reconciled while users create and delete it.  A deletion removes a
service without finalizers at once, and only marks one that has some.  A change
of the service puts it into the queue, a `Reconcile` that fails puts it back, and
`Reconcile` starts when it is in there.

`AssignIP` records the address before the service has its finalizer.  If the
service is deleted in between, it is gone at once; the write of the finalizer then
fails, and the `Reconcile` that follows finds no service and returns: the address
stays in use for nobody (`address_leaked`).

This is the only way.  Unless a service is removed while it is recorded, or while
a `Reconcile` that has read it may still write the status of an Eip, a service that
does not exist is recorded nowhere (`no_leaked_address`). -/
namespace OpenELB.Lifecycle
open Go Code Threads

/-- The cluster, and whether the service is queued. -/
structure World where
  cluster : Cluster
  queued : Bool

/-- The cluster becomes `s`; if that changes the service, it is queued. -/
def World.moved (k : NamespacedName) (w : World) (s : Cluster) : World where
  cluster := s
  queued := w.queued || s.service k ≠ w.cluster.service k

/-- Reads see what is stored, and everything may fail. -/
def faults : Faults := { readFail := true, writeFail := true }

/-- What the worker is doing. -/
abbrev Work := Unit → Option (Task Unit Call Reply (Outcome Unit))

/-- What users do to the service, and what may happen to the rest of the cluster.
`D` has to hold if a deletion removes the service at once. -/
inductive UserStep (k : NamespacedName) (D : Cluster → Prop) (s : Cluster) : Cluster → Prop
  | create (svc : Service) : s.service k = none → svc.key = k → svc.deletionTimestamp = false →
      UserStep k D s { s with services := s.services.put svc }
  | delete (svc : Service) : s.service k = some svc → (svc.finalizers = [] → D s) →
      UserStep k D s { s with services := s.services.modify k Service.applyDelete }
  | elsewhere {s' : Cluster} : EipsLater s s' → VStore.Later s.services s'.services →
      Fewer k.text s s' → s'.service k = s.service k → UserStep k D s s'

/-- The worker of the service, among the users. -/
def system (env : Env) (k : NamespacedName) (D : Work → Cluster → Prop) :
    System Unit Unit Call Reply (Outcome Unit) World where
  body _ := OpenELB.reconcile env k
  exec c w r w' := ∃ s, exec faults c w.cluster r s ∧ w' = w.moved k s
  start _ _ w w' := w.queued = true ∧ w' = { w with queued := false }
  done _ _ o w w' := w' = { w with queued := w.queued || o ≠ .ok () }
  env work w w' := ∃ s, UserStep k (D work) w.cluster s ∧ w' = w.moved k s

/-- It is harmless to remove the service: it is recorded nowhere, and a `Reconcile`
that has begun will write to no Eip. -/
def Harmless (k : NamespacedName) (work : Work) (s : Cluster) : Prop :=
  Free k.text s ∧ ∀ t, work () = some t → t.log = [] ∨ t.rest.All Call.KeepsEips

/-! ## What is kept -/

/-- The service exists, and is no node proxy. -/
def Present (k : NamespacedName) (s : Cluster) : Prop :=
  ∃ svc, s.service k = some svc ∧ hasOpenELBNPAnnotation svc.annotations = false

/-- The service is recorded at most once, and only if it is there. -/
structure Sound (k : NamespacedName) (s : Cluster) : Prop where
  once : AtMostOnce k.text s
  present : ∀ name addr, k.text ∈ s.records name addr → Present k s

/-- What the worker relies on. -/
structure Rely (k : NamespacedName) (s s' : Cluster) : Prop where
  later : EipsLater s s'
  servicesLater : VStore.Later s.services s'.services
  fewer : Fewer k.text s s'
  present : Present k s → Present k s'

section Steps
variable {env : Env} {k : NamespacedName} {s s' : Cluster} {log : List (Prog.Event Call Reply)}

theorem Rely.refl (k : NamespacedName) (s : Cluster) : Rely k s s :=
  ⟨.refl _, .refl _, .refl _ _, id⟩

theorem Rely.trans {s'' : Cluster} (h : Rely k s s') (h' : Rely k s' s'') : Rely k s s'' :=
  ⟨h.later.trans h'.later, h.servicesLater.trans h'.servicesLater, h.fewer.trans h'.fewer,
    fun hp => h'.present (h.present hp)⟩

theorem Sound.of_free (h : Free k.text s) : Sound k s :=
  ⟨h.atMostOnce, fun _ _ hmem => absurd hmem (h _ _)⟩

theorem Sound.rely (h : Sound k s) (hr : Rely k s s') : Sound k s' :=
  ⟨h.once.fewer hr.fewer, fun _ _ hmem => hr.present (h.present _ _ (hr.fewer.mem hmem))⟩

/-- A service that does not exist, or is a node proxy, is recorded nowhere. -/
theorem Sound.free (h : Sound k s) (hnot : ¬ Present k s) : Free k.text s :=
  fun _ _ hmem => hnot (h.present _ _ hmem)

theorem Present.of_services (h : s'.services = s.services) (hp : Present k s) : Present k s' := by
  obtain ⟨svc, hsvc, hnp⟩ := hp
  refine ⟨svc, ?_, hnp⟩
  rw [Cluster.service, h]
  exact hsvc

/-- **A step of the IPAM path keeps the service sound.** -/
theorem Sound.step (h : Sound k s) (hk : k.Valid)
    (hstep : ServiceStep k True (Present k) s s') : Sound k s' := by
  refine ⟨hstep.effect.atMostOnce hk trivial h.once, fun name addr hmem => ?_⟩
  cases hstep.effect with
  | kept heips =>
    obtain ⟨svc, hsvc, hnp⟩ := h.present name addr (by
      rw [Cluster.records, Cluster.eip, heips] at hmem
      exact hmem)
    cases hsvc' : s'.service k with
    | none =>
      have hfree := hstep.removed trivial (by rw [hsvc]; exact Option.some_ne_none _) hsvc'
      exact absurd hmem (hfree _ _)
    | some svc' =>
      have hann := hstep.annotations trivial _ _ hsvc hsvc'
      exact ⟨svc', hsvc', (hasOpenELBNPAnnotation_congr (hann _)).trans hnp⟩
  | released hkeys hw =>
    have hfewer := hw.fewer_of_release NamespacedName.Valid.text_ne_empty hkeys
    exact (h.present name addr (hfewer.mem hmem)).of_services hw.services
  | assigned _ _ hw _ hp => exact hp.of_services hw.services

theorem surroundings (k : NamespacedName) : Surroundings faults k True (Present k) (Rely k) where
  refl := Rely.refl k
  trans _ _ _ := Rely.trans
  later _ _ h := h.later
  stable _ _ h := h.present
  services _ _ := Present.of_services
  stale _ := rfl
  fewer _ _ _ h := h.fewer
  servicesLater _ _ _ h := h.servicesLater

/-- What has no records keeps none while no Eip is written to. -/
theorem free_of_exec {c : Call} {r : Reply c} (hc : c.KeepsEips) (h : exec faults c s r s')
    (hfree : Free k.text s) : Free k.text s' :=
  hfree.fewer ((StatusKept.of_eips_eq (eips_of_exec hc h)).fewer _)

/-- Safety of what is left of a `Reconcile`. -/
abbrev SafeWork (k : NamespacedName) (log : List (Prog.Event Call Reply)) (p : Code Unit)
    (s : Cluster) : Prop :=
  Prog.Safe (exec faults) (Rely k) (fun _ _ _ _ s s' => Sound k s → Sound k s') (fun _ _ _ => True)
    log p s

/-- **`Reconcile` keeps the service sound**, as long as nobody else removes it. -/
theorem safe_reconcile (hs : Sound k s) : SafeWork k [] (OpenELB.reconcile env k) s := by
  rw [OpenELB.reconcile]
  refine safe_api fun s₁ r s₂ hr he => ?_
  obtain ⟨rfl, hread⟩ := he
  refine ⟨id, ?_⟩
  rcases r with (_ | _ | msg) | svc
  · exact safe_pure fun _ _ => trivial
  · exact safe_fail fun _ _ => trivial
  · exact safe_fail fun _ _ => trivial
  · have hsvc := Cluster.service_of_get (hread.get rfl)
    dsimp only
    split
    · -- a node proxy has no records, and gets none
      rename_i hnp
      have hfree : Free k.text s₂ := by
        refine (hs.rely hr).free ?_
        rintro ⟨svc', hsvc', hnp'⟩
        rw [hsvc] at hsvc'
        cases hsvc'
        rw [hnp] at hnp'
        cases hnp'
      refine (Prog.Safe.of_all_inv (fun _ _ hr hfree => hfree.fewer hr.fewer) ?_
        (all_reconcileNP env svc) hfree).mono (fun _ _ _ _ _ _ h => h) fun _ _ _ _ => trivial
      intro _ _ _ _ _ _ hc he hfree
      have hfree' := free_of_exec hc.keepsEips he hfree
      exact ⟨fun _ => .of_free hfree', hfree'⟩
    · rename_i hnp
      obtain ⟨hlog, hkey⟩ := hread.mem_log
      have hK : Known True (Present k) svc s₂ := ⟨fun _ => hlog, svc.obj, hsvc, by simpa using hnp⟩
      refine (safe_ipam (surroundings k) hkey (fun _ => (hs.rely hr).once) hK).mono
        (fun _ _ _ _ _ _ hstep hsound => ?_) fun _ _ _ h => h
      exact hsound.step (hkey ▸ svc.obj.key_valid) hstep

end Steps

/-! ## Runs -/

/-- How far the worker is: it has not begun, or it is safe, or there are no records
and it writes to no Eip any more. -/
inductive Going (env : Env) (k : NamespacedName) (log : List (Prog.Event Call Reply))
    (rest : Code Unit) (s : Cluster) : Prop
  | fresh : log = [] → rest = OpenELB.reconcile env k → Going env k log rest s
  | safe : log ≠ [] → SafeWork k log rest s → Going env k log rest s
  | harmless : log ≠ [] → Prog.All Call.KeepsEips rest → Free k.text s → Going env k log rest s

/-- The service is sound, and what the worker does will keep it so. -/
structure Fine (env : Env) (k : NamespacedName) (s : Cluster) (work : Work) : Prop where
  sound : Sound k s
  going : ∀ t, work () = some t → Going env k t.log t.rest s

section Runs
variable {env : Env} {k : NamespacedName} {s s' : Cluster} {log : List (Prog.Event Call Reply)}
  {work : Work}

theorem Going.rely {rest : Code Unit} (h : Going env k log rest s) (hr : Rely k s s') :
    Going env k log rest s' := by
  cases h with
  | fresh hlog hrest => exact .fresh hlog hrest
  | safe hlog hsafe => exact .safe hlog (hsafe.rely (fun _ _ _ => Rely.trans) hr)
  | harmless hlog hall hfree => exact .harmless hlog hall (hfree.fewer hr.fewer)

/-- **A call of the worker keeps the service sound.** -/
theorem Going.call {c : Call} {cont : Reply c → Code Unit} {r : Reply c}
    (h : Going env k log (Prog.call c cont) s) (hs : Sound k s) (he : exec faults c s r s') :
    Sound k s' ∧ Going env k (log ++ [⟨c, r⟩]) (cont r) s' := by
  have hne : log ++ [⟨c, r⟩] ≠ [] := by simp
  have hsafe : SafeWork k log (Prog.call c cont) s →
      Sound k s' ∧ Going env k (log ++ [⟨c, r⟩]) (cont r) s' := by
    intro hsafe
    obtain ⟨hg, hrest⟩ := hsafe s r s' (Rely.refl k s) he
    exact ⟨hg hs, .safe hne hrest⟩
  cases h with
  | fresh hlog hrest =>
    refine hsafe ?_
    rw [hlog, hrest]
    exact safe_reconcile hs
  | safe _ h => exact hsafe h
  | harmless _ hall hfree =>
    have hfree' := free_of_exec hall.1 he hfree
    exact ⟨.of_free hfree', .harmless hne (hall.2 r) hfree'⟩

/-- **What users do keeps the service sound**, if they remove it only when that is
harmless. -/
theorem Fine.userStep (h : Fine env k s work) (hu : UserStep k (Harmless k work) s s') :
    Fine env k s' work := by
  have hrely : Rely k s s' → Fine env k s' work :=
    fun hr => ⟨h.sound.rely hr, fun t ht => (h.going t ht).rely hr⟩
  cases hu with
  | create svc hnone hkey hdel =>
    refine hrely ⟨.refl _, VStore.later_put _ _, (StatusKept.of_eips_eq rfl).fewer _, ?_⟩
    rintro ⟨svc', hsvc', -⟩
    rw [hnone] at hsvc'
    cases hsvc'
  | delete svc hsvc hD =>
    by_cases hfin : svc.finalizers = []
    · obtain ⟨hfree, hwork⟩ := hD hfin
      have hfree' : Free k.text _ := hfree.fewer ((StatusKept.of_eips_eq rfl).fewer _)
      refine ⟨.of_free hfree', fun t ht => ?_⟩
      cases h.going t ht with
      | fresh hlog hrest => exact .fresh hlog hrest
      | safe hlog _ => exact .harmless hlog ((hwork t ht).resolve_left hlog) hfree'
      | harmless hlog hall _ => exact .harmless hlog hall hfree'
    · -- the service is only marked
      refine hrely ⟨.refl _, VStore.later_modify _ _ _, (StatusKept.of_eips_eq rfl).fewer _, ?_⟩
      rintro ⟨svc', hsvc', hnp⟩
      refine ⟨{ svc' with deletionTimestamp := true }, ?_, hnp⟩
      obtain rfl := Option.some.inj (hsvc.symm.trans hsvc')
      rw [Cluster.service, VStore.obj_modify fun _ _ => Service.applyDelete_key]
      show (s.service k).bind _ = _
      rw [hsvc, Option.bind_some, Service.applyDelete, if_neg hfin]
  | elsewhere hl hsl hfewer hsame =>
    refine hrely ⟨hl, hsl, hfewer, ?_⟩
    rintro ⟨svc, hsvc, hnp⟩
    exact ⟨svc, hsame.trans hsvc, hnp⟩

/-- **Every step keeps the service sound.** -/
theorem fine_step {c d : Conf Unit Unit Call Reply (Outcome Unit) World}
    (hs : (system env k (Harmless k)).Step c d) (hc : Fine env k c.state.cluster c.task) :
    Fine env k d.state.cluster d.task := by
  -- there is one worker only
  have hself : ∀ (i : Unit) (o : Option (Task Unit Call Reply (Outcome Unit))) {t},
      Function.update c.task i o () = some t → o = some t := by
    intro i o t h
    rwa [show () = i from rfl, Function.update_self] at h
  cases hs with
  | start i op w hi hst =>
    obtain ⟨-, rfl⟩ := hst
    refine ⟨hc.sound, fun t ht => ?_⟩
    cases hself i _ ht
    exact .fresh rfl rfl
  | call i op log x cont r w hi he =>
    obtain ⟨s, he, rfl⟩ := he
    obtain ⟨hsound, hgoing⟩ := (hc.going _ hi).call hc.sound he
    refine ⟨hsound, fun t ht => ?_⟩
    cases hself i _ ht
    exact hgoing
  | done i op log o w hi hd =>
    obtain rfl := hd
    refine ⟨hc.sound, fun t ht => ?_⟩
    cases hself i _ ht
  | env w he =>
    obtain ⟨s, hu, rfl⟩ := he
    exact hc.userStep hu

/-- **So do all runs.** -/
theorem fine_of_reach {c : Conf Unit Unit Call Reply (Outcome Unit) World}
    (hc : (system env k (Harmless k)).Reach (fun w => Sound k w.cluster) c) :
    Fine env k c.state.cluster c.task := by
  induction hc with
  | init hs => exact ⟨hs, fun t ht => by cases ht⟩
  | step _ hs ih => exact fine_step hs ih

/-- **No leaked address.**  If every deletion that removes the service at once finds
it recorded nowhere, and no `Reconcile` that has begun and may still write to an
Eip, then in every reachable state, also while the service is queued or being
reconciled, a service that does not exist is listed by no Eip that is not being
deleted. -/
theorem no_leaked_address {c : Conf Unit Unit Call Reply (Outcome Unit) World}
    (hc : (system env k (Harmless k)).Reach (fun w => Sound k w.cluster) c)
    (hgone : c.state.cluster.service k = none) : Free k.text c.state.cluster := by
  refine (fine_of_reach hc).sound.free ?_
  rintro ⟨svc, hsvc, -⟩
  rw [hgone] at hsvc
  cases hsvc

end Runs

/-! ## Runs of one service -/

/-- The answers to the worker. -/
def answerWorld (c : Call) (w : World) : Option (Reply c × World) :=
  (answer inOrder c w.cluster).map fun x => (x.1, w.moved web x.2)

theorem exec_of_answerWorld {D : Work → Cluster → Prop} (c : Call) (w : World) (r : Reply c)
    (w' : World) (h : answerWorld c w = some (r, w')) :
    (system plainEnv web D).exec c w r w' := by
  obtain ⟨⟨r', s⟩, hx, he⟩ := Option.map_eq_some_iff.mp h
  cases he
  exact ⟨s, exec_of_inOrder (f := faults) c _ _ _ hx, rfl⟩

/-- A pool, and no service yet. -/
def noService : World := ⟨clusterOf [twoAddressesReady] [], false⟩

/-- A user creates the service. -/
def World.created (w : World) : World :=
  w.moved web { w.cluster with services := w.cluster.services.put webService }

/-- A user deletes it. -/
def World.deleted (w : World) : World :=
  w.moved web { w.cluster with services := w.cluster.services.modify web Service.applyDelete }

/-- What is left in the queue when a `Reconcile` is done. -/
def World.doneWith (w : World) (o : Outcome Unit) : World :=
  { w with queued := w.queued || o ≠ .ok () }

section Reaching
variable {D : Work → Cluster → Prop} {init : World → Prop} {w w' : World}

theorem reach_created (hc : (system plainEnv web D).Reach init ⟨w, fun _ => none⟩)
    (hnone : w.cluster.service web = none) :
    (system plainEnv web D).Reach init ⟨w.created, fun _ => none⟩ :=
  hc.step (.env _ ⟨_, .create webService hnone rfl rfl, rfl⟩)

/-- The worker makes some calls of what is left of a `Reconcile`. -/
theorem reach_calls {n : Nat} {log l : List (Prog.Event Call Reply)} {p p' : Code Unit}
    (hc : (system plainEnv web D).Reach init ⟨w, fun _ => some ⟨(), log, p⟩⟩)
    (h : Prog.advance answerWorld n p w = some (l, p', w')) :
    (system plainEnv web D).Reach init ⟨w', fun _ => some ⟨(), log ++ l, p'⟩⟩ := by
  have hrun := hc.advance exec_of_answerWorld (i := ()) rfl h
  have hwork : Function.update (fun _ => some ⟨(), log, p⟩) () (some ⟨(), log ++ l, p'⟩) =
      fun _ => (some ⟨(), log ++ l, p'⟩ : Option (Task Unit Call Reply (Outcome Unit))) :=
    funext fun _ => Function.update_self ..
  rwa [hwork] at hrun

/-- The worker takes the service out of the queue and makes some calls. -/
theorem reach_begun {n : Nat} {l : List (Prog.Event Call Reply)} {p : Code Unit}
    (hc : (system plainEnv web D).Reach init ⟨w, fun _ => none⟩) (hq : w.queued = true)
    (h : Prog.advance answerWorld n (OpenELB.reconcile plainEnv web) { w with queued := false } =
      some (l, p, w')) :
    (system plainEnv web D).Reach init ⟨w', fun _ => some ⟨(), l, p⟩⟩ := by
  have hstart := hc.step (.start () () _ rfl ⟨hq, rfl⟩)
  have hwork : Function.update (fun _ => none) () (some ⟨(), [], OpenELB.reconcile plainEnv web⟩) =
      fun _ => (some ⟨(), [], OpenELB.reconcile plainEnv web⟩ :
        Option (Task Unit Call Reply (Outcome Unit))) :=
    funext fun _ => Function.update_self ..
  exact reach_calls (hwork ▸ hstart) h

/-- The worker is done. -/
theorem reach_done {log : List (Prog.Event Call Reply)} {p : Code Unit} {o : Outcome Unit}
    (hc : (system plainEnv web D).Reach init ⟨w, fun _ => some ⟨(), log, p⟩⟩)
    (ho : Prog.result p = some o) :
    (system plainEnv web D).Reach init ⟨w.doneWith o, fun _ => none⟩ := by
  obtain rfl := Prog.eq_ret_of_result ho
  have hdone := hc.step (.done () () log o (w.doneWith o) rfl rfl)
  have hwork : Function.update (fun _ => some ⟨(), log, Prog.ret o⟩) () none =
      fun _ => (none : Option (Task Unit Call Reply (Outcome Unit))) :=
    funext fun _ => Function.update_self ..
  rwa [hwork] at hdone

end Reaching

/-- The service is created, given an address, deleted, and let go. -/
theorem no_leaked_address_web :
    ∃ c, (system plainEnv web (Harmless web)).Reach (fun w => Sound web w.cluster) c ∧
      c.state.cluster.service web = none ∧ Free "ns/web" c.state.cluster := by
  have hrun : (do
      let x ← Prog.advance answerWorld 8 (OpenELB.reconcile plainEnv web)
        { noService.created with queued := false }
      let y ← Prog.advance answerWorld 8 (OpenELB.reconcile plainEnv web)
        { (x.2.2.doneWith (.ok ())).deleted with queued := false }
      pure ((x.2.1.result, y.2.1.result), (x.2.2.cluster.service web).map Service.finalizers,
        (x.2.2.doneWith (.ok ())).deleted.queued, y.2.2.cluster.service web)) =
      some ((some (.ok ()), some (.err (.api .notFound))), some [finalizerName], true, none) := by
    decide +kernel
  simp only [Option.bind_eq_bind, Option.bind_eq_some_iff, Option.pure_def, Option.some.injEq,
    Prod.mk.injEq] at hrun
  obtain ⟨⟨l, p, w₁⟩, hx, ⟨l₂, p₂, w₂⟩, hy, ⟨ho₁, ho₂⟩, hfin, hq, hgone⟩ := hrun
  obtain ⟨svc, hsvc, hfin⟩ := Option.map_eq_some_iff.mp hfin
  have hinit : Sound web noService.cluster := .of_free (Free.of_unused (by decide +kernel) _)
  have h₀ : (system plainEnv web (Harmless web)).Reach (fun w => Sound web w.cluster)
      ⟨noService, fun _ => none⟩ := .init hinit
  have h₁ := reach_done (reach_begun (reach_created h₀ (by decide +kernel)) (by decide +kernel) hx)
    ho₁
  have h₂ := h₁.step (.env (w₁.doneWith (.ok ())).deleted
    ⟨_, .delete svc hsvc (fun hnil => by rw [hnil] at hfin; cases hfin), rfl⟩)
  have h₃ := reach_done (reach_begun h₂ hq hy) ho₂
  exact ⟨_, h₃, hgone, no_leaked_address h₃ hgone⟩

/-- The service is created and deleted again before it has its finalizer. -/
theorem address_leaked :
    ∃ c, (system plainEnv web fun _ _ => True).Reach (fun w => w = noService) c ∧
      c.task () = none ∧ c.state.queued = false ∧ c.state.cluster.service web = none ∧
      c.state.cluster.records "pool" "192.0.2.1" = ["ns/web"] := by
  have hrun : (do
      let x ← Prog.advance answerWorld 6 (OpenELB.reconcile plainEnv web)
        { noService.created with queued := false }
      let y ← Prog.advance answerWorld 1 x.2.1 x.2.2.deleted
      let z ← Prog.advance answerWorld 1 (OpenELB.reconcile plainEnv web)
        { y.2.2 with queued := false }
      pure ((y.2.1.result, z.2.1.result), (x.2.2.cluster.service web, z.2.2.cluster.service web),
        (z.2.2.doneWith (.ok ())).queued, z.2.2.cluster.records "pool" "192.0.2.1")) =
      some ((some (.err (.api .notFound)), some (.ok ())), (some webService, none), false,
        ["ns/web"]) := by
    decide +kernel
  simp only [Option.bind_eq_bind, Option.bind_eq_some_iff, Option.pure_def, Option.some.injEq,
    Prod.mk.injEq] at hrun
  obtain ⟨⟨l, p, w₁⟩, hx, ⟨l₂, p₂, w₂⟩, hy, ⟨l₃, p₃, w₃⟩, hz, ⟨ho₂, ho₃⟩, ⟨hsvc, hgone⟩, hq, hrec⟩ :=
    hrun
  have h₀ : (system plainEnv web fun _ _ => True).Reach (fun w => w = noService)
      ⟨noService, fun _ => none⟩ := .init rfl
  have h₁ := reach_begun (reach_created h₀ (by decide +kernel)) (by decide +kernel) hx
  have h₂ := h₁.step (.env w₁.deleted ⟨_, .delete webService hsvc fun _ => trivial, rfl⟩)
  have h₃ := reach_done (reach_calls h₂ hy) ho₂
  have h₄ := reach_done (reach_begun h₃ (by simp [World.doneWith]) hz) ho₃
  exact ⟨_, h₄, rfl, hq, hgone, hrec⟩

end OpenELB.Lifecycle
