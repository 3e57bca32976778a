import OpenELB.Evaluation
import OpenELB.ServiceSteps
import OpenELB.Threads

/-! # At most one allocation per service

All services are reconciled at once, each by a worker of its own, and any number
of workers reconcile Eips.  Reads see what is stored, and any call may fail.
Users create, change and delete Eips in between, and change services as they
like.

A worker relies on the others not to add records of its service, and it is the
only one that does.  So what it has found recorded when it listed the Eips is all
there is, and once that is released there is nothing
(`at_most_one_allocation`). -/
namespace OpenELB.Controllers
open Go Code Threads

/-- The workers: one for every name of a service, and any number for Eips. -/
inductive Worker where
  | service (k : NamespacedName)
  | eip (i : Nat)
  deriving DecidableEq

/-- What a worker does. -/
inductive Op where
  | reconcile (k : NamespacedName)
  | reconcileEip (name : String)

/-- The code of an operation. -/
def Op.body (env : Env) : Op → Code Unit
  | .reconcile k => OpenELB.reconcile env k
  | .reconcileEip name => OpenELB.reconcileEip name

/-- A service is reconciled by its own worker only. -/
def Op.RunBy : Op → Worker → Prop
  | .reconcile k, .service k' => k = k'
  | .reconcileEip _, .eip _ => True
  | _, _ => False

/-- Reads see what is stored, and everything may fail. -/
def faults : Faults := { readFail := true, writeFail := true }

/-- The two controllers. -/
def system (env : Env) : System Worker Op Call Reply (Outcome Unit) Cluster where
  body := Op.body env
  exec := exec faults
  start w op s s' := s' = s ∧ op.RunBy w
  done _ _ _ s s' := s' = s
  env _ s s' := EipEdit s s' ∨ s'.eips = s.eips ∧ VStore.Later s.services s'.services

/-! ## Rely and guarantee -/

/-- What a step does that the worker may make. -/
structure Guarantee (w : Worker) (s s' : Cluster) : Prop where
  later : EipsLater s s'
  servicesLater : VStore.Later s.services s'.services
  fewer : ∀ T : NamespacedName, T.Valid → w ≠ .service T → Fewer T.text s s'
  once : ∀ T : NamespacedName, T.Valid → AtMostOnce T.text s → AtMostOnce T.text s'

/-- What a worker relies on: nobody else adds records of its service. -/
structure Rely (w : Worker) (s s' : Cluster) : Prop where
  later : EipsLater s s'
  servicesLater : VStore.Later s.services s'.services
  fewer : ∀ T : NamespacedName, T.Valid → w = .service T → Fewer T.text s s'

theorem Rely.refl (w : Worker) (s : Cluster) : Rely w s s :=
  ⟨.refl _, .refl _, fun _ _ _ => .refl _ _⟩

theorem Rely.trans {w : Worker} {s s' s'' : Cluster} (h : Rely w s s') (h' : Rely w s' s'') :
    Rely w s s'' :=
  ⟨h.later.trans h'.later, h.servicesLater.trans h'.servicesLater,
    fun T hT hw => (h.fewer T hT hw).trans (h'.fewer T hT hw)⟩

/-- Steps of one worker are what the others rely on. -/
theorem Guarantee.rely {w w' : Worker} {s s' : Cluster} (h : Guarantee w s s') (hne : w' ≠ w) :
    Rely w' s s' :=
  ⟨h.later, h.servicesLater, fun T hT hw => h.fewer T hT fun he => hne (hw.trans he.symm)⟩

section Steps
variable {env : Env} {w : Worker} {k : NamespacedName} {s s' : Cluster}
  {log : List (Prog.Event Call Reply)}

/-- A step that adds no records at all. -/
theorem Guarantee.of_fewer (hl : EipsLater s s') (hs : VStore.Later s.services s'.services)
    (h : ∀ T : NamespacedName, T.Valid → Fewer T.text s s') : Guarantee w s s' :=
  ⟨hl, hs, fun T hT _ => h T hT, fun T hT honce => honce.fewer (h T hT)⟩

/-- A sync adds no records. -/
theorem Guarantee.of_sync {c : Call} {r : Reply c} (he : exec faults c s r s')
    (h : EipStep (SyncWrite log) c r s s') : Guarantee w s s' := by
  refine .of_fewer h.later (servicesLater_of_exec he) fun T _ => ?_
  rcases h.cases with h | ⟨e, clone, h, hW⟩
  · exact h.fewer _
  · exact h.fewer fun addr => (hW.kept addr).sublist.count_le _

/-- The IPAM path adds records of its own service only, and not a second one. -/
theorem Guarantee.of_service {c : Call} {r : Reply c}
    (h : ReconcileStep faults k True (fun _ => True) c r s s') : Guarantee (.service k) s s' := by
  refine ⟨h.later, h.servicesLater, fun T hT hw => ?_, fun T hT honce => ?_⟩
  · exact h.fewer hT fun he => hw (he ▸ rfl)
  · by_cases hTk : T = k
    · subst hTk
      exact h.atMostOnce trivial honce
    · exact honce.fewer (h.fewer hT hTk)

/-- The surroundings of the worker of a service. -/
theorem surroundings (hk : k.Valid) :
    Surroundings faults k True (fun _ => True) (Rely (.service k)) where
  refl := Rely.refl _
  trans _ _ _ := Rely.trans
  later _ _ h := h.later
  stable _ _ _ h := h
  services _ _ _ h := h
  stale _ := rfl
  fewer _ _ _ h := h.fewer k hk rfl
  servicesLater _ _ _ h := h.servicesLater

/-- Safety of an operation of a worker. -/
abbrev SafeWork (w : Worker) (log : List (Prog.Event Call Reply)) (p : Code Unit) (s : Cluster) :
    Prop :=
  Prog.Safe (exec faults) (Rely w) (fun _ _ _ _ => Guarantee w) (fun _ _ _ => True) log p s

theorem safe_reconcile (honce : ∀ T : NamespacedName, T.Valid → AtMostOnce T.text s) :
    SafeWork (.service k) [] (OpenELB.reconcile env k) s :=
  (safe_reconcile_steps env surroundings (fun hk _ => honce k hk) fun _ _ _ _ _ => trivial).mono
    (fun _ _ _ _ _ _ => Guarantee.of_service) fun _ _ _ h => h

theorem safe_reconcileEip (name : String) : SafeWork w [] (OpenELB.reconcileEip name) s :=
  ((OpenELB.safe_reconcileEip name).strengthen fun _ _ h => h.later).executed.mono
    (fun _ _ _ _ _ _ h => .of_sync h.2 h.1) fun _ _ _ h => h

end Steps

/-! ## Runs -/

/-- Every service occurs at most once over all records. -/
def Single (s : Cluster) : Prop := ∀ T : NamespacedName, T.Valid → AtMostOnce T.text s

/-- The workers keep to their rely and guarantee. -/
theorem relyGuarantee (env : Env) :
    (system env).RelyGuarantee Single Rely (fun w _ _ _ _ _ => Guarantee w)
      (fun _ _ _ _ _ => True) where
  refl := Rely.refl
  trans _ _ _ _ := Rely.trans
  start := by
    rintro w op s s' hinv ⟨rfl, hop⟩
    refine ⟨hinv, ?_, fun _ _ => Rely.refl _ _⟩
    cases op with
    | reconcileEip name => exact safe_reconcileEip name
    | reconcile k =>
      cases w with
      | service k' =>
        obtain rfl : k = k' := hop
        exact safe_reconcile hinv
      | eip i => exact hop.elim
  call := by
    intro w op log c r q s s' hinv hg
    exact ⟨fun T hT => hg.once T hT (hinv T hT), fun w' hne => hg.rely hne⟩
  done := by
    rintro w op log a s s' hinv - rfl
    exact ⟨hinv, fun _ _ => Rely.refl _ _⟩
  env := by
    rintro tasks s s' hinv henv
    have hkept : StatusKept s s' ∧ EipsLater s s' ∧ VStore.Later s.services s'.services := by
      rcases henv with h | ⟨heips, hsvc⟩
      · refine ⟨h.statusKept, h.later, ?_⟩
        cases h <;> exact .refl _
      · refine ⟨.of_eips_eq heips, ?_, hsvc⟩
        rw [EipsLater, heips]
        exact .refl _
    refine ⟨fun T hT => (hinv T hT).fewer (hkept.1.fewer _), fun w => ?_⟩
    exact ⟨hkept.2.1, hkept.2.2, fun T _ _ => hkept.1.fewer _⟩

/-- **At most one allocation per service.**  In every state the controllers and the
users can reach, whatever fails, each service occurs at most once over the `Used`
maps of all Eips that are not being deleted: in one Eip, at one address, and at
one place in the list. -/
theorem at_most_one_allocation {env : Env}
    {c : Conf Worker Op Call Reply (Outcome Unit) Cluster} (hc : (system env).Reach Single c)
    {k : NamespacedName} (hk : k.Valid) :
    (∀ name addr, (c.state.records name addr).count k.text ≤ 1) ∧
      ∀ name addr name' addr', k.text ∈ c.state.records name addr →
        k.text ∈ c.state.records name' addr' → name = name' ∧ addr = addr' := by
  have hsingle := ((relyGuarantee env).safe (fun _ h => h) hc).1 k hk
  exact ⟨hsingle.count, fun _ _ _ _ => hsingle.unique⟩

/-- The worker of a service has assigned it an address. -/
theorem at_most_one_allocation_web :
    ∃ c, (system plainEnv).Reach Single c ∧ c.state.records "pool" "192.0.2.1" = ["ns/web"] ∧
      ∀ name addr, "ns/web" ∈ c.state.records name addr → name = "pool" ∧ addr = "192.0.2.1" := by
  have hinit : Single (clusterOf [twoAddressesReady] [webService]) :=
    fun T _ => (Free.of_unused (by decide +kernel) T.text).atMostOnce
  have hrun : (do
      let x ← (Op.body plainEnv (.reconcile web)).advance (answer inOrder) 8
        (clusterOf [twoAddressesReady] [webService])
      pure (x.2.2.records "pool" "192.0.2.1")) = some ["ns/web"] := by
    decide +kernel
  simp only [Option.bind_eq_bind, Option.bind_eq_some_iff, Option.pure_def, Option.some.injEq]
    at hrun
  obtain ⟨⟨l, p, s'⟩, hadv, hrec⟩ := hrun
  have hrunBy : (Op.reconcile web).RunBy (.service web) := rfl
  have h0 : (system plainEnv).Reach Single ⟨_, fun _ => none⟩ := .init hinit
  have h1 := h0.launch exec_of_inOrder rfl ⟨rfl, hrunBy⟩ hadv
  refine ⟨_, h1, hrec, fun name addr hmem => ?_⟩
  have hk : web.Valid := ⟨by decide, by decide⟩
  refine (at_most_one_allocation h1 hk).2 _ _ _ _ hmem ?_
  show "ns/web" ∈ s'.records "pool" "192.0.2.1"
  rw [show s'.records "pool" "192.0.2.1" = ["ns/web"] from hrec]
  exact List.mem_singleton.mpr rfl

end OpenELB.Controllers
