import OpenELB.EipSteps
import OpenELB.Evaluation
import OpenELB.Threads

/-! # Many clients of one API server

Any number of clients run `AssignIP`, `ReleaseIP` and `EIPController.Reconcile`
against one server.  Every read may be answered from a cache with an old version,
any call may fail, and users create, change and delete Eips in between; services
come and go as they like.  The server takes a status update only if it carries
the number of the stored version.

Each operation reads one version of an Eip, computes a new status from it and
sends that back.  `Wrote` says how the status sent depends on the version read,
and `Guarantee` that a status update which is carried out found that version
stored.  So the successful writes are a serial run of assignments, releases and
syncs: no allocation is lost and no address is given out twice
(`no_lost_allocation`).

That is about writes.  `AssignIP` makes none if the version it has read already
lists the service, and that version may be out of date: `assignIP_holds_iff` says
when its answer can be relied on. -/
namespace OpenELB.Clients
open Go Code Threads

/-- What a client does. -/
inductive Op where
  | assign (ipFamilies : List IPFamily) (allocate : SvcRecord)
  | release (svc : SvcRecord)
  | reconcileEip (name : String)

/-- The code of an operation; `AssignIP` returns an address, the others nothing. -/
def Op.body : Op → Code (Option String)
  | .assign ipFamilies allocate => do
    let addr ← assignIP ipFamilies allocate
    pure (some addr)
  | .release svc => do
    releaseIP svc
    pure none
  | .reconcileEip name => do
    OpenELB.reconcileEip name
    pure none

/-- Addresses are assigned to services, by their keys. -/
def Op.WellFormed : Op → Prop
  | .assign _ allocate => ∃ k : NamespacedName, k.Valid ∧ allocate.key = k.text
  | _ => True

/-- Reads may be stale, and everything may fail. -/
def faults : Faults := { stale := true, readFail := true, writeFail := true }

/-- The clients, indexed by `ι`. -/
def system (ι : Type) : System ι Op Call Reply (Outcome (Option String)) Cluster where
  body := Op.body
  exec := exec faults
  start _ op s s' := s' = s ∧ op.WellFormed
  done _ _ _ s s' := s' = s
  env _ s s' := EipEdit s s' ∨ s'.eips = s.eips

/-! ## What a client guarantees -/

/-- How the status an operation sends, in `clone`, depends on the version `e` it
has read. -/
inductive Wrote : Op → List (Prog.Event Call Reply) → Eip → Eip → Prop
  | assign {ipFamilies : List IPFamily} {allocate : SvcRecord} {e clone : Eip}
      {addr : String} {log : List (Prog.Event Call Reply)} : ';' ∉ allocate.key.toList →
      Assigned allocate e addr clone → Wrote (.assign ipFamilies allocate) log e clone
  | release {svc : SvcRecord} {keys : List String} {e : Eip} {log : List (Prog.Event Call Reply)} :
      e.status.used.Ranges keys →
      Wrote (.release svc) log e (releaseIPFromEip keys svc.key e)
  | sync {name : String} {e clone : Eip} {log : List (Prog.Event Call Reply)} :
      SyncWrite log e clone → Wrote (.reconcileEip name) log e clone

/-- The first Eip an operation has read. -/
def readEip (log : List (Prog.Event Call Reply)) : Option Eip :=
  log.findSome? fun
    | ⟨.getEip _, .ok v⟩ => some v.obj
    | _ => none

/-- What `AssignIP` returns after its last call: the address it asked for, without
a write, if the version it has read lists the service there, and otherwise an
address at which the service is listed now. -/
def Returned (allocate : SvcRecord) (log : List (Prog.Event Call Reply)) (addr : String)
    (s s' : Cluster) : Prop :=
  ∃ e, readEip log = some e ∧
    (allocate.key ∈ e.listed allocate.ip ∧ addr = allocate.ip ∧ s' = s ∨
      allocate.key ∉ e.listed allocate.ip ∧ allocate.key ∈ s'.listed allocate.eip addr)

/-- After its write `AssignIP` returns the address; if it was asked for none, one
that was listed for nobody. -/
def Finished (allocate : SvcRecord) :
    (c : Call) → Reply c → Prog Call Reply (Outcome (Option String)) → Cluster → Cluster → Prop
  | .updateEipStatus _, .ok _, rest, s, s' =>
    ∃ addr, rest = .ret (.ok (some addr)) ∧ (parseIP allocate.ip = none →
      s.listed allocate.eip addr = [] ∧ s'.listed allocate.eip addr = [allocate.key])
  | _, _, _, _, _ => True

/-- What a call of a client guarantees. -/
structure Guarantee (op : Op) (log : List (Prog.Event Call Reply)) (c : Call) (r : Reply c)
    (rest : Prog Call Reply (Outcome (Option String))) (s s' : Cluster) : Prop where
  step : EipStep (Wrote op log) c r s s'
  finished : ∀ ipFamilies allocate, op = .assign ipFamilies allocate → Finished allocate c r rest s s'
  returned : ∀ ipFamilies allocate addr, op = .assign ipFamilies allocate →
    rest = .ret (.ok (some addr)) → Returned allocate log addr s s'

/-! ## The operations keep to it -/

section Operations
variable {s s' : Cluster} {log : List (Prog.Event Call Reply)}

/-- Safety of an operation of a client, whatever it returns. -/
abbrev SafeOp (op : Op) (log : List (Prog.Event Call Reply)) (p : Code (Option String))
    (s : Cluster) : Prop :=
  Prog.Safe (exec faults) EipsLater (Guarantee op) (fun _ _ _ => True) log p s

section Assign
variable {ipFamilies : List IPFamily} {allocate : SvcRecord}

/-- A call of `AssignIP` that is no status update, after which it does not return an
address. -/
theorem guarantee_of_exec {c : Call} {r : Reply c}
    {rest : Prog Call Reply (Outcome (Option String))} (hc : ∀ v, c ≠ .updateEipStatus v)
    (h : exec faults c s r s') (hrest : ∀ addr, rest ≠ .ret (.ok (some addr))) :
    Guarantee (.assign ipFamilies allocate) log c r rest s s' := by
  refine ⟨.of_exec hc h, ?_, fun _ _ addr _ he => absurd he (hrest addr)⟩
  intro _ _ _
  cases c with
  | updateEipStatus v => exact absurd rfl (hc v)
  | _ => trivial

/-- `AssignIP` fails after a call. -/
theorem safe_call_fail {c : Call} {r : Reply c} {e : Err} (hc : ∀ v, c ≠ .updateEipStatus v)
    (h : exec faults c s r s') :
    Guarantee (.assign ipFamilies allocate) log c r (fail e : Code (Option String)) s s' ∧
      SafeOp (.assign ipFamilies allocate) (log ++ [⟨c, r⟩]) (fail e) s' :=
  ⟨guarantee_of_exec hc h (fun _ he => by cases he), safe_fail fun _ _ => trivial⟩

/-- `AssignIP` panics after a call. -/
theorem safe_call_crash {c : Call} {r : Reply c} (hc : ∀ v, c ≠ .updateEipStatus v)
    (h : exec faults c s r s') :
    Guarantee (.assign ipFamilies allocate) log c r (crash : Code (Option String)) s s' ∧
      SafeOp (.assign ipFamilies allocate) (log ++ [⟨c, r⟩]) crash s' :=
  ⟨guarantee_of_exec hc h (fun _ he => by cases he), safe_crash fun _ _ => trivial⟩

/-- The write of `AssignIP`. -/
theorem guarantee_assign {v : Version Eip} {keys : List String} {addr : String} {clone : Eip}
    {r : Reply (.updateEipStatus ⟨v.rv, clone⟩)} (hkey : ';' ∉ allocate.key.toList)
    (hname : v.obj.name = allocate.eip) (hv : v ∈ s.eips.log)
    (hkeys : v.obj.status.used.Ranges keys)
    (hassign : assignIPFromEip keys allocate v.obj = .ok (addr, clone)) (hne : clone ≠ v.obj)
    (hlog : readEip log = some v.obj) (he : exec faults (.updateEipStatus ⟨v.rv, clone⟩) s r s') :
    Guarantee (.assign ipFamilies allocate) log (.updateEipStatus ⟨v.rv, clone⟩) r
      (do let _ ← must r; pure (some addr) : Code (Option String)) s s' := by
  obtain ⟨-, -, hassigned⟩ := assignIPFromEip_ok hassign
  have hclone : clone.name = v.obj.name := by rw [hassigned.sameButUsed]
  refine ⟨.of_write hv hclone (.assign hkey hassigned) he, ?_, ?_⟩
  · intro f a hop
    cases hop
    rcases r with e | w
    · trivial
    · refine ⟨addr, rfl, fun hparse => ?_⟩
      have hbefore : v.obj.listed addr = [] :=
        Eip.listed_of_get_none (hassigned.get_eq_none hparse hne)
      rcases exec_updateEipStatus hv hclone he with ⟨-, e, h⟩ | hw
      · cases h
      · rw [← hname, hw.listed_before, hw.listed_self]
        rcases hassigned.listed_eq hkey with ⟨h, -⟩ | hl
        · exact absurd h hne
        · exact ⟨hbefore, by rw [hl, if_pos rfl, hbefore]; rfl⟩
  · intro f a addr' hop hrest
    cases hop
    -- only a write that was answered returns an address, and it is the one assigned
    rcases r with e | w
    · cases hrest
    · cases hrest
      refine ⟨v.obj, hlog, .inr ⟨notMem_listed_of_assignIPFromEip hkeys hassign hne, ?_⟩⟩
      rcases exec_updateEipStatus hv hclone he with ⟨-, e, h⟩ | hw
      · cases h
      · rw [← hname, hw.listed_self]
        exact hassigned.mem_listed hkey

/-- `AssignIP`, once it has a version of the Eip. -/
theorem safe_assignFrom {v : Version Eip} (hkey : ';' ∉ allocate.key.toList)
    (hname : v.obj.name = allocate.eip) (hv : v ∈ s.eips.log) :
    SafeOp (.assign ipFamilies allocate) [⟨.getEip allocate.eip, .ok v⟩]
      (do let addr ← assignFrom allocate v; pure (some addr)) s := by
  rw [assignFrom, bind_assoc]
  refine safe_api fun s₁ keys s₂ hR he => ?_
  obtain ⟨rfl, hkeys⟩ := he
  have hv₁ : v ∈ s₂.eips.log := hR v hv
  cases hassign : assignIPFromEip keys allocate v.obj with
  | panic => exact safe_call_crash (by simp) ⟨rfl, hkeys⟩
  | err e => exact safe_call_fail (by simp) ⟨rfl, hkeys⟩
  | ok p =>
    obtain ⟨addr, clone⟩ := p
    by_cases hne : clone = v.obj
    · -- the version read lists the service already: no write
      simp only [hne, ne_eq, not_true_eq_false, if_false, pure_bind]
      refine ⟨⟨.of_exec (f := faults) (by simp) ⟨rfl, hkeys⟩, fun _ _ _ => trivial, ?_⟩,
        safe_pure fun _ _ => trivial⟩
      intro f a addr' hop hrest
      cases hop
      cases hrest
      have hassigned := (assignIPFromEip_ok hassign).2.2
      rw [hne] at hassigned
      obtain ⟨rfl, hmem⟩ := hassigned.of_eq hkey
      exact ⟨v.obj, rfl, .inl ⟨hmem, rfl, rfl⟩⟩
    · simp only [hne, ne_eq, not_false_eq_true, if_true, Code.bind_assoc, Code.pure_bind]
      refine ⟨guarantee_of_exec (by simp) ⟨rfl, hkeys⟩ (fun _ h => by cases h), ?_⟩
      refine safe_api fun s₃ r s₄ hR' he' => ⟨?_, ?_⟩
      · exact guarantee_assign hkey hname (hR' v hv₁) hkeys hassign hne rfl he'
      · cases r <;> exact fun _ _ => trivial

theorem safe_assign (hkey : ';' ∉ allocate.key.toList) :
    SafeOp (.assign ipFamilies allocate) [] (Op.body (.assign ipFamilies allocate)) s := by
  rw [Op.body, assignIP, bind_assoc]
  refine safe_api fun s₁ r s₂ _ he => ?_
  rcases r with e | v
  · exact safe_call_fail (by simp) he
  · obtain ⟨hv, hname⟩ := he.2.mem_log
    rw [← he.1] at hv
    simp only [must_ok, pure_bind]
    cases hrange : IpRange.parseRange v.obj.spec.address with
    | error msg => exact safe_call_fail (by simp) he
    | ok range =>
      cases range with
      | none => exact safe_call_crash (by simp) he
      | some range =>
        by_cases hfam : isSameFamily range.family ipFamilies = true
        · simp only [hfam, if_true]
          exact ⟨guarantee_of_exec (by simp) he (fun _ h => by cases h),
            safe_assignFrom hkey hname hv⟩
        · simp only [hfam]
          exact safe_call_fail (by simp) he

end Assign

/-- An operation that does not assign keeps to its guarantee if its writes are as
they should be. -/
theorem safe_returnless {op : Op} {p : Code Unit} (hop : ∀ f a, op ≠ .assign f a)
    (hp : SafeSteps faults (Wrote op) (fun _ _ _ => True) log p s) :
    SafeOp op log (do p; pure none) s := by
  have hsteps : SafeSteps faults (Wrote op) (fun _ _ _ => True) log
      (do p; pure none : Code (Option String)) s := by
    refine safe_bind EipsLater.refl (hp.mono (fun _ _ _ _ _ _ h => h) ?_)
    intro log o s _
    cases o <;> exact fun _ _ => trivial
  refine hsteps.mono (fun log c r q s s' h => ⟨h, ?_, ?_⟩) (fun _ _ _ h => h)
  · exact fun f a he => absurd he (hop f a)
  · exact fun f a _ he => absurd he (hop f a)

/-- `ReleaseIP` writes what a release makes of the version it has read. -/
theorem safe_release (svc : SvcRecord) :
    SafeSteps faults (Wrote (.release svc)) (fun _ _ _ => True) [] (releaseIP svc) s := by
  rw [releaseIP]
  refine safe_api fun s₁ r s₂ _ he => ⟨.of_exec (by simp) he, ?_⟩
  rcases r with (_ | _ | msg) | v
  · exact safe_pure fun _ _ => trivial
  · exact safe_fail fun _ _ => trivial
  · exact safe_fail fun _ _ => trivial
  · obtain ⟨hv, -⟩ := he.2.mem_log
    rw [← he.1] at hv
    refine safe_api fun s₃ keys s₄ hR he' => ⟨.of_exec (by simp) he', ?_⟩
    obtain ⟨rfl, hkeys⟩ := he'
    dsimp only
    split
    · refine safe_statusUpdate (hR v hv) ?_ (.release hkeys)
      rw [sameButUsed_releaseIPFromEip keys svc.key v.obj]
    · exact safe_pure fun _ _ => trivial

/-- **Every operation is safe from any state.** -/
theorem safe_body {op : Op} (hop : op.WellFormed) : SafeOp op [] op.body s := by
  cases op with
  | assign ipFamilies allocate =>
    obtain ⟨k, hk, hkey⟩ := hop
    exact safe_assign (hkey ▸ hk.semicolon_notMem)
  | release svc => exact safe_returnless (by simp) (safe_release svc)
  | reconcileEip name =>
    refine safe_returnless (by simp) ((safe_reconcileEip name).mono ?_ fun _ _ _ h => h)
    exact fun _ _ _ _ _ _ h => h.mono fun _ _ => .sync

end Operations

/-! ## Runs of the system -/

/-- The clients keep to their rely and guarantee. -/
theorem relyGuarantee (ι : Type) [DecidableEq ι] :
    (system ι).RelyGuarantee (fun _ => True) (fun _ => EipsLater) (fun _ => Guarantee)
      (fun _ _ _ _ _ => True) where
  refl _ := EipsLater.refl
  trans _ _ _ _ := EipsLater.trans
  start := by
    rintro i op s s' - ⟨rfl, hop⟩
    exact ⟨trivial, safe_body hop, fun _ _ => EipsLater.refl _⟩
  call _ _ _ _ _ _ _ _ _ hg := ⟨trivial, fun _ _ => hg.step.later⟩
  done := by
    rintro i op log a s s' - - rfl
    exact ⟨trivial, fun _ _ => EipsLater.refl _⟩
  env := by
    rintro tasks s s' - (h | h)
    · exact ⟨trivial, fun _ => h.later⟩
    · exact ⟨trivial, fun _ => by rw [EipsLater, h]; exact .refl _⟩

section Writes
variable {op : Op} {log : List (Prog.Event Call Reply)} {e clone : Eip} {T : NamespacedName}

/-- The operation is about the service: it assigns to it or releases it, or it has
found it missing. -/
def Op.Concerns : Op → List (Prog.Event Call Reply) → NamespacedName → Prop
  | .assign _ allocate, _, T => allocate.key = T.text
  | .release svc, _, T => svc.key = T.text
  | .reconcileEip _, log, T => ReportedMissing log T

/-- The operation may take the service off a list: it releases it, or it has found
it missing. -/
def Op.MayDrop : Op → List (Prog.Event Call Reply) → NamespacedName → Prop
  | .assign _ _, _, _ => False
  | .release svc, _, T => svc.key = T.text
  | .reconcileEip _, log, T => ReportedMissing log T

/-- A status sent by an operation lists a service it is not about as before. -/
theorem Wrote.count (h : Wrote op log e clone) (hT : T.Valid) (hop : ¬ op.Concerns log T)
    (addr : String) : (clone.listed addr).count T.text = (e.listed addr).count T.text := by
  cases h with
  | @assign _ allocate _ _ _ _ hkey hassigned => exact hassigned.count hkey hop addr
  | release hkeys => exact count_listed_releaseIPFromEip hop NamespacedName.Valid.text_ne_empty hkeys addr
  | sync hs => exact (hs.kept addr).count T hT hop

/-- A status sent by an operation still lists a service that it may not drop. -/
theorem Wrote.mem (h : Wrote op log e clone) (hT : T.Valid) (hop : ¬ op.MayDrop log T)
    {addr : String} (hmem : T.text ∈ e.listed addr) : T.text ∈ clone.listed addr := by
  by_cases hc : op.Concerns log T
  · cases h with
    | assign hkey hassigned =>
      rcases hassigned.listed_eq hkey with ⟨rfl, -⟩ | hl
      · exact hmem
      · rw [hl]
        split
        · exact List.mem_append_left _ hmem
        · exact hmem
    | release _ => exact absurd hc hop
    | sync _ => exact absurd hc hop
  · rw [← List.count_pos_iff, h.count hT hc, List.count_pos_iff]
    exact hmem

end Writes

section Steps
variable {ι : Type} [DecidableEq ι] {init : Cluster → Prop}

/-- The records of the service in the Eip may get lost in the step from `c` to `d`:
the Eip goes away, or an operation that releases the service, or that has found
it missing, updates its status. -/
def Forgets (name : String) (T : NamespacedName)
    (c d : Conf ι Op Call Reply (Outcome (Option String)) Cluster) : Prop :=
  d.state.eip name = none ∨
    ∃ i op log v k r, c.task i = some ⟨op, log, .call (.updateEipStatus v) k⟩ ∧
      d.task i = some ⟨op, log ++ [⟨.updateEipStatus v, r⟩], k r⟩ ∧
      v.obj.name = name ∧ op.MayDrop log T

/-- A step that does not forget a service keeps it on its lists. -/
theorem mem_listed_step {c d : Conf ι Op Call Reply (Outcome (Option String)) Cluster}
    (hc : (system ι).Reach init c) (hs : (system ι).Step c d) {name addr : String}
    {T : NamespacedName} (hT : T.Valid) (hforget : ¬ Forgets name T c d)
    (hmem : T.text ∈ c.state.listed name addr) : T.text ∈ d.state.listed name addr := by
  obtain ⟨hex, hforget⟩ := not_or.mp hforget
  have hgood := (relyGuarantee ι).safe (fun _ _ => trivial) hc
  -- steps that keep every status keep the lists of an Eip that is still there
  have hkept : StatusKept c.state d.state → T.text ∈ d.state.listed name addr :=
    fun hk => by rwa [hk.listed hex]
  cases hs with
  | start i op s _ hst =>
    obtain ⟨rfl, -⟩ := hst
    exact hmem
  | done i op log a s _ hd =>
    cases hd
    exact hmem
  | env s henv =>
    rcases henv with h | h
    · exact hkept h.statusKept
    · exact hkept (.of_eips_eq h)
  | call i op log x k r s hi he =>
    have hg := (relyGuarantee ι).call_guarantee hgood hi he
    cases x with
    | updateEipStatus v =>
      rcases hg.step.effect with ⟨rfl, -⟩ | ⟨e, hw, hwrote⟩
      · exact hmem
      · by_cases hn : name = e.name
        · subst hn
          have hmay : ¬ op.MayDrop log T := fun hd =>
            hforget ⟨i, op, log, v, k, r, hi, Function.update_self .., hw.name, hd⟩
          rw [hw.listed_before] at hmem
          rw [hw.listed_self]
          exact hwrote.mem hT hmay hmem
        · rwa [hw.listed_ne hn]
    | _ => exact hkept hg.step.effect

/-- **No allocation is lost and no address is given out twice.**  In every state
that any number of clients can reach, with stale reads and with failures:

* when an `AssignIP` without a requested address makes its write, the address it
  returns is in the stored `Used` listed for nobody, and afterwards for its
  service;
* a status write leaves every record of a service that the operation is not
  about as it was;
* and from there on a service stays on its list through every further run, up to
  a write by a `ReleaseIP` of that service, a write by a sync that has found it
  missing, or the end of the Eip. -/
theorem no_lost_allocation {c : Conf ι Op Call Reply (Outcome (Option String)) Cluster}
    (hc : (system ι).Reach init c) :
    (∀ i ipFamilies allocate log v k w s',
      c.task i = some ⟨.assign ipFamilies allocate, log, .call (.updateEipStatus v) k⟩ →
      allocate.ip = "" → exec faults (.updateEipStatus v) c.state (.ok w) s' →
      ∃ addr, k (.ok w) = .ret (.ok (some addr)) ∧ c.state.listed allocate.eip addr = [] ∧
        s'.listed allocate.eip addr = [allocate.key]) ∧
    (∀ i op log v k r s' T name addr,
      c.task i = some ⟨op, log, .call (.updateEipStatus v) k⟩ →
      exec faults (.updateEipStatus v) c.state r s' → NamespacedName.Valid T →
      ¬ op.Concerns log T →
      (s'.listed name addr).count T.text = (c.state.listed name addr).count T.text) ∧
    (∀ d T name addr, NamespacedName.Valid T →
      Relation.ReflTransGen (fun x y => (system ι).Step x y ∧ ¬ Forgets name T x y) c d →
      T.text ∈ c.state.listed name addr → T.text ∈ d.state.listed name addr) := by
  have hgood := (relyGuarantee ι).safe (fun _ _ => trivial) hc
  refine ⟨?_, ?_, ?_⟩
  · intro i ipFamilies allocate log v k w s' hi hip he
    obtain ⟨addr, hret, hfree⟩ :=
      ((relyGuarantee ι).call_guarantee hgood hi he).finished _ _ rfl
    exact ⟨addr, hret, hfree (by rw [hip]; decide)⟩
  · intro i op log v k r s' T name addr hi he hT hop
    have hg := (relyGuarantee ι).call_guarantee hgood hi he
    rcases hg.step.effect with ⟨rfl, -⟩ | ⟨e, hw, hwrote⟩
    · rfl
    · by_cases hn : name = e.name
      · subst hn
        rw [hw.listed_self, hw.listed_before]
        exact hwrote.count hT hop addr
      · rw [hw.listed_ne hn]
  · intro d T name addr hT hrun hmem
    suffices h : (system ι).Reach init d ∧ T.text ∈ d.state.listed name addr from h.2
    induction hrun with
    | refl => exact ⟨hc, hmem⟩
    | tail _ hs ih => exact ⟨.step ih.1 hs.1, mem_listed_step ih.1 hs.1 hT hs.2 ih.2⟩

/-- A cluster with one pool of two free addresses. -/
def onePool : Cluster := clusterOf [twoAddressesReady] []

/-- Two clients have read the same version, and are about to write. -/
theorem no_lost_allocation_twoClients :
    ∃ c v k log w s' addr, (system Bool).Reach (· = onePool) c ∧
      (c.task false).isSome ∧
      c.task true = some ⟨.assign [.ipv4] ⟨"ns/b", "", "pool"⟩, log, .call (.updateEipStatus v) k⟩ ∧
      exec faults (.updateEipStatus v) c.state (.ok w) s' ∧
      c.state.listed "pool" addr = [] ∧ s'.listed "pool" addr = ["ns/b"] := by
  let opA : Op := .assign [.ipv4] ⟨"ns/a", "", "pool"⟩
  let opB : Op := .assign [.ipv4] ⟨"ns/b", "", "pool"⟩
  let v : Version Eip := ⟨1, twoAddressesReady.addEntry "192.0.2.1" "ns/b"⟩
  have hA : opA.WellFormed := ⟨⟨"ns", "a"⟩, ⟨by decide, by decide⟩, rfl⟩
  have hB : opB.WellFormed := ⟨⟨"ns", "b"⟩, ⟨by decide, by decide⟩, rfl⟩
  -- two calls of the first client, two of the second, and the answer to its third
  have hrun : (do
      let x ← opA.body.advance (answer inOrder) 2 onePool
      let y ← opB.body.advance (answer inOrder) 2 x.2.2
      let z ← answer inOrder (.updateEipStatus v) y.2.2
      pure (y.2.1.nextCall, z.1.isOk)) = some (some (.updateEipStatus v), true) := by
    decide +kernel
  simp only [Option.bind_eq_bind, Option.bind_eq_some_iff, Option.pure_def, Option.some.injEq,
    Prod.mk.injEq] at hrun
  obtain ⟨⟨lA, pA, sA⟩, hadvA, ⟨lB, pB, sB⟩, hadvB, ⟨r, s'⟩, hr, hnext, hok⟩ := hrun
  obtain ⟨k, rfl⟩ := Prog.exists_of_nextCall hnext
  have h0 : (system Bool).Reach (· = onePool) ⟨onePool, fun _ => none⟩ := .init rfl
  have h1 := h0.launch exec_of_inOrder (i := false) rfl ⟨rfl, hA⟩ hadvA
  have h2 := h1.launch exec_of_inOrder (i := true) rfl ⟨rfl, hB⟩ hadvB
  rcases r with e | w
  · cases hok
  · have hexec := exec_of_inOrder (f := faults) _ _ _ _ hr
    obtain ⟨addr, -, hfree, hheld⟩ :=
      (no_lost_allocation h2).1 true _ _ lB v k w s' rfl rfl hexec
    exact ⟨_, v, k, lB, w, s', addr, h2, rfl, rfl, hexec, hfree, hheld⟩

/-- **When the answer of `AssignIP` can be relied on.**  When it returns an address,
the stored Eip lists the service there, unless the version it has read listed the
service at the requested address already, and the stored one does not. -/
theorem assignIP_holds_iff {c : Conf ι Op Call Reply (Outcome (Option String)) Cluster}
    (hc : (system ι).Reach init c) {i : ι} {ipFamilies : List IPFamily} {allocate : SvcRecord}
    {log : List (Prog.Event Call Reply)} {x : Call}
    {k : Reply x → Prog Call Reply (Outcome (Option String))} {r : Reply x} {s' : Cluster}
    {addr : String} (hi : c.task i = some ⟨.assign ipFamilies allocate, log, .call x k⟩)
    (he : exec faults x c.state r s') (hret : k r = .ret (.ok (some addr))) :
    allocate.key ∈ s'.listed allocate.eip addr ↔
      ¬ ∃ e, readEip log = some e ∧ allocate.key ∈ e.listed allocate.ip ∧
        allocate.key ∉ c.state.listed allocate.eip allocate.ip := by
  have hgood := (relyGuarantee ι).safe (fun _ _ => trivial) hc
  have hg := (relyGuarantee ι).call_guarantee hgood hi he
  obtain ⟨e, hread, ⟨hmem, rfl, rfl⟩ | ⟨hmem, hlisted⟩⟩ := hg.returned _ _ addr rfl hret
  · constructor
    · rintro hin ⟨e', -, -, hout⟩
      exact hout hin
    · intro hnot
      by_contra hout
      exact hnot ⟨e, hread, hmem, hout⟩
  · refine iff_of_true hlisted ?_
    rintro ⟨e', hread', hmem', -⟩
    rw [hread] at hread'
    cases hread'
    exact hmem hmem'

/-- A free address is asked for: nothing is read that lists the service. -/
theorem assignIP_holds_iff_free :
    ∃ c log v k r s', (system Unit).Reach (· = onePool) c ∧
      c.task () = some ⟨.assign [.ipv4] ⟨"ns/a", "192.0.2.2", "pool"⟩, log,
        .call (.updateEipStatus v) k⟩ ∧
      exec faults (.updateEipStatus v) c.state r s' ∧
      k r = .ret (.ok (some "192.0.2.2")) ∧ "ns/a" ∈ s'.listed "pool" "192.0.2.2" := by
  let op : Op := .assign [.ipv4] ⟨"ns/a", "192.0.2.2", "pool"⟩
  let v : Version Eip := ⟨1, twoAddressesReady.addEntry "192.0.2.2" "ns/a"⟩
  have hop : op.WellFormed := ⟨⟨"ns", "a"⟩, ⟨by decide, by decide⟩, rfl⟩
  have hrun : (do
      let x ← op.body.advance (answer inOrder) 2 onePool
      let y ← x.2.1.advance (answer inOrder) 1 x.2.2
      pure ((readEip x.1, x.2.1.nextCall), y.2.1.result)) =
      some ((some twoAddressesReady, some (.updateEipStatus v)), some (.ok (some "192.0.2.2"))) := by
    decide +kernel
  simp only [Option.bind_eq_bind, Option.bind_eq_some_iff, Option.pure_def, Option.some.injEq,
    Prod.mk.injEq] at hrun
  obtain ⟨⟨l, p, s⟩, hadv, ⟨l', q, s'⟩, hone, ⟨hread, hnext⟩, hresult⟩ := hrun
  obtain ⟨k, rfl⟩ := Prog.exists_of_nextCall hnext
  obtain ⟨r, hr, rfl⟩ := Prog.advance_one hone
  have hret := Prog.eq_ret_of_result hresult
  have hexec := exec_of_inOrder (f := faults) _ _ _ _ hr
  have h0 : (system Unit).Reach (· = onePool) ⟨onePool, fun _ => none⟩ := .init rfl
  have h1 := h0.launch exec_of_inOrder (i := ()) rfl ⟨rfl, hop⟩ hadv
  refine ⟨_, l, v, k, r, s', h1, rfl, hexec, hret, ?_⟩
  refine (assignIP_holds_iff h1 (i := ()) rfl hexec hret).mpr ?_
  rintro ⟨e, he, hmem, -⟩
  obtain rfl : twoAddressesReady = e := Option.some.inj (hread.symm.trans he)
  revert hmem
  decide +kernel

/-- The pool with an address held by a service. -/
def heldPool : Cluster := clusterOf [twoAddressesReady.addEntry "192.0.2.1" "ns/a"] []

/-- Reads of the pool are answered with its first version. -/
def fromCache : Oracle :=
  { inOrder with
    cache := fun _ => some ⟨1, twoAddressesReady.addEntry "192.0.2.1" "ns/a"⟩ }

/-- A service is released and its address assigned again, as in one `Reconcile`.  The
second read is answered with the version before the release, which lists the
service: `AssignIP` returns the address, which nobody holds. -/
theorem assignIP_not_held :
    ∃ l s', Prog.Run (exec faults) heldPool (do
        releaseIP ⟨"ns/a", "192.0.2.1", "pool"⟩
        assignIP [.ipv4] ⟨"ns/a", "192.0.2.1", "pool"⟩ : Code String) l (.ok "192.0.2.1") s' ∧
      s'.listed "pool" "192.0.2.1" = [] := by
  refine run_of_eval (g := fun s => s.listed "pool" "192.0.2.1")
    (exec_of_answer (o := fromCache) (.inr rfl) (.inl fun _ => rfl)) ?_
  decide +kernel

end Steps

end OpenELB.Clients
