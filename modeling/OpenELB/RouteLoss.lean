import OpenELB.RecordedRoutes
import OpenELB.Threads

/-! # Routes and the BGP configuration

Two workers of the process on a node share gobgp.  One calls `HandleEIP` for the Eips;
what it has announced it has on record, and does not announce again.  The other
reconciles the BGP configuration, and with every update it stops gobgp and starts it
anew, with an empty table.

So an update of the configuration loses the routes of all addresses on record
(`routes_lost`).  They are kept in every run in which gobgp is not stopped, started or
moved to another rack while it is running and has routes to lose, or is being given
some (`routes_kept`). -/
namespace OpenELB.Bgp
open Go Prog Threads

/-! ## The two workers -/

inductive Worker where
  | eips
  | conf
  deriving DecidableEq

/-- `HandleEIP` for a version of an Eip, or `Reconcile` for the BGP configuration. -/
inductive Work where
  | handleEIP (eip : Eip)
  | reconcile (name : String)

/-- The state of the process, whether `HandleEIP` is running, and what the last call of
each kind has returned. -/
structure Process where
  daemon : Daemon := {}
  handling : Bool := false
  handled : Option (Except Err Unit) := none
  reconciled : Option (Except Err Unit) := none

/-- A call of the reconciler. -/
def ofConf (c : ConfCall) : Prog SysCall SysReply (ConfReply c) := .call (.conf c) .ret

/-- The workers of the process, over a fixed cluster.  The first one is called with BGP
Eips. -/
def system (cl : ClusterView) (env : ConfEnv) (speakers : List String) :
    System Worker Work SysCall SysReply (Except Err Unit) Process where
  body
    | .handleEIP v => (handleEIP speakers v).run.interp atSpeaker
    | .reconcile name => (reconcileBgpConf env name).run.interp ofConf
  exec c w r w' := ∃ d, daemonExec cl c w.daemon r d ∧ w' = { w with daemon := d }
  start
    | .eips, .handleEIP v, w, w' => v.getProtocol = openELBProtocolBGP ∧ w.handling = false ∧
        w' = { w with handling := true }
    | .conf, .reconcile _, w, w' => w' = w
    | _, _, _, _ => False
  done
    | .eips, _, r, w, w' => w' = { w with handling := false, handled := some r }
    | .conf, _, r, w, w' => w' = { w with reconciled := some r }
  env _ _ _ := False

/-- At first nothing is on record, and gobgp is not running. -/
def Fresh (w : Process) : Prop := w = {}

/-- An address on record has an eligible node in a rack. -/
def Needed (cl : ClusterView) (rack : String) (d : Daemon) : Prop :=
  ∃ name e ip svcs, d.manager.pools.get name = some e ∧ e.status.used.get ip = some svcs ∧
    Due cl rack svcs

/-- The condition on a call: gobgp is stopped, started and moved to another rack only
while no `HandleEIP` is running and no address on record needs a route in that rack.
Stopping and starting it does no harm when it is not running. -/
def MayCall (cl : ClusterView) : SysCall → Process → Prop
  | .conf (.bgp (.setRack rack)), w =>
    rack = w.daemon.bgp.rack ∨ w.handling = false ∧ ¬ Needed cl rack w.daemon
  | .conf (.bgp .stopBgp), w =>
    w.daemon.bgp.as = 0 ∨ w.handling = false ∧ ¬ Needed cl w.daemon.bgp.rack w.daemon
  | .conf (.bgp (.startBgp _ _)), w =>
    w.daemon.bgp.as = 0 ∨ w.handling = false ∧ ¬ Needed cl w.daemon.bgp.rack w.daemon
  | _, _ => True

/-- The condition on the versions that `HandleEIP` is called with. -/
def MayStart (cl : ClusterView) : Worker → Work → Process → Prop
  | _, .handleEIP v, w => Orderly cl w.daemon v
  | _, .reconcile _, _ => True

/-! ## One step -/

/-- While no `HandleEIP` is running the process is sound. -/
def Inv (cl : ClusterView) (w : Process) : Prop := w.handling = false → Sound cl w.daemon

/-- What the worker of the Eips sees of the other one. -/
def Sees : Worker → Process → Process → Prop
  | .eips, w, w' => w.handling = true → w'.handling = true ∧ Rely w.daemon w'.daemon
  | .conf, _, _ => True

/-- What the calls of a worker do. -/
def Does (cl : ClusterView) : Worker → (c : SysCall) → SysReply c → Process → Process → Prop
  | .eips, _, _, _, w' => w'.handling = true
  | .conf, _, _, w, w' => w'.handling = w.handling ∧ (Inv cl w → Inv cl w') ∧ Sees .eips w w'

/-- What holds when a worker is done. -/
def Ends (cl : ClusterView) : Worker → Process → Prop
  | .eips, w => Sound cl w.daemon
  | .conf, _ => True

/-- The table is emptied when there is nothing to lose. -/
theorem sound_restart {cl : ClusterView} {d : Daemon} {b : BgpState} (hs : Sound cl d)
    (hrack : b.rack = d.bgp.rack) (hrib : b.rib = Rib.empty)
    (h : d.bgp.as = 0 ∨ ¬ Needed cl d.bgp.rack d) : Sound cl { d with bgp := b } where
  tidy := hs.tidy
  built := by
    show Built cl b.rib
    rw [hrib]
    exact built_empty cl
  covered := by
    intro name e ip svcs hname hip hdue
    replace hdue : Due cl d.bgp.rack svcs := hrack ▸ hdue
    rcases h with h0 | hnot
    · exact absurd h0 (hs.covered name e ip svcs hname hip hdue).1
    · exact absurd ⟨name, e, ip, svcs, hname, hip, hdue⟩ hnot

/-- The calls of the reconciler. -/
def IsConf : SysCall → Prop
  | .manager _ => False
  | .conf c => c.configures

section Steps
variable {cl : ClusterView} {env : ConfEnv} {speakers : List String}

/-- The workers, when the conditions are met. -/
abbrev orderly (cl : ClusterView) (env : ConfEnv) (speakers : List String) :=
  (system cl env speakers).restrict (MayStart cl) (MayCall cl)

/-- Stopping or starting gobgp under the condition. -/
theorem does_restart {w : Process} {b : BgpState} {c : SysCall} {r : SysReply c}
    (hrack : b.rack = w.daemon.bgp.rack) (hrib : b.rib = Rib.empty)
    (hmay : w.daemon.bgp.as = 0 ∨ w.handling = false ∧ ¬ Needed cl w.daemon.bgp.rack w.daemon) :
    Does cl .conf c r w { w with daemon := { w.daemon with bgp := b } } := by
  refine ⟨rfl, fun hinv hidle => ?_, fun hbusy => ⟨hbusy, ?_⟩⟩
  · exact sound_restart (hinv hidle) hrack hrib (hmay.imp_right And.right)
  · refine ⟨rfl, hrack, fun has => ?_, Or.inr hrib⟩
    rcases hmay with h0 | ⟨hidle, -⟩
    · exact absurd h0 has
    · rw [hidle] at hbusy
      cases hbusy

theorem does_nothing {w : Process} {c : SysCall} {r : SysReply c} : Does cl .conf c r w w :=
  ⟨rfl, id, fun hbusy => ⟨hbusy, Rely.refl _⟩⟩

/-- **A call of the reconciler, under the condition**, keeps the process sound, and is one
that the other worker relies on. -/
theorem does_conf {c : SysCall} {r : SysReply c} {w w' : Process} (hc : IsConf c)
    (h : (orderly cl env speakers).exec c w r w') : Does cl .conf c r w w' := by
  obtain ⟨⟨d, he, rfl⟩, hmay⟩ := h
  cases c with
  | manager c => exact hc.elim
  | conf c =>
    cases c with
    | bgp c =>
      obtain ⟨b, ⟨hb, -⟩, rfl⟩ := he
      cases c with
      | setRack rack =>
        obtain rfl := hb
        rcases hmay with rfl | ⟨hidle, hnot⟩
        · exact does_nothing
        · refine ⟨rfl, fun hinv _ => ?_, fun hbusy => ?_⟩
          · have hs := hinv hidle
            refine ⟨hs.tidy, hs.built, fun name e ip svcs hname hip hdue => ?_⟩
            exact absurd ⟨name, e, ip, svcs, hname, hip, hdue⟩ hnot
          · rw [hidle] at hbusy
            cases hbusy
      | stopBgp =>
        rcases hb with ⟨-, rfl⟩ | ⟨-, rfl⟩
        · exact does_restart rfl rfl hmay
        · exact does_nothing
      | startBgp as routerId =>
        rcases hb with ⟨-, rfl⟩ | ⟨-, rfl⟩
        · exact does_restart rfl rfl hmay
        · exact does_nothing
      | _ => exact hc.elim
    | _ =>
      obtain rfl := he
      exact does_nothing

theorem Sees.refl (i : Worker) (w : Process) : Sees i w w := by
  cases i with
  | eips => exact fun h => ⟨h, Rely.refl _⟩
  | conf => trivial

theorem Sees.trans (i : Worker) (a b c : Process) (h : Sees i a b) (h' : Sees i b c) :
    Sees i a c := by
  cases i with
  | eips =>
    intro hbusy
    obtain ⟨hb, hR⟩ := h hbusy
    obtain ⟨hc, hR'⟩ := h' hb
    exact ⟨hc, hR.trans hR'⟩
  | conf => trivial

/-- `HandleEIP` among the rest of the process. -/
theorem safe_handleEIP {v : Eip} {w : Process} (hcl : Addressed cl)
    (hproto : v.getProtocol = openELBProtocolBGP) (hs : Sound cl w.daemon)
    (ho : Orderly cl w.daemon v) (hbusy : w.handling = true) :
    Safe (orderly cl env speakers).exec (Sees .eips)
      (fun _ c r _ => Does cl .eips c r) (fun _ _ => Ends cl .eips) []
      ((handleEIP speakers v).run.interp atSpeaker) w := by
  have hwp := (wp_interp atSpeaker).mpr
    (@wp_handleEIP_sound cl w.daemon v speakers hcl hs ho hproto)
  refine (Wp.safe Process.daemon (fun w => w.handling = true) (all_true _) ?_ ?_ ?_ hwp
    hbusy).mono (fun _ _ _ _ _ _ h => h) fun _ _ _ h => h.1
  · exact fun a b h hI => (h hI).symm
  · rintro c t r t' - ⟨⟨d, he, rfl⟩, -⟩ hI
    exact ⟨he, hI⟩
  · exact fun _ d d' h hR => h.rely hR

/-- `Reconcile` among the rest of the process. -/
theorem safe_reconcile {name : String} {w : Process} :
    Safe (orderly cl env speakers).exec (Sees .conf)
      (fun _ c r _ => Does cl .conf c r) (fun _ _ => Ends cl .conf) []
      ((reconcileBgpConf env name).run.interp ofConf) w := by
  have hall : ((reconcileBgpConf env name).run.interp ofConf).All IsConf :=
    All.interp ofConf (reconcileBgpConf_all env name) fun c hc => ⟨hc, fun _ => trivial⟩
  exact Safe.of_all (J := fun _ _ => True) (fun _ _ _ _ _ => trivial) (fun _ _ _ => trivial)
    (fun _ c r _ w₁ w₂ hc he => ⟨does_conf hc he, trivial⟩) hall

/-- **What each step keeps.** -/
theorem relyGuarantee (hcl : Addressed cl) : (orderly cl env speakers).RelyGuarantee (Inv cl) Sees
    (fun i _ _ c r _ => Does cl i c r) (fun i _ _ _ => Ends cl i) where
  refl := Sees.refl
  trans := Sees.trans
  start := by
    rintro i op w w' hinv ⟨hst, hmay⟩
    cases i with
    | eips =>
      cases op with
      | handleEIP v =>
        obtain ⟨hproto, hidle, rfl⟩ := hst
        have hsafe := @safe_handleEIP cl env speakers v { w with handling := true } hcl hproto
          (hinv hidle) hmay rfl
        refine ⟨fun h => (nomatch h), hsafe, fun j hj => ?_⟩
        cases j with
        | eips => exact absurd rfl hj
        | conf => trivial
      | reconcile name => exact hst.elim
    | conf =>
      cases op with
      | handleEIP v => exact hst.elim
      | reconcile name =>
        obtain rfl := hst
        exact ⟨hinv, safe_reconcile, fun j _ => Sees.refl j _⟩
  call := by
    intro i op log c r q w w' hinv hdoes
    cases i with
    | eips =>
      have hbusy : w'.handling = true := hdoes
      refine ⟨fun hidle => ?_, fun j hj => ?_⟩
      · rw [hbusy] at hidle
        cases hidle
      · cases j with
        | eips => exact absurd rfl hj
        | conf => trivial
    | conf =>
      refine ⟨hdoes.2.1 hinv, fun j hj => ?_⟩
      cases j with
      | eips => exact hdoes.2.2
      | conf => exact absurd rfl hj
  done := by
    intro i op log a w w' hinv hend hd
    cases i with
    | eips =>
      obtain rfl := hd
      refine ⟨fun _ => hend, fun j hj => ?_⟩
      cases j with
      | eips => exact absurd rfl hj
      | conf => trivial
    | conf =>
      obtain rfl := hd
      refine ⟨hinv, fun j hj => ?_⟩
      cases j with
      | eips => exact fun hbusy => ⟨hbusy, Rely.refl _⟩
      | conf => trivial
  env := fun _ _ _ _ h => h.elim

/-- The worker of the Eips is marked while it runs. -/
theorem handling_of_idle {c : Conf Worker Work SysCall SysReply (Except Err Unit) Process}
    (hc : (orderly cl env speakers).Reach Fresh c) (hidle : c.task .eips = none) :
    c.state.handling = false := by
  induction hc with
  | init hw =>
    obtain rfl := hw
    rfl
  | @step c d _ hs ih =>
    have hself : ∀ t, Function.update c.task Worker.eips (some t) .eips ≠ none :=
      fun t h => by rw [Function.update_self] at h; cases h
    cases hs with
    | start i op w hi hst =>
      cases i with
      | eips => exact absurd hidle (hself _)
      | conf =>
        cases op with
        | handleEIP v => exact hst.1.elim
        | reconcile name =>
          obtain rfl := hst.1
          exact ih (by simpa using hidle)
    | call i op log x k r w hi he =>
      obtain ⟨⟨d', -, rfl⟩, -⟩ := he
      cases i with
      | eips => exact absurd hidle (hself _)
      | conf => exact ih (by simpa using hidle)
    | done i op log a w hi hd =>
      cases i with
      | eips =>
        obtain rfl := hd
        rfl
      | conf =>
        obtain rfl := hd
        exact ih (by simpa using hidle)
    | env w he => exact he.elim

theorem sound_empty : Sound cl {} where
  tidy := fun name e h => by
    rw [Map.get_empty] at h
    cases h
  built := built_empty cl
  covered := fun name e ip svcs h => by
    rw [Map.get_empty] at h
    cases h

/-- **Routes are kept**, in every run in which the versions of the Eips can be handled in
order and gobgp is stopped, started and moved to another rack only while nothing is lost
by it: when no `HandleEIP` is running, every address in use by an Eip on record that has
an eligible node has a host route. -/
theorem routes_kept {c : Conf Worker Work SysCall SysReply (Except Err Unit) Process}
    (hcl : Addressed cl) (hc : (orderly cl env speakers).Reach Fresh c)
    (hidle : c.task .eips = none) {name : String} {e : Eip} {ip svcs : String}
    (hname : c.state.daemon.manager.pools.get name = some e)
    (hip : e.status.used.get ip = some svcs) (hdue : Due cl c.state.daemon.bgp.rack svcs) :
    HasRoute c.state.daemon.bgp ip := by
  have hinit : ∀ w, Fresh w → Inv cl w := by
    rintro w rfl _
    exact sound_empty
  have hinv := ((relyGuarantee hcl).safe hinit hc).1
  exact ((hinv (handling_of_idle hc hidle)).covered name e ip svcs hname hip hdue).2

end Steps

/-! ## Runs -/

/-- A node with its internal address. -/
def hostNode : Node where
  name := "n1"
  addresses := [{ type := .internalIP, address := "10.0.0.1" }]

/-- One node, which hosts one service. -/
def oneHost : ClusterView where
  nodes := [hostNode]
  service k := if k = ⟨"ns", "a"⟩ then some (hostedService "a" validName_a) else none
  endpoints k :=
    if k = ⟨"ns", "a"⟩ then some { subsets := [{ addresses := [{ nodeName := some "n1" }] }] }
    else none

theorem uplink_ne_empty : "uplink" ≠ "" := by decide

/-- A BGP Eip with one address in use. -/
def uplinkEip : Eip where
  name := "uplink"
  spec := { address := "192.0.2.0/24", protocol := "bgp" }
  status := { used := Map.ofList [("192.0.2.1", "ns/a")] }
  name_ne := uplink_ne_empty

/-- The BGP configuration. -/
def defaultConf : BgpConf where
  name := "default"
  finalizers := [finalizerName]
  spec := { as := 65000 }

/-- The environment of the process on the node. -/
def hostEnv : ConfEnv := { nodeName := "n1" }

/-- A call of the reconciler that loses nothing, because gobgp is not running and stays
in its rack. -/
def isHarmless : BgpCall → BgpState → Bool
  | .setRack rack, s => rack = s.rack
  | .stopBgp, s => s.as = 0
  | .startBgp _ _, s => s.as = 0
  | _, _ => true

/-- The answers on that node.  With `harmless` only harmless calls are answered. -/
def answerProcess (harmless : Bool) : (c : SysCall) → Process → Option (SysReply c × Process)
  | .manager c, w =>
    (oneHost.run ["192.0.2.1", "n1"] noneFails c w.daemon.manager).map fun x =>
      (x.1, { w with daemon := { w.daemon with manager := x.2 } })
  | .conf (.bgp c), w =>
    if harmless = true ∧ isHarmless c w.daemon.bgp = false then none
    else
      (bgpRun ["10.0.0.1"] [getPathIdentifier "10.0.0.1"] c w.daemon.bgp).map fun x =>
        (x.1, { w with daemon := { w.daemon with bgp := x.2 } })
  | .conf (.getBgpConf _), w => some (.ok defaultConf, w)
  | .conf (.updateBgpConf conf), w => some (.ok conf, w)
  | .conf (.getNode _), w => some (.ok hostNode, w)
  | .conf (.getConfigMap _), w => some (.error .notFound, w)
  | .conf .listBgpPeers, w => some (.ok [], w)
  | .conf (.setPolicies _), w => some (.ok (), w)
  | .conf (.handleBgpPeer _), w => some (.ok (), w)
  | .conf .now, w => some ("", w)

theorem not_failed_of_bgpRun {order : List String} {ids : List UInt32} {c : BgpCall}
    {s s' : BgpState} {r : BgpReply c} (h : bgpRun order ids c s = some (r, s')) :
    ¬ Failed c r := by
  cases c with
  | listPath family ip =>
    simp only [bgpRun] at h
    split at h
    · cases h
      rintro ⟨e, he⟩
      cases he
    · cases h
  | addPath p =>
    cases h
    rintro ⟨e, he⟩
    cases he
  | deletePath p =>
    cases h
    rintro ⟨e, he⟩
    cases he
  | _ => exact id

theorem mayCall_of_isHarmless {cl : ClusterView} {c : BgpCall} {w : Process}
    (h : isHarmless c w.daemon.bgp ≠ false) : MayCall cl (.conf (.bgp c)) w := by
  rw [Bool.ne_false_iff] at h
  cases c with
  | setRack rack => exact Or.inl (of_decide_eq_true h)
  | stopBgp => exact Or.inl (of_decide_eq_true h)
  | startBgp as routerId => exact Or.inl (of_decide_eq_true h)
  | _ => trivial

/-- What is answered may be answered, and with `harmless` under the condition. -/
theorem exec_of_answerProcess {harmless : Bool} (c : SysCall) (w : Process) (r : SysReply c)
    (w' : Process) (h : answerProcess harmless c w = some (r, w')) :
    (system oneHost hostEnv ["bgp"]).exec c w r w' ∧
      (harmless = true → MayCall oneHost c w) := by
  cases c with
  | manager c =>
    obtain ⟨⟨r', m⟩, hx, he⟩ := Option.map_eq_some_iff.mp h
    cases he
    exact ⟨⟨_, ⟨m, ClusterView.exec_of_run noneFails_imp c _ _ _ hx, rfl⟩, rfl⟩, fun _ => trivial⟩
  | conf c =>
    cases c with
    | bgp c =>
      simp only [answerProcess] at h
      split at h
      · cases h
      · rename_i hfree
        obtain ⟨⟨r', b⟩, hx, he⟩ := Option.map_eq_some_iff.mp h
        cases he
        refine ⟨⟨_, ⟨b, ⟨exec_of_bgpRun c _ _ _ hx, not_failed_of_bgpRun hx⟩, rfl⟩, rfl⟩, ?_⟩
        exact fun ht => mayCall_of_isHarmless fun hf => hfree ⟨ht, hf⟩
    | _ =>
      cases h
      exact ⟨⟨_, rfl, rfl⟩, fun _ => trivial⟩

/-- The process after `Reconcile` has returned nil. -/
def reconciledFrom (harmless : Bool) (w : Process) : Process :=
  { ((reconcileBgpConf hostEnv "default").run.interp ofConf).after (answerProcess harmless) w with
    reconciled := some (.ok ()) }

/-- The process after `HandleEIP` has returned nil. -/
def handledFrom (w : Process) : Process :=
  { ((handleEIP ["bgp"] uplinkEip).run.interp atSpeaker).after (answerProcess true)
      { w with handling := true } with
    handling := false
    handled := some (.ok ()) }

theorem addressed_oneHost : Addressed oneHost where
  hop := by
    intro node hnode
    rw [List.mem_singleton.mp hnode]
    exact ⟨"10.0.0.1", rfl⟩
  canonical := by
    rintro n ⟨node, hnode, hn⟩
    rw [List.mem_singleton.mp hnode] at hn
    cases hn
    decide +kernel
  inj := by
    rintro n ⟨node, hnode, hn⟩ n' ⟨node', hnode', hn'⟩ _
    rw [List.mem_singleton.mp hnode] at hn
    rw [List.mem_singleton.mp hnode', hn] at hn'
    cases hn'
    rfl

/-- The service has an eligible node, as the node is in no rack. -/
theorem due_oneHost : Due oneHost "" "ns/a" :=
  ⟨hostNode, by decide +kernel, by decide +kernel⟩

/-- The Eip can be handled in order while nothing is on record. -/
theorem orderly_uplinkEip {d : Daemon} (hd : d.manager.pools = Map.empty) :
    Orderly oneHost d uplinkEip := by
  have hnone : ∀ name e, d.manager.pools.get name ≠ some e := by
    intro name e h
    rw [hd, Map.get_empty] at h
    cases h
  have honly : ∀ ip, (uplinkEip.status.used.get ip).isSome → ip = "192.0.2.1" := by
    intro ip hip
    by_contra hne
    rw [show uplinkEip.status.used.get ip = none from by
      simp [uplinkEip, Map.ofList, Map.get_set, hne]] at hip
    cases hip
  refine ⟨⟨_, rfl⟩, ⟨fun ip hip => ?_, fun ip ip' hip hip' _ => ?_⟩,
    fun name e ip ip' h => absurd h (hnone name e), fun o h => absurd h (hnone _ o),
    fun o h => absurd h (hnone _ o)⟩
  · rw [honly ip hip]
    decide +kernel
  · rw [honly ip hip, honly ip' hip']

/-- The process once the configuration has been created, and the Eip handled. -/
def announced : Process := handledFrom (reconciledFrom true {})

/-- The configuration is created, the Eip handled and the configuration updated; none of
these fails, and the Eip is on record after the second. -/
theorem returns_steps :
    ((reconcileBgpConf hostEnv "default").run.interp ofConf).returns
        (answerProcess true) {} = some (.ok ()) ∧
      ((handleEIP ["bgp"] uplinkEip).run.interp atSpeaker).returns
        (answerProcess true) { reconciledFrom true {} with handling := true } = some (.ok ()) ∧
      ((reconcileBgpConf hostEnv "default").run.interp ofConf).returns
        (answerProcess false) announced = some (.ok ()) ∧
      announced.daemon.manager.pools.get "uplink" = some uplinkEip := by
  refine ⟨?_, ?_, ?_, ?_⟩ <;> decide +kernel

theorem getProtocol_uplinkEip : uplinkEip.getProtocol = openELBProtocolBGP := by decide

theorem used_uplinkEip : uplinkEip.status.used.get "192.0.2.1" = some "ns/a" := by
  simp [uplinkEip, Map.ofList]

/-- The configuration is created, and then the Eip is handled. -/
theorem routes_kept_created : ∃ c, (orderly oneHost hostEnv ["bgp"]).Reach Fresh c ∧
    c.task .eips = none ∧ c.state.daemon.manager.pools.get "uplink" = some uplinkEip ∧
    HasRoute c.state.daemon.bgp "192.0.2.1" := by
  have hans : ∀ c w r w', answerProcess true c w = some (r, w') →
      (orderly oneHost hostEnv ["bgp"]).exec c w r w' :=
    fun c w r w' h => (exec_of_answerProcess c w r w' h).imp_right fun h => h rfl
  have h₀ : (orderly oneHost hostEnv ["bgp"]).Reach Fresh ⟨{}, fun _ => none⟩ := .init rfl
  have hst₁ : (orderly oneHost hostEnv ["bgp"]).start .conf (.reconcile "default") {} {} :=
    ⟨rfl, trivial⟩
  have h₁ : (orderly oneHost hostEnv ["bgp"]).Reach Fresh ⟨reconciledFrom true {}, fun _ => none⟩ :=
    h₀.perform hans rfl hst₁ (eval_of_returns returns_steps.1) rfl
  have hst₂ : (orderly oneHost hostEnv ["bgp"]).start .eips (.handleEIP uplinkEip)
      (reconciledFrom true {}) { reconciledFrom true {} with handling := true } :=
    ⟨⟨getProtocol_uplinkEip, by decide +kernel, rfl⟩, orderly_uplinkEip (by decide +kernel)⟩
  have h₂ : (orderly oneHost hostEnv ["bgp"]).Reach Fresh ⟨announced, fun _ => none⟩ :=
    h₁.perform hans rfl hst₂ (eval_of_returns returns_steps.2.1) rfl
  have hrack : announced.daemon.bgp.rack = "" := by decide +kernel
  refine ⟨_, h₂, rfl, returns_steps.2.2.2, routes_kept addressed_oneHost h₂ rfl returns_steps.2.2.2
    used_uplinkEip ?_⟩
  show Due oneHost announced.daemon.bgp.rack _
  rw [hrack]
  exact due_oneHost

/-- **An update of the configuration loses the routes.**  The configuration is created,
the Eip is handled, and the configuration is reconciled again.  All calls return nil, and
the table is empty. -/
theorem routes_lost : ∃ c, (system oneHost hostEnv ["bgp"]).Reach Fresh c ∧
    (∀ i, c.task i = none) ∧ c.state.handled = some (.ok ()) ∧
    c.state.reconciled = some (.ok ()) ∧
    c.state.daemon.manager.pools.get "uplink" = some uplinkEip ∧
    uplinkEip.getProtocol = openELBProtocolBGP ∧
    uplinkEip.status.used.get "192.0.2.1" = some "ns/a" ∧
    Due oneHost c.state.daemon.bgp.rack "ns/a" ∧
    ¬ HasRoute c.state.daemon.bgp "192.0.2.1" := by
  have hans : ∀ b c w r w', answerProcess b c w = some (r, w') →
      (system oneHost hostEnv ["bgp"]).exec c w r w' :=
    fun b c w r w' h => (exec_of_answerProcess c w r w' h).1
  have h₀ : (system oneHost hostEnv ["bgp"]).Reach Fresh ⟨{}, fun _ => none⟩ := .init rfl
  have hst : ∀ w, (system oneHost hostEnv ["bgp"]).start .conf (.reconcile "default") w w :=
    fun _ => rfl
  have h₁ : (system oneHost hostEnv ["bgp"]).Reach Fresh ⟨reconciledFrom true {}, fun _ => none⟩ :=
    h₀.perform (hans true) rfl (hst _) (eval_of_returns returns_steps.1) rfl
  have hst₂ : (system oneHost hostEnv ["bgp"]).start .eips (.handleEIP uplinkEip)
      (reconciledFrom true {}) { reconciledFrom true {} with handling := true } :=
    ⟨getProtocol_uplinkEip, by decide +kernel, rfl⟩
  have h₂ : (system oneHost hostEnv ["bgp"]).Reach Fresh ⟨announced, fun _ => none⟩ :=
    h₁.perform (hans true) rfl hst₂ (eval_of_returns returns_steps.2.1) rfl
  have h₃ : (system oneHost hostEnv ["bgp"]).Reach Fresh
      ⟨reconciledFrom false announced, fun _ => none⟩ :=
    h₂.perform (hans false) rfl (hst _) (eval_of_returns returns_steps.2.2.1) rfl
  have hrack : (reconciledFrom false announced).daemon.bgp.rack = "" := by decide +kernel
  have hpaths : (reconciledFrom false announced).daemon.bgp.rib.paths = Map.empty := by
    decide +kernel
  refine ⟨_, h₃, fun _ => rfl, by decide +kernel, rfl, by decide +kernel, getProtocol_uplinkEip,
    used_uplinkEip, ?_, ?_⟩
  · show Due oneHost (reconciledFrom false announced).daemon.bgp.rack _
    rw [hrack]
    exact due_oneHost
  · rintro ⟨id, hid⟩
    rw [Rib.get, hpaths, Map.get_empty] at hid
    cases hid

end OpenELB.Bgp
