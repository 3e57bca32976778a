import OpenELB.BgpDaemon

/-! # Routes for what is on record

`HandleEIP`, with the BGP speaker in the place of its calls: what it does to the routes
of the addresses that the manager has on record.

The state is `Sound` if every address of a recorded Eip that has an eligible node has a
route.  `HandleEIP` keeps it so, whatever it returns, if the version it is called with is
`Orderly`: its addresses are not listed elsewhere, an address it takes over does not get
its first eligible node with it, and it can be carried out in full when it drops an
address (`wp_handleEIP_sound`). -/
namespace OpenELB.Bgp
open Go Prog

/-! ## Nodes of a service -/

theorem mem_of_get_addNodes {nodes : List Node} {m : Map String Node} {k : String} {node : Node}
    (h : (addNodes nodes m).get k = some node) : node ∈ nodes ∨ m.get k = some node := by
  induction nodes generalizing m with
  | nil => exact Or.inr h
  | cons n nodes ih =>
    rcases ih h with hmem | hget
    · exact Or.inl (List.mem_cons_of_mem n hmem)
    · rw [Map.get_set] at hget
      split at hget
      · cases hget
        exact Or.inl List.mem_cons_self
      · exact Or.inr hget

section Cluster
variable {cl : ClusterView}

/-- The nodes that are gathered are nodes of the cluster. -/
theorem wp_gatherNodes {strs : List String} {m : Map String Node}
    (hm : ∀ k node, m.get k = some node → node ∈ cl.nodes) :
    Wp (fun c (_ : Unit) r _ => r = cl.answer c)
      (either (fun m' _ => ∀ k node, m'.get k = some node → node ∈ cl.nodes) fun _ _ => True)
      (gatherNodes cl.nodes strs m).run () := by
  have hadd : ∀ (l : List Node) (m' : Map String Node), (∀ n ∈ l, n ∈ cl.nodes) →
      (∀ k node, m'.get k = some node → node ∈ cl.nodes) →
      ∀ k node, (addNodes l m').get k = some node → node ∈ cl.nodes := by
    intro l m' hl hm' k node hget
    rcases mem_of_get_addNodes hget with h | h
    · exact hl node h
    · exact hm' k node h
  induction strs generalizing m with
  | nil => exact hm
  | cons str strs ih =>
    rw [gatherNodes]
    split
    · rename_i ns name _
      rintro r _ rfl
      refine wp_except_bind.mpr ?_
      show either _ _ ((ClusterView.found (cl.service ⟨ns, name⟩)).mapError Err.api) _
      cases cl.service ⟨ns, name⟩ with
      | none => trivial
      | some svc =>
        rintro r _ rfl
        refine wp_except_bind.mpr ?_
        show either _ _ ((ClusterView.found (cl.endpoints svc.key)).mapError Err.api) _
        cases cl.endpoints svc.key with
        | none => trivial
        | some endpoints =>
          show Wp _ _ (if svc.externalTrafficPolicy = .onlyLocal then _ else _ :
            SpeakerCode _).run _
          split
          · split
            · exact ih hm
            · exact ih (hadd _ m (fun n hn => (List.mem_filter.mp hn).1) hm)
          · exact ih (hadd _ m (fun n hn => hn) hm)
    · exact ih hm

theorem mem_nodes_of_mem_targets {svcs : String} {node : Node} (h : node ∈ cl.targets svcs) :
    node ∈ cl.nodes := by
  have hwp : Wp (fun c (_ : Unit) r _ => r = cl.answer c)
      (either (fun m' _ => ∀ k node, m'.get k = some node → node ∈ cl.nodes) fun _ _ => True)
      (serviceNodeSets svcs).run () := by
    rintro r _ rfl
    refine wp_gatherNodes fun k node hk => ?_
    rw [Map.get_empty] at hk
    cases hk
  have hset := hwp.answered fun c => rfl
  rw [ClusterView.targets, ClusterView.nodesOf] at h
  cases hn : (serviceNodeSets svcs).run.answered cl.answer with
  | error e =>
    rw [hn] at h
    exact absurd h (Finset.notMem_empty node)
  | ok m =>
    rw [hn] at h hset
    obtain ⟨k, hk⟩ := Map.mem_values.mp h
    exact hset k node hk

/-- An address of these services has a node that the speaker of a rack announces it
towards. -/
def Due (cl : ClusterView) (rack svcs : String) : Prop :=
  ∃ node ∈ cl.targets svcs, eligible rack node = true

end Cluster

/-! ## The calls of the manager -/

section Calls
variable {cl : ClusterView} {d d' : Daemon}

/-- A call that is not for the BGP speaker. -/
theorem ran_manager {c : SpeakerCall} {r : SpeakerReply c}
    (hc : atSpeaker c = .call (.manager c) .ret) (h : ran atSpeaker (amongExec cl) c d r d') :
    ∃ d₁ m, Rely d d₁ ∧ cl.exec true c d₁.manager r m ∧ d' = { d₁ with manager := m } := by
  obtain ⟨l, hl⟩ := h
  rw [hc] at hl
  obtain ⟨r', s₁, l', ⟨d₁, hR, m, he, rfl⟩, hret, -⟩ := run_call_iff.mp hl
  obtain ⟨-, rfl, rfl⟩ := run_ret_iff.mp hret
  exact ⟨d₁, m, hR, he, rfl⟩

theorem ran_rangeUsage {usage : Map String String} {ips : List String}
    (h : ran atSpeaker (amongExec cl) (.rangeUsage usage) d ips d') :
    usage.Ranges ips ∧ Rely d d' := by
  obtain ⟨d₁, m, hR, ⟨hips, rfl⟩, rfl⟩ := ran_manager rfl h
  exact ⟨hips, hR⟩

theorem ran_setBalancer {Q : Except Err Unit → Daemon → Prop} {ip : String} {nodes : List Node}
    {r : Except Err Unit} (hwp : Wp (ran toServer (amongExec cl)) Q (setBalancerNodes ip nodes).run d)
    (h : ran atSpeaker (amongExec cl) (.setBalancer openELBProtocolBGP ip nodes) d r d') :
    Q r d' := by
  obtain ⟨l, hl⟩ := h
  rw [atSpeaker, if_pos rfl] at hl
  exact ((wp_interp toServer).mpr hwp).of_run hl

theorem ran_delBalancer {Q : Except Err Unit → Daemon → Prop} {ip : String}
    {r : Except Err Unit} (hwp : Wp (ran toServer (amongExec cl)) Q (delBalancer ip).run d)
    (h : ran atSpeaker (amongExec cl) (.delBalancer openELBProtocolBGP ip) d r d') : Q r d' := by
  obtain ⟨l, hl⟩ := h
  rw [atSpeaker, if_pos rfl] at hl
  exact ((wp_interp toServer).mpr hwp).of_run hl

theorem wp_getServiceNodes_among (svcs : String) : Wp (ran atSpeaker (amongExec cl))
    (either (fun nodes d' => Rely d d' ∧ nodes.toFinset = cl.targets svcs ∧
        ∃ nodeSets, cl.nodesOf svcs = .ok nodeSets)
      fun e d' => Rely d d' ∧ cl.nodesOf svcs = .error e)
    (getServiceNodes svcs).run d := by
  refine wp_getServiceNodes_of ?_ ?_ (Rely.refl d) svcs
  · intro c d₁ r d₂ hc h hR
    have hcall : atSpeaker c = .call (.manager c) .ret := by
      cases c <;> first | rfl | cases hc
    obtain ⟨d₃, m, hR', he, rfl⟩ := ran_manager hcall h
    obtain ⟨rfl, rfl⟩ := ClusterView.exec_read hc he
    exact ⟨rfl, hR.trans hR'⟩
  · intro m d₁ r d₂ h hR
    obtain ⟨d₃, m', hR', ⟨hr, rfl⟩, rfl⟩ := ran_manager rfl h
    exact ⟨hr, hR.trans hR'⟩

end Calls

/-! ## The loops over the addresses -/

/-- The prefixes of a list of addresses. -/
def keysOf (ips : List String) : Set Key := {k | ∃ ip ∈ ips, hostKey ip = k}

/-- The prefixes of the addresses of a map. -/
def usageKeys (usage : Map String String) : Set Key :=
  {k | ∃ ip, (usage.get ip).isSome ∧ hostKey ip = k}

theorem keysOf_subset {usage : Map String String} {ips : List String} (h : usage.Ranges ips) :
    keysOf ips ⊆ usageKeys usage := by
  rintro k ⟨ip, hip, rfl⟩
  exact ⟨ip, (h.2 ip).mp hip, rfl⟩

/-- The addresses of a map are IPv4 addresses, and different ones. -/
structure Distinct (usage : Map String String) : Prop where
  v4 : ∀ ip, (usage.get ip).isSome → isV4 ip = true
  inj : ∀ ip ip', (usage.get ip).isSome → (usage.get ip').isSome → hostKey ip = hostKey ip' → ip = ip'

theorem Distinct.without {usage old : Map String String} (h : Distinct usage) :
    Distinct (usage.without old) := by
  have hsub : ∀ ip, ((usage.without old).get ip).isSome → (usage.get ip).isSome :=
    fun ip hip => (Map.isSome_get_without.mp hip).1
  exact ⟨fun ip hip => h.v4 ip (hsub ip hip),
    fun ip ip' hip hip' => h.inj ip ip' (hsub ip hip) (hsub ip' hip')⟩

section Loops
variable {cl : ClusterView} {d : Daemon} {usage : Map String String}

/-- What has happened to the process, outside a set of prefixes. -/
structure Kept (cl : ClusterView) (K : Set Key) (d d' : Daemon) : Prop where
  manager : d'.manager = d.manager
  moves : Moves K d.bgp d'.bgp
  built : Built cl d'.bgp.rib

theorem Kept.of_rely {K : Set Key} {d' : Daemon} (hb : Built cl d.bgp.rib) (h : Rely d d') :
    Kept cl K d d' :=
  ⟨h.manager, h.moves K, hb.rely h⟩

theorem Kept.trans {K : Set Key} {d' d'' : Daemon} (h : Kept cl K d d') (h' : Kept cl K d' d'') :
    Kept cl K d d'' :=
  ⟨h'.manager.trans h.manager, h.moves.trans h'.moves, h'.built⟩

theorem Kept.mono {K K' : Set Key} {d' : Daemon} (h : Kept cl K d d') (hK : K ⊆ K') :
    Kept cl K' d d' :=
  ⟨h.manager, h.moves.mono hK, h.built⟩

/-- The loop of `delBalancer`. -/
theorem wp_delBalancers_among {ips : List String} (hb : Built cl d.bgp.rib) :
    Wp (ran atSpeaker (amongExec cl))
      (either (fun _ d' => Kept cl (keysOf ips) d d') fun _ _ => False)
      (delBalancers openELBProtocolBGP ips).run d := by
  induction ips generalizing d with
  | nil => exact Kept.of_rely hb (Rely.refl d)
  | cons ip ips ih =>
    intro r d₁ hr
    have hspec := ran_delBalancer (wp_delBalancer_among hb) hr
    cases r with
    | error e => exact hspec.elim
    | ok _ =>
      obtain ⟨hm, hmoves, hb₁⟩ := hspec
      have hone : Kept cl (keysOf (ip :: ips)) d d₁ := by
        refine ⟨hm, hmoves.mono ?_, hb₁⟩
        rintro k rfl
        exact ⟨ip, List.mem_cons_self, rfl⟩
      refine (ih hb₁).mono fun r d₂ hr => ?_
      cases r with
      | error e => exact hr.elim
      | ok _ =>
        refine hone.trans (Kept.mono hr ?_)
        rintro k ⟨i, hi, rfl⟩
        exact ⟨i, List.mem_cons_of_mem ip hi, rfl⟩

/-- **`delBalancer`** moves the prefixes of its addresses only, and does not fail. -/
theorem wp_delBalancer_kept (hb : Built cl d.bgp.rib) : Wp (ran atSpeaker (amongExec cl))
    (either (fun _ d' => Kept cl (usageKeys usage) d d') fun _ _ => False)
    (OpenELB.delBalancer openELBProtocolBGP usage).run d := by
  intro ips d₁ hr
  obtain ⟨hips, hR⟩ := ran_rangeUsage hr
  refine (wp_delBalancers_among (hb.rely hR)).mono fun r d₂ hr => ?_
  cases r with
  | error e => exact hr.elim
  | ok _ => exact (Kept.of_rely hb hR).trans (Kept.mono hr (keysOf_subset hips))

/-- One address of the loop of `setBalancer`: its prefix alone may move, and it is served if it
has an eligible node, before the loop goes on; or the loop ends with an error. -/
theorem wp_setBalancers_cons {ip svcs : String} {ips : List String}
    {Q : Except Err Unit → Daemon → Prop}
    (hcl : Addressed cl) (husage : Distinct usage) (hsvcs : usage.get ip = some svcs)
    (hb : Built cl d.bgp.rib)
    (hrest : ∀ d₁, Kept cl {hostKey ip} d d₁ → (Due cl d.bgp.rack svcs → Served d₁.bgp ip) →
      Wp (ran atSpeaker (amongExec cl)) Q (setBalancers openELBProtocolBGP usage ips).run d₁)
    (herr : ∀ e d₁, Kept cl {hostKey ip} d d₁ → (d.bgp.as = 0 ∨ ¬ cl.Resolves usage) →
      Q (.error e) d₁) :
    Wp (ran atSpeaker (amongExec cl)) Q
      (setBalancers openELBProtocolBGP usage (ip :: ips)).run d := by
  rw [setBalancers, hsvcs, Option.getD_some, wp_except_bind]
  refine (wp_getServiceNodes_among svcs).mono fun r d₁ hr => ?_
  cases r with
  | error e =>
    refine herr e d₁ (Kept.of_rely hb hr.1) (Or.inr fun hres => ?_)
    obtain ⟨nodeSets, hok⟩ := hres ip svcs hsvcs
    rw [hok] at hr
    cases hr.2
  | ok nodes =>
    obtain ⟨hR, hnodes, -⟩ := hr
    have hmem : ∀ node, node ∈ nodes ↔ node ∈ cl.targets svcs := by
      intro node
      rw [← hnodes, List.mem_toFinset]
    rw [either_ok]
    split
    · -- an address without nodes is passed over
      rename_i hnil
      refine hrest d₁ (Kept.of_rely hb hR) ?_
      rintro ⟨node, hnode, -⟩
      have habs := (hmem node).mpr hnode
      rw [hnil] at habs
      exact absurd habs List.not_mem_nil
    · intro r d₂ hr
      have hspec := ran_setBalancer (wp_setBalancerNodes hcl
        (husage.v4 ip (by rw [hsvcs]; rfl))
        (fun node hn => mem_nodes_of_mem_targets ((hmem node).mp hn)) (hb.rely hR)) hr
      cases r with
      | error e =>
        refine herr e d₂ (Kept.of_rely hb (hR.trans hspec.1)) (Or.inl ?_)
        by_contra has
        exact has ((hR.trans hspec.1).running has ▸ hspec.2)
      | ok _ =>
        obtain ⟨hm, hmoves, hb₂, hserved⟩ := hspec
        refine hrest d₂ ((Kept.of_rely hb hR).trans ⟨hm, hmoves, hb₂⟩) ?_
        rintro ⟨node, hnode, hel⟩
        exact hserved ⟨node, (hmem node).mpr hnode, hR.rack.symm ▸ hel⟩

/-- The loop of `setBalancer`: an address that has been done is served, and the rest of
the loop leaves it alone. -/
theorem wp_setBalancers_among {ips : List String} (hcl : Addressed cl) (husage : Distinct usage)
    (hips : ∀ ip ∈ ips, ∃ svcs, usage.get ip = some svcs) (hnodup : ips.Nodup)
    (hb : Built cl d.bgp.rib) :
    Wp (ran atSpeaker (amongExec cl))
      (either (fun _ d' => Kept cl (keysOf ips) d d' ∧ ∀ ip ∈ ips, ∀ svcs,
          usage.get ip = some svcs → Due cl d.bgp.rack svcs → Served d'.bgp ip)
        fun _ d' => Kept cl (keysOf ips) d d' ∧ (d.bgp.as = 0 ∨ ¬ cl.Resolves usage))
      (setBalancers openELBProtocolBGP usage ips).run d := by
  induction ips generalizing d with
  | nil => exact ⟨Kept.of_rely hb (Rely.refl d), fun ip hip => absurd hip List.not_mem_nil⟩
  | cons ip ips ih =>
    obtain ⟨svcs, hsvcs⟩ := hips ip List.mem_cons_self
    obtain ⟨hfresh, hnodup⟩ := List.nodup_cons.mp hnodup
    have htail : ∀ i ∈ ips, ∃ w, usage.get i = some w :=
      fun i hi => hips i (List.mem_cons_of_mem ip hi)
    have hhead : {hostKey ip} ⊆ keysOf (ip :: ips) := by
      rintro k rfl
      exact ⟨ip, List.mem_cons_self, rfl⟩
    have hsub : keysOf ips ⊆ keysOf (ip :: ips) := by
      rintro k ⟨i, hi, rfl⟩
      exact ⟨i, List.mem_cons_of_mem ip hi, rfl⟩
    have hother : hostKey ip ∉ keysOf ips := by
      rintro ⟨i, hi, he⟩
      obtain ⟨w, hw⟩ := htail i hi
      have heq := husage.inj i ip (by rw [hw]; rfl) (by rw [hsvcs]; rfl) he
      exact hfresh (heq ▸ hi)
    refine wp_setBalancers_cons hcl husage hsvcs hb (fun d₁ hkept hserved => ?_)
      fun e d₁ hkept hwhy => ⟨hkept.mono hhead, hwhy⟩
    refine (ih htail hnodup hkept.built).mono fun r d₂ hr => ?_
    have hall : Kept cl (keysOf (ip :: ips)) d d₁ := hkept.mono hhead
    cases r with
    | error e =>
      refine ⟨hall.trans (hr.1.mono hsub), hr.2.imp_left fun h0 => ?_⟩
      by_contra has
      exact has (hkept.moves.as has ▸ h0)
    | ok _ =>
      refine ⟨hall.trans (hr.1.mono hsub), fun i hi w hw hdue => ?_⟩
      rcases List.mem_cons.mp hi with rfl | hi
      · rw [hsvcs] at hw
        cases hw
        exact (hserved hdue).moves hr.1.moves hother
      · exact hr.2 i hi w hw (hkept.moves.rack ▸ hdue)

/-- **`setBalancer`** serves every address that has an eligible node, and moves the
prefixes of its addresses only.  It fails when gobgp is not running or a service is
missing. -/
theorem wp_setBalancer_kept (hcl : Addressed cl) (husage : Distinct usage)
    (hb : Built cl d.bgp.rib) : Wp (ran atSpeaker (amongExec cl))
    (either (fun _ d' => Kept cl (usageKeys usage) d d' ∧ ∀ ip svcs,
        usage.get ip = some svcs → Due cl d.bgp.rack svcs → Served d'.bgp ip)
      fun _ d' => Kept cl (usageKeys usage) d d' ∧ (d.bgp.as = 0 ∨ ¬ cl.Resolves usage))
    (OpenELB.setBalancer openELBProtocolBGP usage).run d := by
  intro ips d₁ hr
  obtain ⟨hips, hR⟩ := ran_rangeUsage hr
  refine (wp_setBalancers_among hcl husage (fun ip hip => hips.get_isSome hip) hips.1
    (hb.rely hR)).mono fun r d₂ hr => ?_
  have hkept : Kept cl (keysOf ips) d₁ d₂ → Kept cl (usageKeys usage) d d₂ :=
    fun h => (Kept.of_rely hb hR).trans (h.mono (keysOf_subset hips))
  cases r with
  | error e =>
    refine ⟨hkept hr.1, hr.2.imp_left fun h0 => ?_⟩
    by_contra has
    exact has (hR.running has ▸ h0)
  | ok _ =>
    exact ⟨hkept hr.1, fun ip svcs hip hdue =>
      hr.2 ip (hips.mem hip) svcs hip (hR.rack.symm ▸ hdue)⟩

end Loops

/-! ## With an Eip -/

section Eip
variable {cl : ClusterView} {d : Daemon} {eip : Eip}

theorem ran_configureWithEIP {name iface : String} {rg : Option IpRange.Range} {deleted : Bool}
    {r : Except Err Unit} {d' : Daemon} (h : ran atSpeaker (amongExec cl)
      (.configureWithEIP openELBProtocolBGP name iface rg deleted) d r d') :
    r = .ok () ∧ d' = d := by
  obtain ⟨l, hl⟩ := h
  rw [atSpeaker, if_pos rfl] at hl
  exact (run_ret_iff.mp hl).2

theorem wp_setBalancerWithEIP_kept (hcl : Addressed cl) (hproto : eip.getProtocol = openELBProtocolBGP)
    (hread : eip.Readable) (hused : Distinct eip.status.used) (hb : Built cl d.bgp.rib) :
    Wp (ran atSpeaker (amongExec cl))
      (either (fun _ d' => Kept cl (usageKeys eip.status.used) d d' ∧ ∀ ip svcs,
          eip.status.used.get ip = some svcs → Due cl d.bgp.rack svcs → Served d'.bgp ip)
        fun _ d' => Kept cl (usageKeys eip.status.used) d d')
      (setBalancerWithEIP eip).run d := by
  obtain ⟨rg, hrg⟩ := hread
  rw [setBalancerWithEIP, hproto, hrg]
  intro r d₁ hr
  obtain ⟨rfl, rfl⟩ := ran_configureWithEIP hr
  refine (wp_setBalancer_kept hcl hused hb).mono fun r d₂ hr => ?_
  cases r with
  | error e => exact hr.1
  | ok _ => exact hr

theorem wp_delBalancerWithEIP_kept (hproto : eip.getProtocol = openELBProtocolBGP)
    (hread : eip.Readable) (hb : Built cl d.bgp.rib) : Wp (ran atSpeaker (amongExec cl))
    (either (fun _ d' => Kept cl (usageKeys eip.status.used) d d') fun _ _ => False)
    (delBalancerWithEIP eip).run d := by
  obtain ⟨rg, hrg⟩ := hread
  rw [delBalancerWithEIP, hproto, wp_except_bind]
  refine (wp_delBalancer_kept hb).mono fun r d₁ hr => ?_
  cases r with
  | error e => exact hr.elim
  | ok _ =>
    rw [either_ok, hrg]
    intro r d₂ hr'
    obtain ⟨rfl, rfl⟩ := ran_configureWithEIP hr'
    exact hr

end Eip

/-! ## What is on record -/

/-- An Eip that may be put on record under a name, beside the other entries: a BGP Eip
whose addresses are different, and not those of another entry. -/
structure Fits (pools : Map String Eip) (name : String) (e : Eip) : Prop where
  protocol : e.getProtocol = openELBProtocolBGP
  readable : e.Readable
  own : ∀ ip ip', (e.status.used.get ip).isSome → (e.status.used.get ip').isSome →
    hostKey ip = hostKey ip' → ip = ip'
  others : ∀ name' e' ip ip', name' ≠ name → pools.get name' = some e' →
    (e'.status.used.get ip).isSome → (e.status.used.get ip').isSome → hostKey ip ≠ hostKey ip'

/-- Every entry fits the others. -/
def Tidy (pools : Map String Eip) : Prop := ∀ name e, pools.get name = some e → Fits pools name e

theorem Tidy.put {pools pools' : Map String Eip} {name : String} {o : Option Eip} (h : Tidy pools)
    (hpools : ∀ n, pools'.get n = if n = name then o else pools.get n)
    (ho : ∀ e, o = some e → Fits pools name e) : Tidy pools' := by
  intro n e hn
  rw [hpools] at hn
  split at hn
  · rename_i hname
    subst hname
    have hfits := ho e hn
    refine ⟨hfits.protocol, hfits.readable, hfits.own, fun n' e' ip ip' hne hn' => ?_⟩
    rw [hpools, if_neg hne] at hn'
    exact hfits.others n' e' ip ip' hne hn'
  · rename_i hname
    have hfits := h n e hn
    refine ⟨hfits.protocol, hfits.readable, hfits.own, fun n' e' ip ip' hne hn' hip hip' => ?_⟩
    rw [hpools] at hn'
    split at hn'
    · rename_i hname'
      subst hname'
      exact ((ho e' hn').others n e ip' ip hname hn hip' hip).symm
    · exact hfits.others n' e' ip ip' hne hn' hip hip'

/-- Every address on record that has an eligible node has a route. -/
structure Sound (cl : ClusterView) (d : Daemon) : Prop where
  tidy : Tidy d.manager.pools
  built : Built cl d.bgp.rib
  covered : ∀ name e ip svcs, d.manager.pools.get name = some e →
    e.status.used.get ip = some svcs → Due cl d.bgp.rack svcs → Served d.bgp ip

theorem Sound.rely {cl : ClusterView} {d d' : Daemon} (h : Sound cl d) (hR : Rely d d') :
    Sound cl d' where
  tidy := hR.manager ▸ h.tidy
  built := h.built.rely hR
  covered := by
    intro name e ip svcs hname hip hdue
    rw [hR.manager] at hname
    rw [hR.rack] at hdue
    exact (h.covered name e ip svcs hname hip hdue).moves (hR.moves ∅) (Set.notMem_empty _)

/-- The entry of one name is replaced, and only prefixes that the others do not have are
moved. -/
theorem Sound.put {cl : ClusterView} {d d' : Daemon} {name : String} {o : Option Eip}
    {K : Set Key} (h : Sound cl d) (hmoves : Moves K d.bgp d'.bgp) (hbuilt : Built cl d'.bgp.rib)
    (hpools : ∀ n, d'.manager.pools.get n = if n = name then o else d.manager.pools.get n)
    (ho : ∀ e, o = some e → Fits d.manager.pools name e ∧ ∀ ip svcs,
      e.status.used.get ip = some svcs → Due cl d.bgp.rack svcs → Served d'.bgp ip)
    (hothers : ∀ n e ip, n ≠ name → d.manager.pools.get n = some e →
      (e.status.used.get ip).isSome → hostKey ip ∉ K) : Sound cl d' where
  tidy := h.tidy.put hpools fun e he => (ho e he).1
  built := hbuilt
  covered := by
    intro n e ip svcs hn hip hdue
    rw [hpools] at hn
    rw [hmoves.rack] at hdue
    split at hn
    · exact (ho e hn).2 ip svcs hip hdue
    · rename_i hne
      refine (h.covered n e ip svcs hn hip hdue).moves hmoves (hothers n e ip hne hn ?_)
      rw [hip]
      rfl

/-- The version of an Eip can be handled in order. -/
structure Orderly (cl : ClusterView) (d : Daemon) (v : Eip) : Prop where
  /-- Its address is a range. -/
  readable : v.Readable
  /-- It lists different IPv4 addresses. -/
  distinct : Distinct v.status.used
  /-- They are not listed by other Eips, nor under another text by this one. -/
  apart : ∀ name e ip ip', d.manager.pools.get name = some e → (e.status.used.get ip).isSome →
    (v.status.used.get ip').isSome → hostKey ip = hostKey ip' → name = v.name ∧ ip = ip'
  /-- An address that is taken over and has an eligible node had one before. -/
  keeps : ∀ o, d.manager.pools.get v.name = some o → ∀ ip a b, o.status.used.get ip = some a →
    v.status.used.get ip = some b → Due cl d.bgp.rack b → Due cl d.bgp.rack a
  /-- If an address that has an eligible node is dropped, all services are there. -/
  resolves : ∀ o, d.manager.pools.get v.name = some o → ∀ ip a, o.status.used.get ip = some a →
    v.status.used.get ip = none → Due cl d.bgp.rack a → cl.Resolves v.status.used

theorem Orderly.rely {cl : ClusterView} {d d' : Daemon} {v : Eip} (h : Orderly cl d v)
    (hR : Rely d d') : Orderly cl d' v where
  readable := h.readable
  distinct := h.distinct
  apart := hR.manager ▸ h.apart
  keeps := by
    rw [hR.manager, hR.rack]
    exact h.keeps
  resolves := by
    rw [hR.manager, hR.rack]
    exact h.resolves

/-- A version is in order once the Eip is off the record. -/
theorem Orderly.withdrawn {cl : ClusterView} {d d' : Daemon} {v : Eip} (h : Orderly cl d v)
    (hpools : ∀ n, d'.manager.pools.get n =
      if n = v.name then none else d.manager.pools.get n) : Orderly cl d' v := by
  have hnone : ∀ o, d'.manager.pools.get v.name ≠ some o := by
    intro o ho
    rw [hpools, if_pos rfl] at ho
    cases ho
  refine ⟨h.readable, h.distinct, fun n e ip ip' hn => ?_, fun o ho => absurd ho (hnone o),
    fun o ho => absurd ho (hnone o)⟩
  rw [hpools] at hn
  split at hn
  · cases hn
  · exact h.apart n e ip ip' hn

theorem Orderly.fits {cl : ClusterView} {d : Daemon} {v : Eip} (h : Orderly cl d v)
    (hproto : v.getProtocol = openELBProtocolBGP) : Fits d.manager.pools v.name v where
  protocol := hproto
  readable := h.readable
  own := h.distinct.inj
  others := fun name' e' ip ip' hne hn hip hip' hk => hne (h.apart name' e' ip ip' hn hip hip' hk).1

/-! ## Following an Eip -/

section Follow
variable {cl : ClusterView} {d : Daemon} {v : Eip}

theorem ran_setPool {name : String} {eip : Eip} {r : Unit} {d' : Daemon}
    (h : ran atSpeaker (amongExec cl) (.setPool name eip) d r d') :
    ∃ d₁, Rely d d₁ ∧ d' = { d₁ with
      manager := { d₁.manager with pools := d₁.manager.pools.set name eip } } := by
  obtain ⟨d₁, m, hR, rfl, rfl⟩ := ran_manager rfl h
  exact ⟨d₁, hR, rfl⟩

theorem ran_deletePool {name : String} {r : Unit} {d' : Daemon}
    (h : ran atSpeaker (amongExec cl) (.deletePool name) d r d') :
    ∃ d₁, Rely d d₁ ∧ d' = { d₁ with
      manager := { d₁.manager with pools := d₁.manager.pools.delete name } } := by
  obtain ⟨d₁, m, hR, rfl, rfl⟩ := ran_manager rfl h
  exact ⟨d₁, hR, rfl⟩

theorem notMem_usageKeys_of_apart (ho : Orderly cl d v) {n : String} {e : Eip} {ip : String}
    (hne : n ≠ v.name) (hn : d.manager.pools.get n = some e) (hip : (e.status.used.get ip).isSome) :
    hostKey ip ∉ usageKeys v.status.used := by
  rintro ⟨ip', hip', hk⟩
  exact hne (ho.apart n e ip ip' hn hip hip' hk.symm).1

theorem notMem_usageKeys_of_tidy (h : Tidy d.manager.pools) {o : Eip}
    (hrec : d.manager.pools.get v.name = some o) {n : String} {e : Eip} {ip : String}
    (hne : n ≠ v.name) (hn : d.manager.pools.get n = some e) (hip : (e.status.used.get ip).isSome) :
    hostKey ip ∉ usageKeys o.status.used := by
  rintro ⟨ip', hip', hk⟩
  exact (h v.name o hrec).others n e ip ip' hne hn hip hip' hk.symm

/-- A new Eip is announced and recorded. -/
theorem wp_added_sound (hcl : Addressed cl) (hs : Sound cl d) (ho : Orderly cl d v)
    (hproto : v.getProtocol = openELBProtocolBGP) (hnew : d.manager.pools.get v.name = none) :
    Wp (ran atSpeaker (amongExec cl)) (fun _ d' => Sound cl d')
      (do setBalancerWithEIP v; OpenELB.send (.setPool v.name v) : SpeakerCode Unit).run d := by
  refine wp_except_bind.mpr ((wp_setBalancerWithEIP_kept hcl hproto ho.readable ho.distinct
    hs.built).mono fun r d₁ hr => ?_)
  have hothers : ∀ n e ip, n ≠ v.name → d.manager.pools.get n = some e →
      (e.status.used.get ip).isSome → hostKey ip ∉ usageKeys v.status.used :=
    fun n e ip => notMem_usageKeys_of_apart ho
  cases r with
  | error e =>
    refine hs.put (o := none) hr.moves hr.built (fun n => ?_) (fun e he => nomatch he) hothers
    rw [hr.manager]
    split
    · rename_i hn
      rw [hn, hnew]
    · rfl
  | ok _ =>
    obtain ⟨hkept, hserved⟩ := hr
    intro u d₂ hr
    obtain ⟨d₃, hR, rfl⟩ := ran_setPool hr
    have hbuilt : Built cl d₃.bgp.rib := hkept.built.rely hR
    refine hs.put (o := some v) (hkept.moves.trans (hR.moves _)) hbuilt (fun n => ?_) ?_ hothers
    · show (d₃.manager.pools.set v.name v).get n = _
      rw [hR.manager, hkept.manager, Map.get_set]
    · rintro e ⟨⟩
      exact ⟨ho.fits hproto, fun ip svcs hip hdue =>
        (hserved ip svcs hip hdue).moves (hR.moves ∅) (Set.notMem_empty _)⟩

/-- An Eip on record has been withdrawn, and is taken off the record. -/
theorem Sound.deleted {o : Eip} {d₁ d₂ : Daemon} {u : Unit} (hs : Sound cl d)
    (hrec : d.manager.pools.get v.name = some o) (hkept : Kept cl (usageKeys o.status.used) d d₁)
    (hr : ran atSpeaker (amongExec cl) (.deletePool v.name) d₁ u d₂) :
    Sound cl d₂ ∧
      ∀ n, d₂.manager.pools.get n = if n = v.name then none else d.manager.pools.get n := by
  obtain ⟨d₃, hR, rfl⟩ := ran_deletePool hr
  have hbuilt : Built cl d₃.bgp.rib := hkept.built.rely hR
  have hpools : ∀ n, (d₃.manager.pools.delete v.name).get n =
      if n = v.name then none else d.manager.pools.get n := by
    intro n
    rw [hR.manager, hkept.manager, Map.get_delete]
  exact ⟨hs.put (o := none) (hkept.moves.trans (hR.moves _)) hbuilt hpools
    (fun e he => nomatch he) fun n e ip => notMem_usageKeys_of_tidy hs.tidy hrec, hpools⟩

/-- The prefixes that the difference of two versions moves. -/
def diffKeys (o v : Eip) : Set Key :=
  usageKeys (o.status.used.without v.status.used) ∪
    usageKeys (v.status.used.without o.status.used)

/-- An address that both versions list is in neither part of the difference. -/
theorem notMem_diff {o : Eip} (ho : Orderly cl d v) (hrec : d.manager.pools.get v.name = some o)
    {ip : String} (hold : (o.status.used.get ip).isSome) (hnew : (v.status.used.get ip).isSome) :
    hostKey ip ∉ diffKeys o v := by
  rintro (⟨ip', hip', hk⟩ | ⟨ip', hip', hk⟩)
  · obtain ⟨hsome, hnone⟩ := Map.isSome_get_without.mp hip'
    obtain ⟨-, rfl⟩ := ho.apart v.name o ip' ip hrec hsome hnew hk
    rw [hnone] at hnew
    cases hnew
  · obtain ⟨hsome, hnone⟩ := Map.isSome_get_without.mp hip'
    obtain rfl := ho.distinct.inj ip' ip hsome hnew hk
    rw [hnone] at hold
    cases hold

theorem usageKeys_without_subset (usage old : Map String String) :
    usageKeys (usage.without old) ⊆ usageKeys usage := by
  rintro k ⟨ip, hip, rfl⟩
  exact ⟨ip, (Map.isSome_get_without.mp hip).1, rfl⟩

/-- The difference has failed after it withdrew what the new version drops: what has an eligible
node is served as before. -/
theorem served_of_diff_failed {o : Eip} {d₁ d₂ : Daemon} (hs : Sound cl d) (ho : Orderly cl d v)
    (hrec : d.manager.pools.get v.name = some o) (hdel : Kept cl (diffKeys o v) d d₁)
    (hkept : Kept cl (diffKeys o v) d d₂)
    (hwhy : d₁.bgp.as = 0 ∨ ¬ cl.Resolves (v.status.used.without o.status.used))
    {ip svcs : String} (hip : o.status.used.get ip = some svcs) (hdue : Due cl d.bgp.rack svcs) :
    Served d₂.bgp ip := by
  have hserved := hs.covered v.name _ ip svcs hrec hip hdue
  cases hnew : v.status.used.get ip with
  | some b =>
    exact hserved.moves hkept.moves (notMem_diff ho hrec (by rw [hip]; rfl) (by rw [hnew]; rfl))
  | none =>
    -- gobgp is running and the services are there: it would not have failed
    rcases hwhy with h0 | hres
    · exact absurd h0 (by rw [hdel.moves.as hserved.1]; exact hserved.1)
    · exact absurd (ho.resolves _ hrec ip svcs hip hnew hdue).without hres

/-- The difference is done: what the new version adds has been set, and what it keeps was
served before. -/
theorem served_of_diff_done {o : Eip} {d₁ d₂ : Daemon} (hs : Sound cl d) (ho : Orderly cl d v)
    (hrec : d.manager.pools.get v.name = some o) (hdel : Kept cl (diffKeys o v) d d₁)
    (hkept : Kept cl (diffKeys o v) d d₂)
    (hset : ∀ ip svcs, (v.status.used.without o.status.used).get ip = some svcs →
      Due cl d₁.bgp.rack svcs → Served d₂.bgp ip)
    {ip svcs : String} (hip : v.status.used.get ip = some svcs) (hdue : Due cl d.bgp.rack svcs) :
    Served d₂.bgp ip := by
  cases hold : o.status.used.get ip with
  | some a =>
    have hbefore := hs.covered v.name o ip a hrec hold (ho.keeps o hrec ip a svcs hold hip hdue)
    exact hbefore.moves hkept.moves (notMem_diff ho hrec (by rw [hold]; rfl) (by rw [hip]; rfl))
  | none =>
    refine hset ip svcs ?_ (hdel.moves.rack.symm ▸ hdue)
    rw [Map.get_without, hold]
    exact hip

/-- **The difference of two versions.**  If it fails, no address that has an eligible node
was dropped. -/
theorem wp_diff_sound {o : Eip} (hcl : Addressed cl) (hs : Sound cl d) (ho : Orderly cl d v)
    (hproto : v.getProtocol = openELBProtocolBGP) (hrec : d.manager.pools.get v.name = some o) :
    Wp (ran atSpeaker (amongExec cl)) (fun _ d' => Sound cl d')
      (do
        OpenELB.delBalancer v.getProtocol (o.status.used.without v.status.used)
        OpenELB.setBalancer v.getProtocol (v.status.used.without o.status.used)
        OpenELB.send (.setPool v.name v) : SpeakerCode Unit).run d := by
  have hothers : ∀ n e ip, n ≠ v.name → d.manager.pools.get n = some e →
      (e.status.used.get ip).isSome → hostKey ip ∉ diffKeys o v := by
    rintro n e ip hne hn hip (hk | hk)
    · exact notMem_usageKeys_of_tidy hs.tidy hrec hne hn hip (usageKeys_without_subset _ _ hk)
    · exact notMem_usageKeys_of_apart ho hne hn hip (usageKeys_without_subset _ _ hk)
  rw [hproto]
  refine wp_except_bind.mpr ((wp_delBalancer_kept hs.built).mono fun r d₁ hr => ?_)
  cases r with
  | error e => exact hr.elim
  | ok _ =>
    rw [either_ok] at hr ⊢
    have hdel : Kept cl (diffKeys o v) d d₁ := hr.mono Set.subset_union_left
    refine wp_except_bind.mpr ((wp_setBalancer_kept hcl ho.distinct.without hr.built).mono
      fun r d₂ hr => ?_)
    cases r with
    | error e =>
      have hkept := hdel.trans (hr.1.mono Set.subset_union_right)
      refine hs.put (o := some o) hkept.moves hkept.built (fun n => ?_) ?_ hothers
      · rw [hkept.manager]
        split
        · rename_i hn
          rw [hn, hrec]
        · rfl
      · rintro e ⟨⟩
        exact ⟨hs.tidy v.name _ hrec, fun ip svcs =>
          served_of_diff_failed hs ho hrec hdel hkept hr.2⟩
    | ok _ =>
      obtain ⟨hset, hserved⟩ := hr
      have hkept := hdel.trans (hset.mono Set.subset_union_right)
      intro u d₃ hr
      obtain ⟨d₄, hR, rfl⟩ := ran_setPool hr
      have hbuilt : Built cl d₄.bgp.rib := hkept.built.rely hR
      refine hs.put (o := some v) (hkept.moves.trans (hR.moves _)) hbuilt (fun n => ?_) ?_ hothers
      · show (d₄.manager.pools.set v.name v).get n = _
        rw [hR.manager, hkept.manager, Map.get_set]
      · rintro e ⟨⟩
        exact ⟨ho.fits hproto, fun ip svcs hip hdue =>
          (served_of_diff_done hs ho hrec hdel hkept hserved hip hdue).moves (hR.moves ∅)
            (Set.notMem_empty _)⟩

/-- **`HandleEIP` keeps a route for every address on record that has an eligible node**,
whatever it returns. -/
theorem wp_handleEIP_sound {speakers : List String} (hcl : Addressed cl) (hs : Sound cl d)
    (ho : Orderly cl d v) (hproto : v.getProtocol = openELBProtocolBGP) :
    Wp (ran atSpeaker (amongExec cl)) (fun _ d' => Sound cl d') (handleEIP speakers v).run d := by
  rw [handleEIP]
  split
  · exact hs
  simp only [ask_bind, wp_call]
  intro entry d₁ hr
  obtain ⟨d₁, m, hR, ⟨rfl, rfl⟩, rfl⟩ := ran_manager rfl hr
  replace hs := hs.rely hR
  replace ho := ho.rely hR
  cases hrec : d₁.manager.pools.get v.name with
  | none => exact wp_added_sound hcl hs ho hproto hrec
  | some o =>
    have hfits := hs.tidy v.name o hrec
    show Wp _ _ (handleKnownEIP o v).run d₁
    rw [handleKnownEIP]
    split
    · refine wp_except_bind.mpr ((wp_delBalancerWithEIP_kept hfits.protocol hfits.readable
        hs.built).mono fun r d₂ hr => ?_)
      cases r with
      | error e => exact hr.elim
      | ok _ => exact fun u d₃ hr' => (hs.deleted hrec hr hr').1
    split
    · refine wp_except_bind.mpr ((wp_delBalancerWithEIP_kept hfits.protocol hfits.readable
        hs.built).mono fun r d₂ hr => ?_)
      cases r with
      | error e => exact hr.elim
      | ok _ =>
        intro u d₃ hr'
        obtain ⟨hs₃, hpools⟩ := hs.deleted hrec hr hr'
        have hgone : d₃.manager.pools.get v.name = none := by rw [hpools, if_pos rfl]
        exact wp_added_sound hcl hs₃ (ho.withdrawn hpools) hproto hgone
    split
    · exact wp_diff_sound hcl hs ho hproto hrec
    · exact hs

end Follow

end OpenELB.Bgp
