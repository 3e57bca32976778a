import OpenELB.BgpConf
import OpenELB.RouteSets
import OpenELB.SpeakerSteps

/-! # The manager with the BGP speaker

The process on a node runs the manager and the reconciler of the BGP configuration.
Here the calls that the manager makes to the speaker of the protocol BGP are replaced
by the code of that speaker (`atSpeaker`), down to its requests to gobgp.

While the manager works, the reconciler may start gobgp, if it is not running, and
nothing else happens to it: that is `Rely`, and under what condition the reconciler
keeps to it is for the module that runs both.  Then `SetBalancer` and `DelBalancer`
change the routes of their address only, and an address that was set towards an
eligible node has a route (`wp_setBalancerNodes`, `wp_delBalancer_among`). -/
namespace OpenELB.Bgp
open Go Prog

/-! ## The process -/

/-- A call of the manager, or of the speaker and the reconciler. -/
inductive SysCall where
  | manager (c : SpeakerCall)
  | conf (c : ConfCall)
  deriving DecidableEq

/-- The types of the answers. -/
abbrev SysReply : SysCall → Type
  | .manager c => SpeakerReply c
  | .conf c => ConfReply c

/-- A request to gobgp. -/
def toServer (c : BgpCall) : Prog SysCall SysReply (BgpReply c) := .call (.conf (.bgp c)) .ret

/-- The calls of the manager, with the code of the BGP speaker.  Its `ConfigureWithEIP`
returns nil. -/
def atSpeaker : (c : SpeakerCall) → Prog SysCall SysReply (SpeakerReply c)
  | .setBalancer protocol ip nexthops =>
    if protocol = openELBProtocolBGP then (setBalancerNodes ip nexthops).run.interp toServer
    else .call (.manager (.setBalancer protocol ip nexthops)) .ret
  | .delBalancer protocol ip =>
    if protocol = openELBProtocolBGP then (delBalancer ip).run.interp toServer
    else .call (.manager (.delBalancer protocol ip)) .ret
  | .configureWithEIP protocol name iface r deleted =>
    if protocol = openELBProtocolBGP then .ret (.ok ())
    else .call (.manager (.configureWithEIP protocol name iface r deleted)) .ret
  | c => .call (.manager c) .ret

/-- The manager with its other speakers, and gobgp. -/
structure Daemon where
  manager : SpeakerState := {}
  bgp : BgpState := {}

/-- A request about paths was refused. -/
def Failed : (c : BgpCall) → BgpReply c → Prop
  | .listPath _ _, r => ∃ e, r = .error e
  | .addPath _, r => ∃ e, r = .error e
  | .deletePath _, r => ∃ e, r = .error e
  | _, _ => False

/-- gobgp, when requests about paths are carried out. -/
def serverExec (c : BgpCall) (s : BgpState) (r : BgpReply c) (s' : BgpState) : Prop :=
  bgpExec c s r s' ∧ ¬ Failed c r

/-- What the calls may answer and do, over a fixed cluster.  The reconciler may be
answered anything. -/
def daemonExec (cl : ClusterView) : (c : SysCall) → Daemon → SysReply c → Daemon → Prop
  | .manager c, d, r, d' => ∃ m, cl.exec true c d.manager r m ∧ d' = { d with manager := m }
  | .conf (.bgp c), d, r, d' => ∃ b, serverExec c d.bgp r b ∧ d' = { d with bgp := b }
  | .conf _, d, _, d' => d' = d

/-! ## What happens in between -/

/-- What happens to the state between two calls of the manager: gobgp may be started,
if it was not running. -/
structure Rely (d d' : Daemon) : Prop where
  manager : d'.manager = d.manager
  rack : d'.bgp.rack = d.bgp.rack
  running : d.bgp.as ≠ 0 → d'.bgp = d.bgp
  paths : d'.bgp.rib = d.bgp.rib ∨ d'.bgp.rib = Rib.empty

theorem Rely.refl (d : Daemon) : Rely d d := ⟨rfl, rfl, fun _ => rfl, Or.inl rfl⟩

theorem Rely.trans {d d' d'' : Daemon} (h : Rely d d') (h' : Rely d' d'') : Rely d d'' where
  manager := h'.manager.trans h.manager
  rack := h'.rack.trans h.rack
  running := fun has => (h'.running (by rwa [h.running has])).trans (h.running has)
  paths := by
    rcases h'.paths with he | he
    · rw [he]
      exact h.paths
    · exact Or.inr he

theorem Rely.eq_of_running {d d' : Daemon} (h : Rely d d') (has : d.bgp.as ≠ 0) : d' = d := by
  obtain ⟨m, b⟩ := d
  obtain ⟨m', b'⟩ := d'
  cases h.manager
  cases h.running has
  rfl

/-- The calls of the manager and its speaker among the rest of the process. -/
abbrev amongExec (cl : ClusterView) := among Rely (daemonExec cl)

theorem ran_toServer {cl : ClusterView} {c : BgpCall} {d d' : Daemon} {r : BgpReply c}
    (h : ran toServer (amongExec cl) c d r d') :
    ∃ d₁ b, Rely d d₁ ∧ serverExec c d₁.bgp r b ∧ d' = { d₁ with bgp := b } := by
  obtain ⟨l, hl⟩ := h
  obtain ⟨r', s₁, l', ⟨d₁, hR, b, he, rfl⟩, hret, -⟩ := run_call_iff.mp hl
  obtain ⟨-, rfl, rfl⟩ := run_ret_iff.mp hret
  exact ⟨d₁, b, hR, he, rfl⟩

/-- The requests that do not start, stop or configure gobgp. -/
def BgpCall.onPaths : BgpCall → Prop
  | .setRack _ | .stopBgp | .startBgp _ _ => False
  | _ => True

theorem as_of_onPaths {c : BgpCall} (hc : c.onPaths) {s s' : BgpState} {r : BgpReply c}
    (h : bgpExec c s r s') : s'.as = s.as := by
  cases c with
  | getBgp => rw [h.2]
  | listPath family ip => rw [h.2]
  | addPath p =>
    rcases h with ⟨-, rfl⟩ | ⟨-, rfl⟩
    · rfl
    · rfl
  | deletePath p =>
    rcases h with ⟨-, rfl⟩ | ⟨-, rfl⟩
    · rfl
    · rfl
  | getRack => rw [h.2]
  | rangeKeys m => rw [h.2]
  | _ => exact hc.elim

/-- While gobgp is running, code of the speaker runs as if it were alone. -/
theorem wp_running {α : Type} {cl : ClusterView} {Q : α → BgpState → Prop}
    {p : Prog BgpCall BgpReply α} {d : Daemon} (hp : p.All BgpCall.onPaths)
    (has : d.bgp.as ≠ 0) (h : Wp serverExec Q p d.bgp) :
    Wp (ran toServer (amongExec cl)) (fun a d' => Q a d'.bgp ∧ d'.manager = d.manager) p d := by
  induction p generalizing d with
  | ret a => exact ⟨h, rfl⟩
  | call c k ih =>
    intro r d' hr
    obtain ⟨d₁, b, hR, he, rfl⟩ := ran_toServer hr
    obtain rfl := hR.eq_of_running has
    have has' : b.as ≠ 0 := by rwa [as_of_onPaths hp.1 he.1]
    exact @ih r ⟨_, b⟩ (hp.2 r) has' (h r b he)

/-! ## Setting and deleting the routes of an address -/

section Server
variable {s : BgpState} {ip : String}

/-- Code of the speaker that does not fail when no request does. -/
abbrev Succeeds {α : Type} (x : BgpCode α) (s : BgpState) : Prop :=
  Wp serverExec (either (fun _ _ => True) fun _ _ => False) x.run s

theorem Succeeds.spec {α : Type} {x : BgpCode α} {P : α → BgpState → Prop}
    {E : Err → BgpState → Prop} (h : Succeeds x s) (h' : Wp bgpExec (either P E) x.run s) :
    Wp serverExec (either P fun _ _ => False) x.run s := by
  have hserver : Wp serverExec (fun r s => either P E r s ∧ True) x.run s :=
    h'.of_exec (I := fun _ => True) (fun _ _ _ _ he _ => ⟨he.1, trivial⟩) trivial
  refine (Wp.and h hserver).mono fun r s₁ hr => ?_
  cases r with
  | ok a => exact hr.2.1
  | error e => exact hr.1.elim

theorem succeeds_addMultiRoutes {len : Nat} {nexthops : List String} :
    Succeeds (addMultiRoutes ip len nexthops) s := by
  induction nexthops generalizing s with
  | nil => trivial
  | cons n nexthops ih =>
    rintro (e | u) s₁ ⟨-, hok⟩
    · exact (hok ⟨e, rfl⟩).elim
    · exact ih

theorem succeeds_deleteMultiRoutes {len : Nat} {nexthops : List String} :
    Succeeds (deleteMultiRoutes ip len nexthops) s := by
  induction nexthops generalizing s with
  | nil => trivial
  | cons n nexthops ih =>
    rintro (e | u) s₁ ⟨-, hok⟩
    · exact (hok ⟨e, rfl⟩).elim
    · exact ih

theorem Succeeds.bind {α β : Type} {x : BgpCode α} {f : α → BgpCode β} (h : Succeeds x s)
    (hf : ∀ a s, Succeeds (f a) s) : Succeeds (x >>= f) s := by
  refine wp_except_bind.mpr (h.mono fun r s₁ hr => ?_)
  cases r with
  | ok a => exact hf a s₁
  | error e => exact hr

theorem succeeds_retriveRoutes {nexthops : List String} :
    Succeeds (retriveRoutes ip nexthops) s := by
  rintro (e | dest) s₁ ⟨-, hok⟩
  · exact (hok ⟨e, rfl⟩).elim
  · cases dest with
    | none => trivial
    | some paths => exact fun _ _ _ _ _ _ => trivial

theorem succeeds_setBalancer {nexthops : List String} : Succeeds (setBalancer ip nexthops) s :=
  succeeds_retriveRoutes.bind fun _ _ =>
    succeeds_addMultiRoutes.bind fun _ _ => succeeds_deleteMultiRoutes

theorem succeeds_deletePaths {paths : List ApiPath} : Succeeds (deletePaths paths) s := by
  induction paths generalizing s with
  | nil => trivial
  | cons p paths ih =>
    rintro (e | u) s₁ ⟨-, hok⟩
    · exact (hok ⟨e, rfl⟩).elim
    · exact ih

theorem succeeds_withdrawRoutes : Succeeds (withdrawRoutes ip) s := by
  rintro (e | dest) s₁ ⟨-, hok⟩
  · exact (hok ⟨e, rfl⟩).elim
  · exact succeeds_deletePaths

end Server

/-- The next hops of the nodes of the cluster. -/
def hops (cl : ClusterView) : Set String :=
  {n | ∃ node ∈ cl.nodes, getNodeNextHop node = .ok n}

/-- Every node has an internal IPv4 address, in canonical text, and the path identifiers
of two of these are different. -/
structure Addressed (cl : ClusterView) : Prop where
  hop : ∀ node ∈ cl.nodes, ∃ n, getNodeNextHop node = .ok n
  canonical : ∀ n ∈ hops cl, CanonicalV4 n
  inj : Set.InjOn getPathIdentifier (hops cl)

/-- All paths of the table lead to nodes of the cluster. -/
def Built (cl : ClusterView) (rib : Rib) : Prop := ∀ k, ∃ S ⊆ hops cl, Holds rib k S

theorem built_empty (cl : ClusterView) : Built cl Rib.empty := by
  refine fun k => ⟨∅, Set.empty_subset _, fun id o => ?_⟩
  rw [Rib.get, Rib.empty, Map.get_empty]
  simp

theorem Holds.congr {rib rib' : Rib} {k : Key} {S : Set String} (h : Holds rib k S)
    (heq : ∀ id, rib'.get k id = rib.get k id) : Holds rib' k S := by
  intro id o
  rw [heq]
  exact h id o

theorem Built.sameBut {cl : ClusterView} {k : Key} {s s' : BgpState} (h : Built cl s.rib)
    (hs : SameBut k s s') {S : Set String} (hS : S ⊆ hops cl) (hk : Holds s'.rib k S) :
    Built cl s'.rib := by
  intro k'
  by_cases hkk : k' = k
  · exact ⟨S, hS, hkk ▸ hk⟩
  · obtain ⟨S', hS', hk'⟩ := h k'
    exact ⟨S', hS', hk'.congr fun id => hs.2.2 k' id hkk⟩

theorem Built.rely {cl : ClusterView} {d d' : Daemon} (h : Built cl d.bgp.rib) (hR : Rely d d') :
    Built cl d'.bgp.rib := by
  rcases hR.paths with he | he
  · rwa [he]
  · rw [he]
    exact built_empty cl

/-- The address has a route. -/
def HasRoute (s : BgpState) (ip : String) : Prop := ∃ id, (s.rib.get (hostKey ip) id).isSome

section Routes
variable {cl : ClusterView} {ip : String} {nodes : List Node}

/-- The next hops are those of the eligible nodes. -/
theorem wp_nextHops {s : BgpState} (hcl : Addressed cl) (hnodes : ∀ node ∈ nodes, node ∈ cl.nodes) :
    Wp serverExec (either (fun ns s' => s' = s ∧ (∀ n ∈ ns, n ∈ hops cl) ∧
        ((∃ node ∈ nodes, eligible s.rack node = true) → ns ≠ [])) fun _ _ => False)
      (nextHops nodes).run s := by
  induction nodes with
  | nil => exact ⟨rfl, fun n hn => absurd hn List.not_mem_nil, by simp⟩
  | cons node nodes ih =>
    obtain ⟨hnode, hrest⟩ := List.forall_mem_cons.mp hnodes
    rintro rack s₁ ⟨⟨rfl, rfl⟩, -⟩
    show Wp _ _ (if eligible s₁.rack node = true then _ else _ : BgpCode _).run s₁
    split
    · obtain ⟨n, hn⟩ := hcl.hop node hnode
      rw [hn, must_ok_bind]
      refine wp_except_bind.mpr ((ih hrest).mono fun r s₂ hr => ?_)
      cases r with
      | error e => exact hr
      | ok ns =>
        obtain ⟨rfl, hns, -⟩ := hr
        exact ⟨rfl, List.forall_mem_cons.mpr ⟨⟨node, hnode, hn⟩, hns⟩, fun _ => by simp⟩
    · rename_i hel
      refine (ih hrest).mono fun r s₂ hr => ?_
      cases r with
      | error e => exact hr
      | ok ns =>
        obtain ⟨rfl, hns, hne⟩ := hr
        refine ⟨rfl, hns, ?_⟩
        rintro ⟨m, hm, he⟩
        rcases List.mem_cons.mp hm with rfl | hm
        · exact absurd he hel
        · exact hne ⟨m, hm, he⟩

/-- What is left of `SetBalancer` once BGP is ready. -/
theorem wp_routes {s : BgpState} (hcl : Addressed cl) (hip : isV4 ip = true)
    (hnodes : ∀ node ∈ nodes, node ∈ cl.nodes) (hb : Built cl s.rib) :
    Wp serverExec (either (fun _ s' => SameBut (hostKey ip) s s' ∧ Built cl s'.rib ∧
        ((∃ node ∈ nodes, eligible s.rack node = true) → HasRoute s' ip)) fun _ _ => False)
      (nextHops nodes >>= setBalancer ip).run s := by
  refine wp_except_bind.mpr ((wp_nextHops hcl hnodes).mono fun r s₁ hr => ?_)
  cases r with
  | error e => exact hr
  | ok ns =>
    obtain ⟨rfl, hns, hne⟩ := hr
    obtain ⟨S, hS, hholds⟩ := hb (hostKey ip)
    have hsub : {n | n ∈ ns} ∪ S ⊆ hops cl := Set.union_subset hns hS
    refine (succeeds_setBalancer.spec (wp_setBalancer hip hholds
      (fun n hn => hcl.canonical n (hS hn)) (hcl.inj.mono hsub))).mono fun r s₂ hr => ?_
    cases r with
    | error e => exact hr
    | ok _ =>
      obtain ⟨hsame, hafter⟩ := hr
      refine ⟨hsame, hb.sameBut hsame hns hafter, fun hel => ?_⟩
      obtain ⟨n, hn⟩ := List.exists_mem_of_ne_nil ns (hne hel)
      have hget := (hafter (getPathIdentifier n) (some n)).mpr ⟨n, hn, rfl, rfl⟩
      obtain ⟨p, hp, -⟩ := Option.map_eq_some_iff.mp hget
      exact ⟨_, by rw [hp]; rfl⟩

end Routes

/-! ## Among the rest of the process -/

/-- The rack is the same, and if gobgp was running only the routes of some prefixes have
changed. -/
structure Moves (K : Set Key) (s s' : BgpState) : Prop where
  rack : s'.rack = s.rack
  as : s.as ≠ 0 → s'.as = s.as
  get : s.as ≠ 0 → ∀ k ∉ K, ∀ id, s'.rib.get k id = s.rib.get k id

theorem Rely.moves {d d' : Daemon} (h : Rely d d') (K : Set Key) : Moves K d.bgp d'.bgp where
  rack := h.rack
  as := fun has => by rw [h.running has]
  get := fun has k _ id => by rw [h.running has]

theorem Moves.trans {K : Set Key} {s s' s'' : BgpState} (h : Moves K s s') (h' : Moves K s' s'') :
    Moves K s s'' where
  rack := h'.rack.trans h.rack
  as := fun has => (h'.as (by rwa [h.as has])).trans (h.as has)
  get := fun has k hk id => (h'.get (by rwa [h.as has]) k hk id).trans (h.get has k hk id)

theorem Moves.mono {K K' : Set Key} {s s' : BgpState} (h : Moves K s s') (hK : K ⊆ K') :
    Moves K' s s' :=
  ⟨h.rack, h.as, fun has k hk => h.get has k fun hk' => hk (hK hk')⟩

theorem SameBut.moves {k : Key} {s s' : BgpState} (h : SameBut k s s') : Moves {k} s s' :=
  ⟨h.2.1, fun _ => h.1, fun _ k' hk' id => h.2.2 k' id hk'⟩

/-- gobgp is running and the address has a route. -/
def Served (s : BgpState) (ip : String) : Prop := s.as ≠ 0 ∧ HasRoute s ip

theorem Served.moves {K : Set Key} {s s' : BgpState} {ip : String} (h : Served s ip)
    (hm : Moves K s s') (hk : hostKey ip ∉ K) : Served s' ip := by
  obtain ⟨has, id, hid⟩ := h
  refine ⟨by rwa [hm.as has], id, ?_⟩
  rwa [hm.get has _ hk]

section Among
variable {cl : ClusterView} {d : Daemon} {ip : String}

/-- `ready` tells whether gobgp is running now. -/
theorem wp_ready_among : Wp (ran toServer (amongExec cl))
    (either (fun _ d' => Rely d d' ∧ d'.bgp.as ≠ 0) fun _ d' => Rely d d' ∧ d'.bgp.as = 0)
    ready.run d := by
  intro r d' hr
  obtain ⟨d₁, b, hR, ⟨⟨h, rfl⟩, -⟩, rfl⟩ := ran_toServer hr
  rcases h with rfl | ⟨h0, e, rfl⟩
  · show Wp _ _ (if d₁.bgp.as = 0 then _ else _ : BgpCode Unit).run d₁
    split
    · rename_i h0
      exact ⟨hR, h0⟩
    · rename_i has
      exact ⟨hR, has⟩
  · exact ⟨hR, h0⟩

theorem nextHops_all (nodes : List Node) : (nextHops nodes).run.All BgpCall.onPaths := by
  induction nodes with
  | nil => trivial
  | cons node nodes ih =>
    refine ⟨trivial, fun rack => ?_⟩
    show (if eligible rack node = true then _ else _ : BgpCode _).run.All _
    split
    · exact all_except_bind trivial fun _ => all_except_bind ih fun _ => trivial
    · exact ih

theorem setBalancer_all (ip : String) (nexthops : List String) :
    (setBalancer ip nexthops).run.All BgpCall.onPaths := by
  have hadd : ∀ l : List String, (addMultiRoutes ip (hostLen ip) l).run.All BgpCall.onPaths := by
    intro l
    induction l with
    | nil => trivial
    | cons n l ih => exact ⟨trivial, fun _ => all_except_bind trivial fun _ => ih⟩
  have hdel : ∀ l : List String, (deleteMultiRoutes ip (hostLen ip) l).run.All BgpCall.onPaths := by
    intro l
    induction l with
    | nil => trivial
    | cons n l ih => exact ⟨trivial, fun _ => all_except_bind trivial fun _ => ih⟩
  refine all_except_bind ?_ fun _ => all_except_bind (hadd _) fun _ => hdel _
  refine ⟨trivial, fun _ => all_except_bind trivial fun dest => ?_⟩
  cases dest with
  | none => trivial
  | some paths => exact ⟨trivial, fun _ => ⟨trivial, fun _ => trivial⟩⟩

theorem withdrawRoutes_all (ip : String) : (withdrawRoutes ip).run.All BgpCall.onPaths := by
  have hdel : ∀ ps : List ApiPath, (deletePaths ps).run.All BgpCall.onPaths := by
    intro ps
    induction ps with
    | nil => trivial
    | cons p ps ih => exact ⟨trivial, fun _ => all_except_bind trivial fun _ => ih⟩
  exact ⟨trivial, fun _ => all_except_bind trivial fun _ => hdel _⟩

/-- **`SetBalancer` among the rest of the process.**  If it returns nil, gobgp is
running, and with an eligible node the address has a route. -/
theorem wp_setBalancerNodes {nodes : List Node} (hcl : Addressed cl) (hip : isV4 ip = true)
    (hnodes : ∀ node ∈ nodes, node ∈ cl.nodes) (hb : Built cl d.bgp.rib) :
    Wp (ran toServer (amongExec cl))
      (either (fun _ d' => d'.manager = d.manager ∧ Moves {hostKey ip} d.bgp d'.bgp ∧
          Built cl d'.bgp.rib ∧
          ((∃ node ∈ nodes, eligible d.bgp.rack node = true) → Served d'.bgp ip))
        fun _ d' => Rely d d' ∧ d'.bgp.as = 0)
      (setBalancerNodes ip nodes).run d := by
  refine wp_except_bind.mpr (wp_ready_among.mono fun r d₁ hr => ?_)
  cases r with
  | error e => exact hr
  | ok _ =>
    obtain ⟨hR, has⟩ := hr
    have hall : (nextHops nodes >>= setBalancer ip).run.All BgpCall.onPaths :=
      all_except_bind (nextHops_all nodes) (setBalancer_all ip)
    refine (wp_running hall has (wp_routes hcl hip hnodes (hb.rely hR))).mono fun r d₂ hr => ?_
    obtain ⟨hr, hm⟩ := hr
    cases r with
    | error e => exact hr.elim
    | ok _ =>
      obtain ⟨hsame, hbuilt, hroute⟩ := hr
      refine ⟨hm.trans hR.manager, (hR.moves _).trans hsame.moves, hbuilt, fun hel => ⟨?_, ?_⟩⟩
      · rwa [hsame.1]
      · exact hroute (hR.rack ▸ hel)

/-- **`DelBalancer` among the rest of the process.**  It does not fail. -/
theorem wp_delBalancer_among (hb : Built cl d.bgp.rib) : Wp (ran toServer (amongExec cl))
    (either (fun _ d' => d'.manager = d.manager ∧ Moves {hostKey ip} d.bgp d'.bgp ∧
      Built cl d'.bgp.rib) fun _ _ => False)
    (delBalancer ip).run d := by
  refine wp_except_bind.mpr (wp_attempt.mpr (wp_ready_among.mono fun r d₁ hr => ?_))
  cases r with
  | error e => exact ⟨hr.1.manager, hr.1.moves _, hb.rely hr.1⟩
  | ok _ =>
    obtain ⟨hR, has⟩ := hr
    have hspec := (@succeeds_withdrawRoutes d₁.bgp ip).spec wp_withdrawRoutes
    refine (wp_running (withdrawRoutes_all ip) has hspec).mono fun r d₂ hr => ?_
    obtain ⟨hr, hm⟩ := hr
    cases r with
    | error e => exact hr.elim
    | ok _ =>
      obtain ⟨hsame, hnone⟩ := hr
      refine ⟨hm.trans hR.manager, (hR.moves _).trans hsame.moves, ?_⟩
      refine (hb.rely hR).sameBut hsame (Set.empty_subset _) fun id o => ?_
      rw [hnone]
      simp

end Among

end OpenELB.Bgp
