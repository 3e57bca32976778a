import OpenELB.SpeakerSteps

/-! # The nodes of an address

`getServiceNodes` collects the nodes of the services that share an address in a map by
name.  Over a cluster in which the services are there the result is a set that depends
only on which services are listed (`serviceNodes_exact`).

`setBalancer` announces each address towards these nodes, but passes over an address that
has none, whatever is announced for it (`announced_exact_iff`). -/
namespace OpenELB
open Go Prog

/-! ## Collecting nodes -/

/-- The map holds the nodes of a list that have a property, by their names. -/
def Collects (nodes : List Node) (m : Map String Node) (P : Node → Prop) : Prop :=
  ∀ name node, m.get name = some node ↔ node.name = name ∧ node ∈ nodes ∧ P node

section Collects
variable {nodes l : List Node} {m : Map String Node} {P Q : Node → Prop}

theorem collects_empty (nodes : List Node) : Collects nodes Map.empty fun _ => False := by
  intro name node
  rw [Map.get_empty]
  simp

theorem Collects.congr (h : Collects nodes m P) (hPQ : ∀ node ∈ nodes, P node ↔ Q node) :
    Collects nodes m Q := by
  intro name node
  rw [h name node]
  constructor
  · rintro ⟨hname, hmem, hP⟩
    exact ⟨hname, hmem, (hPQ node hmem).mp hP⟩
  · rintro ⟨hname, hmem, hQ⟩
    exact ⟨hname, hmem, (hPQ node hmem).mpr hQ⟩

theorem Collects.addNodes (hnames : Set.InjOn Node.name {node | node ∈ nodes})
    (h : Collects nodes m P) (hl : ∀ node ∈ l, node ∈ nodes) :
    Collects nodes (addNodes l m) fun node => P node ∨ node ∈ l := by
  induction l generalizing m P with
  | nil => exact h.congr fun node _ => by simp
  | cons a l ih =>
    obtain ⟨ha, hl⟩ := List.forall_mem_cons.mp hl
    -- a node that is in the map under this name already is the same one
    have hset : Collects nodes (m.set a.name a) fun node => P node ∨ node = a := by
      intro name node
      rw [Map.get_set]
      by_cases hname : name = a.name
      · rw [if_pos hname, Option.some.injEq, hname]
        constructor
        · rintro rfl
          exact ⟨rfl, ha, .inr rfl⟩
        · rintro ⟨hn, hmem, -⟩
          exact hnames ha hmem hn.symm
      · rw [if_neg hname, h name node]
        constructor
        · rintro ⟨hn, hmem, hP⟩
          exact ⟨hn, hmem, .inl hP⟩
        · rintro ⟨hn, hmem, hP | rfl⟩
          · exact ⟨hn, hmem, hP⟩
          · exact absurd hn.symm hname
    refine (ih hset hl).congr fun node _ => ?_
    rw [List.mem_cons, or_assoc]

/-- The values of a map of nodes, in the order of a loop. -/
theorem Collects.values (h : Collects nodes m P) {names : List String} (hr : m.Ranges names) :
    (names.filterMap m.get).Nodup ∧
      ∀ node, node ∈ names.filterMap m.get ↔ node ∈ nodes ∧ P node := by
  constructor
  · refine List.Nodup.filterMap (fun name name' node hn hn' => ?_) hr.1
    rw [← ((h name node).mp hn).1, ← ((h name' node).mp hn').1]
  · intro node
    rw [List.mem_filterMap]
    constructor
    · rintro ⟨name, -, hn⟩
      exact ((h name node).mp hn).2
    · intro hnode
      have hget := (h node.name node).mpr ⟨rfl, hnode⟩
      exact ⟨node.name, hr.mem hget, hget⟩

end Collects

/-! ## The nodes of services -/

namespace ClusterView

/-- An answer is the object that was asked for, and no two nodes have one name. -/
structure Valid (cl : ClusterView) : Prop where
  keyed : ∀ k svc, cl.service k = some svc → svc.key = k
  names : (cl.nodes.map Node.name).Nodup

/-- Every well-formed key of a list is one of a service that is there, with its
endpoints. -/
def Lists (cl : ClusterView) (svcs : String) : Prop :=
  ∀ str ∈ split ';' svcs, ∀ ns name, split '/' str = [ns, name] →
    ∃ svc endpoints, cl.service ⟨ns, name⟩ = some svc ∧ cl.endpoints ⟨ns, name⟩ = some endpoints

/-- The key is well formed, and its service leads to the node: to every node, or with the
policy `Local` to one that hosts a ready endpoint. -/
def LeadsTo (cl : ClusterView) (str : String) (node : Node) : Prop :=
  ∃ ns name svc endpoints, split '/' str = [ns, name] ∧ cl.service ⟨ns, name⟩ = some svc ∧
    cl.endpoints ⟨ns, name⟩ = some endpoints ∧
    (svc.externalTrafficPolicy ≠ .onlyLocal ∨ ∃ subset ∈ endpoints.subsets,
      ∃ addr ∈ subset.addresses, addr.nodeName = some node.name)

end ClusterView

theorem Endpoints.mem_active {endpoints : Endpoints} {name : String} :
    name ∈ endpoints.active ↔ ∃ subset ∈ endpoints.subsets,
      ∃ addr ∈ subset.addresses, addr.nodeName = some name := by
  rw [Endpoints.active, List.mem_flatMap]
  simp only [List.mem_filterMap]

section Gather
variable {cl : ClusterView} {strs : List String} {m : Map String Node} {P : Node → Prop}

/-- The nodes that one service adds. -/
theorem ClusterView.leadsTo_iff {str ns name : String} {svc : Service} {endpoints : Endpoints}
    (hstr : split '/' str = [ns, name]) (hsvc : cl.service ⟨ns, name⟩ = some svc)
    (hend : cl.endpoints ⟨ns, name⟩ = some endpoints) (node : Node) :
    cl.LeadsTo str node ↔
      svc.externalTrafficPolicy ≠ .onlyLocal ∨ node.name ∈ endpoints.active := by
  rw [Endpoints.mem_active]
  constructor
  · rintro ⟨ns', name', svc', endpoints', hstr', hsvc', hend', h⟩
    rw [hstr] at hstr'
    obtain ⟨rfl, rfl⟩ : ns = ns' ∧ name = name' := by simpa using hstr'
    rw [hsvc] at hsvc'
    rw [hend] at hend'
    cases hsvc'
    cases hend'
    exact h
  · exact fun h => ⟨ns, name, svc, endpoints, hstr, hsvc, hend, h⟩

/-- The loop over the services: each adds the nodes that it leads to. -/
theorem answered_gatherNodes (hcl : cl.Valid)
    (hlists : ∀ str ∈ strs, ∀ ns name, split '/' str = [ns, name] → ∃ svc endpoints,
      cl.service ⟨ns, name⟩ = some svc ∧ cl.endpoints ⟨ns, name⟩ = some endpoints)
    (hm : Collects cl.nodes m P) :
    ∃ m', (gatherNodes cl.nodes strs m).run.answered cl.answer = .ok m' ∧
      Collects cl.nodes m' fun node => P node ∨ ∃ str ∈ strs, cl.LeadsTo str node := by
  induction strs generalizing m P with
  | nil => exact ⟨m, rfl, hm.congr fun node _ => by simp⟩
  | cons str strs ih =>
    obtain ⟨hstr, hrest⟩ := List.forall_mem_cons.mp hlists
    have hnames : Set.InjOn Node.name {node | node ∈ cl.nodes} :=
      List.inj_on_of_nodup_map hcl.names
    -- once the nodes of the first service are in the map
    have hstep : ∀ m₁, Collects cl.nodes m₁ (fun node => P node ∨ cl.LeadsTo str node) →
        ∃ m', (gatherNodes cl.nodes strs m₁).run.answered cl.answer = .ok m' ∧
          Collects cl.nodes m' fun node => P node ∨ ∃ str' ∈ str :: strs, cl.LeadsTo str' node := by
      intro m₁ hm₁
      obtain ⟨m', hrun, hm'⟩ := ih hrest hm₁
      refine ⟨m', hrun, hm'.congr fun node _ => ?_⟩
      rw [List.exists_mem_cons_iff, or_assoc]
    rw [gatherNodes]
    split
    · rename_i ns name hsplit
      obtain ⟨svc, endpoints, hsvc, hend⟩ := hstr ns name hsplit
      have hleads := ClusterView.leadsTo_iff hsplit hsvc hend
      have hkey := hcl.keyed _ _ hsvc
      simp only [ask_bind, answered, ClusterView.answer, hsvc, ClusterView.found, orApiErr,
        Except.mapError, must_ok_bind, hkey, hend]
      split
      · rename_i hlocal
        split
        · rename_i hactive
          refine hstep m (hm.congr fun node _ => ?_)
          rw [hleads node, hactive]
          simp [hlocal]
        · refine hstep _ ((hm.addNodes hnames fun node hn => List.mem_of_mem_filter hn).congr
            fun node hn => ?_)
          rw [hleads node]
          simp [hlocal, hn]
      · rename_i hall
        refine hstep _ ((hm.addNodes hnames fun node hn => hn).congr fun node hn => ?_)
        rw [hleads node]
        simp [hall, hn]
    · rename_i hmal
      refine hstep m (hm.congr fun node _ => ?_)
      constructor
      · exact .inl
      · rintro (hP | ⟨ns, name, -, -, hsplit, -⟩)
        · exact hP
        · exact absurd hsplit (hmal ns name)

theorem nodesOf_of_lists (hcl : cl.Valid) {svcs : String} (hlists : cl.Lists svcs) :
    ∃ m, cl.nodesOf svcs = .ok m ∧
      Collects cl.nodes m fun node => ∃ str ∈ split ';' svcs, cl.LeadsTo str node := by
  obtain ⟨m, hrun, hm⟩ := answered_gatherNodes hcl hlists (collects_empty cl.nodes)
  exact ⟨m, hrun, hm.congr fun node _ => by simp⟩

end Gather

/-! ## What is returned -/

section Returned
variable {cl : ClusterView} {fails : Bool} {s s' : SpeakerState}

/-- Every call is answered. -/
theorem ClusterView.exists_exec (c : SpeakerCall) (s : SpeakerState) :
    ∃ r s', cl.exec fails c s r s' := by
  cases c with
  | rangeUsage usage =>
    obtain ⟨ips, hips⟩ := Map.exists_ranges usage
    exact ⟨ips, s, hips, rfl⟩
  | rangeNodes nodeSets =>
    obtain ⟨names, hnames⟩ := Map.exists_ranges nodeSets
    exact ⟨names, s, hnames, rfl⟩
  | setBalancer protocol ip nexthops => exact ⟨.ok (), _, .inl ⟨rfl, rfl⟩⟩
  | delBalancer protocol ip => exact ⟨.ok (), _, .inl ⟨rfl, rfl⟩⟩
  | configureWithEIP protocol name iface r deleted => exact ⟨.ok (), s, .inl rfl, rfl⟩
  | setPool name eip => exact ⟨(), _, rfl⟩
  | deletePool name => exact ⟨(), _, rfl⟩
  | _ => exact ⟨_, s, rfl, rfl⟩

/-- What `getServiceNodes` returns for services that are there. -/
theorem run_getServiceNodes (hcl : cl.Valid) {svcs : String} (hlists : cl.Lists svcs)
    {l : List (Event SpeakerCall SpeakerReply)} {r : Except Err (List Node)}
    (hrun : Run (cl.exec fails) s (getServiceNodes svcs).run l r s') :
    ∃ nodes, r = .ok nodes ∧ s' = s ∧ nodes.Nodup ∧
      ∀ node, node ∈ nodes ↔ node ∈ cl.nodes ∧ ∃ str ∈ split ';' svcs, cl.LeadsTo str node := by
  obtain ⟨m, hm, hcollects⟩ := nodesOf_of_lists hcl hlists
  have hread : ∀ c s₁ r s₂, c.isRead → cl.exec fails c s₁ r s₂ → s₁ = s →
      r = cl.answer c ∧ s₂ = s := by
    rintro c s₁ r s₂ hc he rfl
    exact ClusterView.exec_read hc he
  have hrange : ∀ m s₁ r s₂, cl.exec fails (.rangeNodes m) s₁ r s₂ → s₁ = s →
      m.Ranges r ∧ s₂ = s := by
    rintro m s₁ r s₂ he rfl
    exact he
  have hspec := (wp_getServiceNodes_ranges hread hrange rfl svcs).of_run hrun
  cases r with
  | error e =>
    rw [either_error, hm] at hspec
    exact absurd hspec.2 (by simp)
  | ok nodes =>
    obtain ⟨rfl, m', names, hm', hnames, rfl⟩ := hspec
    rw [hm] at hm'
    cases hm'
    exact ⟨_, rfl, rfl, hcollects.values hnames⟩

/-- **The nodes of a shared address.**  When the listed services and their endpoints are
there, `getServiceNodes` returns, each once, the nodes that some well-formed listed service
leads to.  So a list that has at least these keys, in whatever order and however often,
gives at least these nodes, and one that has no others gives the same ones. -/
theorem serviceNodes_exact (hcl : cl.Valid) {svcs : String} (hlists : cl.Lists svcs) :
    (∃ l nodes, Run (cl.exec fails) s (getServiceNodes svcs).run l (.ok nodes) s) ∧
    ∀ l r s', Run (cl.exec fails) s (getServiceNodes svcs).run l r s' →
      ∃ nodes, r = .ok nodes ∧ s' = s ∧ nodes.Nodup ∧
        (∀ node, node ∈ nodes ↔
          node ∈ cl.nodes ∧ ∃ str ∈ split ';' svcs, cl.LeadsTo str node) ∧
        ∀ svcs', cl.Lists svcs' → (∀ str ∈ split ';' svcs, str ∈ split ';' svcs') →
          ∀ l' nodes' s'', Run (cl.exec fails) s (getServiceNodes svcs').run l' (.ok nodes') s'' →
            (∀ node ∈ nodes, node ∈ nodes') ∧
            ((∀ str ∈ split ';' svcs', str ∈ split ';' svcs) → nodes'.Perm nodes) := by
  constructor
  · obtain ⟨l, r, s', hrun⟩ := exists_run (@ClusterView.exists_exec cl fails)
      (getServiceNodes svcs).run s
    obtain ⟨nodes, rfl, rfl, -⟩ := run_getServiceNodes hcl hlists hrun
    exact ⟨l, nodes, hrun⟩
  · intro l r s' hrun
    obtain ⟨nodes, rfl, rfl, hnodup, hmem⟩ := run_getServiceNodes hcl hlists hrun
    refine ⟨nodes, rfl, rfl, hnodup, hmem, ?_⟩
    intro svcs' hlists' hsub l' nodes' s'' hrun'
    obtain ⟨nodes₂, he, -, hnodup', hmem'⟩ := run_getServiceNodes hcl hlists' hrun'
    cases he
    have hmono : ∀ node ∈ nodes, node ∈ nodes' := by
      intro node hn
      obtain ⟨hnode, str, hstr, hleads⟩ := (hmem node).mp hn
      exact (hmem' node).mpr ⟨hnode, str, hsub str hstr, hleads⟩
    refine ⟨hmono, fun hsub' => (List.perm_ext_iff_of_nodup hnodup' hnodup).mpr fun node => ?_⟩
    refine ⟨fun hn => ?_, hmono node⟩
    obtain ⟨hnode, str, hstr, hleads⟩ := (hmem' node).mp hn
    exact (hmem node).mpr ⟨hnode, str, hsub' str hstr, hleads⟩

end Returned

theorem twoHosts_valid : twoHosts.Valid := by
  refine ⟨fun k svc h => ?_, by decide⟩
  simp only [twoHosts] at h
  split at h
  · rename_i hk
    cases h
    exact hk.symm
  split at h
  · rename_i hk
    cases h
    exact hk.symm
  · cases h

theorem twoHosts_service {k : NamespacedName} (h : k = ⟨"ns", "a"⟩ ∨ k = ⟨"ns", "b"⟩) :
    ∃ svc endpoints, twoHosts.service k = some svc ∧ twoHosts.endpoints k = some endpoints := by
  rcases h with rfl | rfl
  · exact ⟨_, _, rfl, rfl⟩
  · exact ⟨_, _, rfl, rfl⟩

/-- Two services share an address, and one is listed twice. -/
theorem serviceNodes_exact_shared :
    ∃ l nodes, Run (twoHosts.exec false) {} (getServiceNodes "ns/a;ns/b;ns/a").run l (.ok nodes) {} ∧
      nodes.Nodup := by
  have hlists : twoHosts.Lists "ns/a;ns/b;ns/a" := by
    intro str hstr ns name hsplit
    refine twoHosts_service ?_
    have hkeys : ∀ str ∈ split ';' "ns/a;ns/b;ns/a",
        split '/' str = ["ns", "a"] ∨ split '/' str = ["ns", "b"] := by decide
    rcases hkeys str hstr with he | he
    · rw [he] at hsplit
      cases hsplit
      exact .inl rfl
    · rw [he] at hsplit
      cases hsplit
      exact .inr rfl
  obtain ⟨⟨l, nodes, hrun⟩, hall⟩ :=
    @serviceNodes_exact twoHosts false {} twoHosts_valid _ hlists
  obtain ⟨nodes', he, -, hnodup, -⟩ := hall l _ _ hrun
  cases he
  exact ⟨l, nodes, hrun, hnodup⟩

/-! ## What is announced -/

/-- The nodes an address is announced towards: none, if it is not announced. -/
def SpeakerState.nodesAt (s : SpeakerState) (protocol ip : String) : Finset Node :=
  (s.announced protocol ip).getD ∅

section Announced
variable {cl : ClusterView} {s : SpeakerState} {protocol ip svcs : String}
  {usage : Map String String}

/-- An address of the map after `setBalancer`: it has its nodes, or if it should have none
those it had before. -/
theorem nodesAt_announce (hip : usage.get ip = some svcs) :
    (s.announce cl protocol usage).nodesAt protocol ip =
      if (cl.targets svcs).Nonempty then cl.targets svcs else s.nodesAt protocol ip := by
  simp only [SpeakerState.nodesAt, SpeakerState.announce, if_true, ClusterView.table, hip,
    Option.bind_some]
  split
  · rfl
  · rfl

theorem nodesAt_announce_iff (hip : usage.get ip = some svcs) :
    (s.announce cl protocol usage).nodesAt protocol ip = cl.targets svcs ↔
      (cl.targets svcs).Nonempty ∨ s.nodesAt protocol ip = ∅ := by
  rw [nodesAt_announce hip]
  by_cases hne : (cl.targets svcs).Nonempty
  · rw [if_pos hne]
    exact iff_of_true rfl (.inl hne)
  · rw [if_neg hne, Finset.not_nonempty_iff_eq_empty.mp hne]
    simp

/-- **When the announcements are those of the services.**  After `setBalancer` has returned
nil, every address of the map is announced towards what `getServiceNodes` finds for it,
exactly if each of them has nodes or was announced towards none. -/
theorem announced_exact_iff {fails : Bool} {s' : SpeakerState}
    {l : List (Event SpeakerCall SpeakerReply)}
    (hrun : Run (cl.exec fails) s (setBalancer protocol usage).run l (.ok ()) s') :
    (∀ svcs l' nodes s'', Run (cl.exec fails) s (getServiceNodes svcs).run l' (.ok nodes) s'' →
      nodes.toFinset = cl.targets svcs) ∧
    ((∀ ip svcs, usage.get ip = some svcs → s'.nodesAt protocol ip = cl.targets svcs) ↔
      ∀ ip svcs, usage.get ip = some svcs →
        (cl.targets svcs).Nonempty ∨ s.nodesAt protocol ip = ∅) := by
  constructor
  · intro svcs l' nodes s'' hrun'
    exact ((wp_getServiceNodes svcs).of_run hrun').2.1
  · obtain rfl := wp_setBalancer.of_run hrun
    constructor
    · exact fun h ip svcs hip => (nodesAt_announce_iff hip).mp (h ip svcs hip)
    · exact fun h ip svcs hip => (nodesAt_announce_iff hip).mpr (h ip svcs hip)

end Announced

/-- The addresses of two services, of which one was announced for the other service
before. -/
theorem announced_exact_iff_moved :
    ∃ l₁ s l s',
      Run (twoHosts.exec false) {}
        (setBalancer "layer2" (Map.ofList [("192.0.2.1", "ns/b")])).run l₁ (.ok ()) s ∧
      s.nodesAt "layer2" "192.0.2.1" = {{ name := "n2" }} ∧
      Run (twoHosts.exec false) s (setBalancer "layer2"
        (Map.ofList [("192.0.2.1", "ns/a"), ("192.0.2.2", "ns/b")])).run l (.ok ()) s' ∧
      ∀ ip svcs, (Map.ofList [("192.0.2.1", "ns/a"), ("192.0.2.2", "ns/b")]).get ip = some svcs →
        s'.nodesAt "layer2" ip = twoHosts.targets svcs := by
  let p := (setBalancer "layer2" (Map.ofList [("192.0.2.1", "ns/b")])).run
  let q := (setBalancer "layer2"
    (Map.ofList [("192.0.2.1", "ns/a"), ("192.0.2.2", "ns/b")])).run
  let s := p.after (twoHosts.run edgeOrder noneFails) {}
  have heval : p.returns (twoHosts.run edgeOrder noneFails) {} = some (.ok ()) ∧
      s.nodesAt "layer2" "192.0.2.1" = {{ name := "n2" }} ∧
      q.returns (twoHosts.run edgeOrder noneFails) s = some (.ok ()) := by
    decide +kernel
  obtain ⟨h₁, hat, h₂⟩ := heval
  obtain ⟨l₁, hrun₁⟩ := run_eval (ClusterView.exec_of_run noneFails_imp) (eval_of_returns h₁)
  obtain ⟨l₂, hrun₂⟩ := run_eval (ClusterView.exec_of_run noneFails_imp) (eval_of_returns h₂)
  refine ⟨l₁, s, l₂, _, hrun₁, hat, hrun₂, (announced_exact_iff hrun₂).2.mpr ?_⟩
  intro ip svcs hip
  have hnodes : (twoHosts.targets "ns/a").Nonempty ∧ (twoHosts.targets "ns/b").Nonempty := by
    decide +kernel
  simp only [Map.ofList, List.foldl_cons, List.foldl_nil, Map.get_set, Map.get_empty] at hip
  split at hip
  · cases hip
    exact .inl hnodes.2
  · split at hip
    · cases hip
      exact .inl hnodes.1
    · cases hip

/-- The two nodes, when none hosts an endpoint any more. -/
def noHosts : ClusterView := { twoHosts with endpoints := fun _ => some {} }

/-- **An address keeps the nodes of endpoints that are gone.**  `setBalancer` announces the
address of a service with the policy `Local` towards n1.  Then the service loses its
endpoint, and `setBalancer` is called again: it returns nil, and the address is announced
towards n1 as before. -/
theorem lost_endpoints_announced :
    ∃ l₁ s₁ l₂ s₂,
      Run (twoHosts.exec false) {}
        (setBalancer "layer2" (Map.ofList [("192.0.2.1", "ns/a")])).run l₁ (.ok ()) s₁ ∧
      Run (noHosts.exec false) s₁
        (setBalancer "layer2" (Map.ofList [("192.0.2.1", "ns/a")])).run l₂ (.ok ()) s₂ ∧
      noHosts.targets "ns/a" = ∅ ∧ s₂.nodesAt "layer2" "192.0.2.1" = {{ name := "n1" }} := by
  let p := (setBalancer "layer2" (Map.ofList [("192.0.2.1", "ns/a")])).run
  let s₁ := p.after (twoHosts.run edgeOrder noneFails) {}
  have heval : p.returns (twoHosts.run edgeOrder noneFails) {} = some (.ok ()) ∧
      p.returns (noHosts.run edgeOrder noneFails) s₁ = some (.ok ()) ∧
      noHosts.targets "ns/a" = ∅ ∧
      (p.after (noHosts.run edgeOrder noneFails) s₁).nodesAt "layer2" "192.0.2.1" =
        {{ name := "n1" }} := by
    decide +kernel
  obtain ⟨h₁, h₂, hempty, hat⟩ := heval
  obtain ⟨l₁, hrun₁⟩ := run_eval (ClusterView.exec_of_run noneFails_imp) (eval_of_returns h₁)
  obtain ⟨l₂, hrun₂⟩ := run_eval (ClusterView.exec_of_run noneFails_imp) (eval_of_returns h₂)
  exact ⟨l₁, s₁, l₂, _, hrun₁, hrun₂, hempty, hat⟩

end OpenELB
