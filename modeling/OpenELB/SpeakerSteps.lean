import OpenELB.SpeakerManager

/-! # What the manager's code does

`speakerExec reads fails` says what the calls of the manager may answer: the requests
to the API server anything that `reads` allows, the speakers success, or with `fails`
also an error that has no effect.  What the speakers announce is kept as a table: for
each protocol and address, the nodes passed by the last `SetBalancer` that no
`DelBalancer` followed.

A `ClusterView` fixes the answers of the API server.  Over it `getServiceNodes` has one
result (`ClusterView.nodesOf`), `setBalancer` writes the addresses that have nodes into
the table and `delBalancer` takes the addresses out (`wp_setBalancer`,
`wp_delBalancer`). -/
namespace OpenELB
open Go Prog

/-! ## The calls -/

/-- What the speakers announce, by protocol and address. -/
abbrev Announcements := String → String → Option (Finset Node)

/-- The pools of the manager and the announcements of its speakers. -/
structure SpeakerState where
  pools : Map String Eip := Map.empty
  announced : Announcements := fun _ _ => none

/-- The state with another entry for an address. -/
def SpeakerState.put (s : SpeakerState) (protocol ip : String) (nodes : Option (Finset Node)) :
    SpeakerState :=
  { s with announced := fun p i => if p = protocol ∧ i = ip then nodes else s.announced p i }

/-- What the calls of the manager may answer, and do. -/
def speakerExec (reads : (c : SpeakerCall) → SpeakerReply c → Prop) (fails : Bool) :
    (c : SpeakerCall) → SpeakerState → SpeakerReply c → SpeakerState → Prop
  | .getPool name, s, r, s' => r = s.pools.get name ∧ s' = s
  | .setPool name eip, s, _, s' => s' = { s with pools := s.pools.set name eip }
  | .deletePool name, s, _, s' => s' = { s with pools := s.pools.delete name }
  | .rangeUsage usage, s, r, s' => usage.Ranges r ∧ s' = s
  | .rangeNodes nodeSets, s, r, s' => nodeSets.Ranges r ∧ s' = s
  | .setBalancer protocol ip nexthops, s, r, s' =>
    r = .ok () ∧ s' = s.put protocol ip (some nexthops.toFinset) ∨
      fails = true ∧ (∃ e, r = .error e) ∧ s' = s
  | .delBalancer protocol ip, s, r, s' =>
    r = .ok () ∧ s' = s.put protocol ip none ∨ fails = true ∧ (∃ e, r = .error e) ∧ s' = s
  | .configureWithEIP _ _ _ _ _, s, r, s' =>
    (r = .ok () ∨ fails = true ∧ ∃ e, r = .error e) ∧ s' = s
  | .getEip name, s, r, s' => reads (.getEip name) r ∧ s' = s
  | .listEips, s, r, s' => reads .listEips r ∧ s' = s
  | .listNodes, s, r, s' => reads .listNodes r ∧ s' = s
  | .getService k, s, r, s' => reads (.getService k) r ∧ s' = s
  | .getEndpoints k, s, r, s' => reads (.getEndpoints k) r ∧ s' = s

/-- More may happen where more may be read. -/
theorem speakerExec_mono {reads reads' : (c : SpeakerCall) → SpeakerReply c → Prop} {fails : Bool}
    {c : SpeakerCall} (h : ∀ r, reads c r → reads' c r) {s s' : SpeakerState} {r : SpeakerReply c}
    (he : speakerExec reads fails c s r s') : speakerExec reads' fails c s r s' := by
  cases c with
  | getEip name => exact ⟨h _ he.1, he.2⟩
  | listEips => exact ⟨h _ he.1, he.2⟩
  | listNodes => exact ⟨h _ he.1, he.2⟩
  | getService k => exact ⟨h _ he.1, he.2⟩
  | getEndpoints k => exact ⟨h _ he.1, he.2⟩
  | _ => exact he

/-! ## A fixed cluster -/

/-- What the API server answers when nothing changes in the cluster. -/
structure ClusterView where
  nodes : List Node
  service : NamespacedName → Option Service
  endpoints : NamespacedName → Option Endpoints

namespace ClusterView
variable (cl : ClusterView)

/-- An object, or the error for one that is not there. -/
def found {α : Type} : Option α → Except ApiErr α
  | some a => .ok a
  | none => .error .notFound

/-- The answers to the requests that `getServiceNodes` sends. -/
def answer : (c : SpeakerCall) → SpeakerReply c
  | .listNodes => .ok cl.nodes
  | .getService k => found (cl.service k)
  | .getEndpoints k => found (cl.endpoints k)
  | .getEip _ => .error .notFound
  | .listEips => .ok []
  | .getPool _ => none
  | .setPool _ _ | .deletePool _ => ()
  | .rangeUsage _ | .rangeNodes _ => []
  | .setBalancer _ _ _ | .delBalancer _ _ | .configureWithEIP _ _ _ _ _ => .ok ()

/-- The semantics over a fixed cluster. -/
abbrev exec (fails : Bool) := speakerExec (fun c r => r = cl.answer c) fails

/-- What `getServiceNodes` finds. -/
def nodesOf (svcs : String) : Except Err (Map String Node) :=
  (serviceNodeSets svcs).run.answered cl.answer

/-- The nodes an address of these services is announced towards. -/
def targets (svcs : String) : Finset Node :=
  match cl.nodesOf svcs with
  | .ok nodeSets => nodeSets.values
  | .error _ => ∅

/-- The announcements that a `Used` map calls for. -/
def table (usage : Map String String) (ip : String) : Option (Finset Node) :=
  (usage.get ip).bind fun svcs =>
    if (cl.targets svcs).Nonempty then some (cl.targets svcs) else none

/-- Every service that a `Used` map lists is there, with its endpoints. -/
def Resolves (usage : Map String String) : Prop :=
  ∀ ip svcs, usage.get ip = some svcs → ∃ nodeSets, cl.nodesOf svcs = .ok nodeSets

instance (svcs : String) : Decidable (∃ nodeSets, cl.nodesOf svcs = .ok nodeSets) :=
  match cl.nodesOf svcs with
  | .ok nodeSets => isTrue ⟨nodeSets, rfl⟩
  | .error _ => isFalse fun ⟨_, hok⟩ => nomatch hok

instance (usage : Map String String) : Decidable (cl.Resolves usage) :=
  decidable_of_iff _ Map.forall_entries.symm

end ClusterView

/-! ## Nodes of a service -/

/-- The requests that `getServiceNodes` sends. -/
def SpeakerCall.isRead : SpeakerCall → Bool
  | .listNodes | .getService _ | .getEndpoints _ => true
  | _ => false

theorem gatherNodes_all (nodeList : List Node) (strs : List String) (nodeSets : Map String Node) :
    (gatherNodes nodeList strs nodeSets).run.All (·.isRead) := by
  induction strs generalizing nodeSets with
  | nil => trivial
  | cons str strs ih =>
    rw [gatherNodes]
    split
    · refine ⟨rfl, fun r => all_except_bind trivial fun svc => ⟨rfl, fun r' => ?_⟩⟩
      refine all_except_bind trivial fun endpoints => ?_
      split
      · split
        · exact ih _
        · exact ih _
      · exact ih _
    · exact ih _

theorem serviceNodeSets_all (svcs : String) : (serviceNodeSets svcs).run.All (·.isRead) :=
  ⟨rfl, fun _ => all_except_bind trivial fun _ => gatherNodes_all _ _ _⟩

section Fixed
variable {cl : ClusterView} {fails : Bool} {s : SpeakerState}

theorem ClusterView.exec_read {c : SpeakerCall} {r : SpeakerReply c} {s' : SpeakerState}
    (hc : c.isRead) (he : cl.exec fails c s r s') : r = cl.answer c ∧ s' = s := by
  cases c <;> first | exact he | cases hc

theorem ranges_values {m : Map String Node} {names : List String} (h : m.Ranges names) :
    (names.filterMap m.get).toFinset = m.values := by
  ext node
  rw [List.mem_toFinset, List.mem_filterMap, Map.mem_values]
  constructor
  · rintro ⟨name, -, hn⟩
    exact ⟨name, hn⟩
  · rintro ⟨name, hn⟩
    exact ⟨name, h.mem hn, hn⟩

section Reads
variable {σ : Type} {exec : (c : SpeakerCall) → σ → SpeakerReply c → σ → Prop} {I : σ → Prop}

/-- `getServiceNodes` returns the nodes of the map in the order of its loop, or the error
of the request that failed.  All that is used of the calls is what they answer, and that
they keep `I`. -/
theorem wp_getServiceNodes_ranges
    (hread : ∀ c s r s', c.isRead → exec c s r s' → I s → r = cl.answer c ∧ I s')
    (hrange : ∀ m s r s', exec (.rangeNodes m) s r s' → I s → m.Ranges r ∧ I s')
    {s : σ} (hs : I s) (svcs : String) : Wp exec
    (either (fun nodes s' => I s' ∧ ∃ nodeSets names, cl.nodesOf svcs = .ok nodeSets ∧
        nodeSets.Ranges names ∧ nodes = names.filterMap nodeSets.get)
      fun e s' => I s' ∧ cl.nodesOf svcs = .error e)
    (getServiceNodes svcs).run s := by
  rw [getServiceNodes, wp_except_bind]
  refine Wp.of_answers (serviceNodeSets_all svcs) hread hs fun s₁ hs₁ => ?_
  show either _ _ (cl.nodesOf svcs) s₁
  cases hn : cl.nodesOf svcs with
  | error e => exact ⟨hs₁, rfl⟩
  | ok nodeSets =>
    intro names s' he
    obtain ⟨hnames, hs'⟩ := hrange nodeSets s₁ names s' he hs₁
    exact ⟨hs', nodeSets, names, rfl, hnames, rfl⟩

/-- These are the targets. -/
theorem wp_getServiceNodes_of
    (hread : ∀ c s r s', c.isRead → exec c s r s' → I s → r = cl.answer c ∧ I s')
    (hrange : ∀ m s r s', exec (.rangeNodes m) s r s' → I s → m.Ranges r ∧ I s')
    {s : σ} (hs : I s) (svcs : String) : Wp exec
    (either (fun nodes s' => I s' ∧ nodes.toFinset = cl.targets svcs ∧
        ∃ nodeSets, cl.nodesOf svcs = .ok nodeSets)
      fun e s' => I s' ∧ cl.nodesOf svcs = .error e)
    (getServiceNodes svcs).run s := by
  refine (wp_getServiceNodes_ranges hread hrange hs svcs).mono fun r s₁ hr => ?_
  cases r with
  | error e => exact hr
  | ok nodes =>
    obtain ⟨hs₁, nodeSets, names, hn, hnames, rfl⟩ := hr
    refine ⟨hs₁, ?_, nodeSets, hn⟩
    rw [ranges_values hnames, ClusterView.targets, hn]

end Reads

theorem wp_getServiceNodes (svcs : String) : Wp (cl.exec fails)
    (either (fun nodes s' => s' = s ∧ nodes.toFinset = cl.targets svcs ∧
        ∃ nodeSets, cl.nodesOf svcs = .ok nodeSets)
      fun e s' => s' = s ∧ cl.nodesOf svcs = .error e)
    (getServiceNodes svcs).run s := by
  refine wp_getServiceNodes_of (I := (· = s)) ?_ ?_ rfl svcs
  · rintro c s₁ r s₂ hc he rfl
    exact ClusterView.exec_read hc he
  · rintro m s₁ r s₂ he rfl
    exact he

/-! ## Announcing -/

/-- The state after an address has been done: announced, if it has nodes. -/
def SpeakerState.offer (cl : ClusterView) (protocol : String) (usage : Map String String)
    (s : SpeakerState) (ip : String) : SpeakerState :=
  s.put protocol ip ((cl.table usage ip).or (s.announced protocol ip))

/-- The state after `setBalancer`: addresses without nodes are passed over. -/
def SpeakerState.announce (cl : ClusterView) (protocol : String) (usage : Map String String)
    (s : SpeakerState) : SpeakerState :=
  { s with announced := fun p ip =>
      if p = protocol then (cl.table usage ip).or (s.announced p ip) else s.announced p ip }

theorem SpeakerState.foldl_offer {protocol : String} {usage : Map String String}
    {ips : List String} (hips : usage.Ranges ips) :
    ips.foldl (SpeakerState.offer cl protocol usage) s = s.announce cl protocol usage := by
  have hfold : ∀ (l : List String) (s : SpeakerState),
      l.foldl (SpeakerState.offer cl protocol usage) s =
        { s with announced := fun p ip =>
            if p = protocol ∧ ip ∈ l then (cl.table usage ip).or (s.announced p ip)
            else s.announced p ip } := by
    intro l
    induction l with
    | nil => simp
    | cons i l ih =>
      intro s
      rw [List.foldl_cons, ih]
      simp only [SpeakerState.offer, SpeakerState.put, SpeakerState.mk.injEq, true_and]
      funext p ip
      by_cases hp : p = protocol
      · subst hp
        by_cases hi : ip = i
        · subst hi
          by_cases hl : ip ∈ l
          · simp [hl, ← Option.or_assoc]
          · simp [hl]
        · simp [hi]
      · simp [hp]
  rw [hfold, SpeakerState.announce]
  congr 1
  funext p ip
  by_cases hip : ip ∈ ips
  · simp [hip]
  · have hnone : usage.get ip = none := by
      rw [← Option.not_isSome_iff_eq_none, ← hips.2]
      exact hip
    simp [hip, ClusterView.table, hnone]

/-- The loop of `setBalancer` does the addresses in turn.  It fails where a speaker
fails, or where a service is not found. -/
theorem wp_setBalancers {protocol : String} {usage : Map String String} {ips : List String}
    (hips : ∀ ip ∈ ips, ∃ svcs, usage.get ip = some svcs) : Wp (cl.exec fails)
    (either (fun _ s' => s' = ips.foldl (SpeakerState.offer cl protocol usage) s)
      fun _ s' => s'.pools = s.pools ∧ (fails = true ∨ ¬ cl.Resolves usage))
    (setBalancers protocol usage ips).run s := by
  induction ips generalizing s with
  | nil => exact rfl
  | cons ip ips ih =>
    obtain ⟨svcs, hsvcs⟩ := hips ip List.mem_cons_self
    have hrest := fun s => @ih s fun i hi => hips i (List.mem_cons_of_mem ip hi)
    rw [setBalancers, hsvcs, Option.getD_some, wp_except_bind]
    refine (wp_getServiceNodes svcs).mono fun r s₁ hr => ?_
    cases r with
    | error e =>
      obtain ⟨rfl, herr⟩ := hr
      refine ⟨rfl, Or.inr fun hres => ?_⟩
      obtain ⟨nodeSets, hok⟩ := hres ip svcs hsvcs
      rw [hok] at herr
      cases herr
    | ok nodes =>
      obtain ⟨rfl, hnodes, -⟩ := hr
      have htable : cl.table usage ip = if nodes = [] then none else some nodes.toFinset := by
        rw [ClusterView.table, hsvcs, Option.bind_some, ← hnodes]
        by_cases hnil : nodes = []
        · simp [hnil]
        · simp [hnil]
      rw [either_ok, List.foldl_cons, SpeakerState.offer, htable]
      split
      · -- an address without nodes is passed over
        have hput : s₁.put protocol ip (Option.or none (s₁.announced protocol ip)) = s₁ := by
          simp only [SpeakerState.put, Option.none_or]
          congr 1
          funext p i
          split
          · rename_i h
            rw [h.1, h.2]
          · rfl
        rw [hput]
        exact hrest s₁
      · rintro r s₂ (⟨rfl, rfl⟩ | ⟨hf, ⟨e, rfl⟩, rfl⟩)
        · exact hrest _
        · exact ⟨rfl, Or.inl hf⟩

/-- **`setBalancer` over a fixed cluster**: every address with nodes is announced. -/
theorem wp_setBalancer {protocol : String} {usage : Map String String} : Wp (cl.exec fails)
    (either (fun _ s' => s' = s.announce cl protocol usage)
      fun _ s' => s'.pools = s.pools ∧ (fails = true ∨ ¬ cl.Resolves usage))
    (setBalancer protocol usage).run s := by
  rintro ips s₁ ⟨hips, rfl⟩
  refine (wp_setBalancers fun ip hip => hips.get_isSome hip).mono fun r s₂ hr => ?_
  cases r with
  | ok _ => exact hr.trans (SpeakerState.foldl_offer hips)
  | error e => exact hr

end Fixed

/-! ## Withdrawing -/

/-- The state after `delBalancer`. -/
def SpeakerState.withdraw (s : SpeakerState) (protocol : String) (usage : Map String String) :
    SpeakerState :=
  { s with announced := fun p ip =>
      if p = protocol ∧ (usage.get ip).isSome then none else s.announced p ip }

section Anything
variable {reads : (c : SpeakerCall) → SpeakerReply c → Prop} {fails : Bool} {s : SpeakerState}

/-- The loop of `delBalancer` withdraws the addresses, unless a speaker fails. -/
theorem wp_delBalancers {protocol : String} {ips : List String} : Wp (speakerExec reads fails)
    (either (fun _ s' => s' = ips.foldl (fun s ip => s.put protocol ip none) s)
      fun _ s' => s'.pools = s.pools ∧ fails = true)
    (delBalancers protocol ips).run s := by
  induction ips generalizing s with
  | nil => exact rfl
  | cons ip ips ih =>
    rintro r s₁ (⟨rfl, rfl⟩ | ⟨hf, ⟨e, rfl⟩, rfl⟩)
    · exact ih
    · exact ⟨rfl, hf⟩

theorem foldl_put_none (protocol : String) (ips : List String) (s : SpeakerState) :
    ips.foldl (fun s ip => s.put protocol ip none) s =
      { s with announced := fun p ip =>
          if p = protocol ∧ ip ∈ ips then none else s.announced p ip } := by
  induction ips generalizing s with
  | nil => simp
  | cons i ips ih =>
    rw [List.foldl_cons, ih]
    simp only [SpeakerState.put, SpeakerState.mk.injEq, true_and]
    funext p ip
    by_cases hp : p = protocol
    · by_cases hi : ip = i
      · simp [hp, hi]
      · simp [hp, hi]
    · simp [hp]

/-- **`delBalancer`**: every address of the map is withdrawn. -/
theorem wp_delBalancer {protocol : String} {usage : Map String String} :
    Wp (speakerExec reads fails)
      (either (fun _ s' => s' = s.withdraw protocol usage)
        fun _ s' => s'.pools = s.pools ∧ fails = true)
      (delBalancer protocol usage).run s := by
  rintro ips s₁ ⟨hips, rfl⟩
  refine wp_delBalancers.mono fun r s₂ hr => ?_
  cases r with
  | error e => exact hr
  | ok _ =>
    refine hr.trans ?_
    rw [foldl_put_none, SpeakerState.withdraw]
    simp only [hips.2]

end Anything

/-! ## With an Eip -/

/-- The address of an Eip is a range. -/
def Eip.Readable (e : Eip) : Prop := ∃ r, IpRange.parseRange e.spec.address = .ok r

theorem wp_delBalancerWithEIP {reads : (c : SpeakerCall) → SpeakerReply c → Prop} {fails : Bool}
    {s : SpeakerState} {eip : Eip} : Wp (speakerExec reads fails)
    (either (fun _ s' => eip.Readable ∧ s' = s.withdraw eip.getProtocol eip.status.used)
      fun _ s' => s'.pools = s.pools ∧ (fails = true ∨ ¬ eip.Readable))
    (delBalancerWithEIP eip).run s := by
  rw [delBalancerWithEIP, wp_except_bind]
  refine wp_delBalancer.mono fun r s₁ hr => ?_
  cases r with
  | error e => exact ⟨hr.1, Or.inl hr.2⟩
  | ok _ =>
    rw [either_ok] at hr ⊢
    subst hr
    cases hread : IpRange.parseRange eip.spec.address with
    | error msg =>
      refine ⟨rfl, Or.inr ?_⟩
      rintro ⟨rg, hrg⟩
      rw [hread] at hrg
      cases hrg
    | ok rg =>
      rintro r s₂ ⟨rfl | ⟨hf, e, rfl⟩, rfl⟩
      · exact ⟨⟨rg, hread⟩, rfl⟩
      · exact ⟨rfl, Or.inl hf⟩

section Fixed
variable {cl : ClusterView} {fails : Bool} {s : SpeakerState} {eip : Eip}

theorem wp_setBalancerWithEIP : Wp (cl.exec fails)
    (either (fun _ s' => eip.Readable ∧ s' = s.announce cl eip.getProtocol eip.status.used)
      fun _ s' => s'.pools = s.pools ∧
        (fails = true ∨ ¬ cl.Resolves eip.status.used ∨ ¬ eip.Readable ∧ s' = s))
    (setBalancerWithEIP eip).run s := by
  rw [setBalancerWithEIP]
  cases hread : IpRange.parseRange eip.spec.address with
  | error msg =>
    refine ⟨rfl, Or.inr (Or.inr ⟨?_, rfl⟩)⟩
    rintro ⟨rg, hrg⟩
    rw [hread] at hrg
    cases hrg
  | ok rg =>
    rintro r s₁ ⟨rfl | ⟨hf, e, rfl⟩, rfl⟩
    · refine wp_setBalancer.mono fun r s₂ hr => ?_
      cases r with
      | ok _ => exact ⟨⟨rg, hread⟩, hr⟩
      | error e => exact ⟨hr.1, hr.2.imp_right Or.inl⟩
    · exact ⟨rfl, Or.inl hf⟩

/-! ## Following an Eip -/

/-- The state that `HandleEIP` leaves when it returns nil, for an Eip that it has on
record. -/
def SpeakerState.updated (cl : ClusterView) (s : SpeakerState) (oldData eip : Eip) : SpeakerState :=
  if eip.deletionTimestamp then
    { s.withdraw oldData.getProtocol oldData.status.used with pools := s.pools.delete eip.name }
  else if isSpeakerConfigUpdate eip.spec oldData.spec then
    { (s.withdraw oldData.getProtocol oldData.status.used).announce cl
        eip.getProtocol eip.status.used with
      pools := (s.pools.delete eip.name).set eip.name eip }
  else if eip.status.used ≠ oldData.status.used then
    { (s.withdraw eip.getProtocol (oldData.status.used.without eip.status.used)).announce cl
        eip.getProtocol (eip.status.used.without oldData.status.used) with
      pools := s.pools.set eip.name eip }
  else s

/-- The state that `HandleEIP` leaves when it returns nil, for a new Eip. -/
def SpeakerState.added (cl : ClusterView) (s : SpeakerState) (eip : Eip) : SpeakerState :=
  { s.announce cl eip.getProtocol eip.status.used with pools := s.pools.set eip.name eip }

theorem ClusterView.Resolves.without {usage old : Map String String} (h : cl.Resolves usage) :
    cl.Resolves (usage.without old) := by
  intro ip svcs hip
  rw [Map.get_without] at hip
  split at hip
  · exact h ip svcs hip
  · cases hip

theorem wp_handleKnownEIP {oldData : Eip} : Wp (cl.exec fails)
    (either (fun _ s' => s' = s.updated cl oldData eip)
      fun _ s' => (s'.pools = s.pools ∨ s'.pools = s.pools.delete eip.name) ∧
        (fails = true ∨ ¬ cl.Resolves eip.status.used ∨ ¬ oldData.Readable ∨ ¬ eip.Readable))
    (handleKnownEIP oldData eip).run s := by
  rw [handleKnownEIP, SpeakerState.updated]
  split
  · refine wp_except_bind.mpr (wp_delBalancerWithEIP.mono fun r s₁ hr => ?_)
    cases r with
    | error e => exact ⟨Or.inl hr.1, hr.2.imp_right fun h => Or.inr (Or.inl h)⟩
    | ok _ =>
      rintro _ s₂ rfl
      rw [hr.2]
      rfl
  split
  · refine wp_except_bind.mpr (wp_delBalancerWithEIP.mono fun r s₁ hr => ?_)
    cases r with
    | error e => exact ⟨Or.inl hr.1, hr.2.imp_right fun h => Or.inr (Or.inl h)⟩
    | ok _ =>
      rintro _ s₂ rfl
      refine wp_except_bind.mpr (wp_setBalancerWithEIP.mono fun r s₃ hr' => ?_)
      obtain ⟨-, rfl⟩ := hr
      cases r with
      | error e =>
        refine ⟨Or.inr hr'.1, hr'.2.imp_right fun h => h.imp_right fun h => Or.inr h.1⟩
      | ok _ =>
        rintro _ s₄ rfl
        rw [hr'.2]
        rfl
  split
  · refine wp_except_bind.mpr (wp_delBalancer.mono fun r s₁ hr => ?_)
    cases r with
    | error e => exact ⟨Or.inl hr.1, Or.inl hr.2⟩
    | ok _ =>
      refine wp_except_bind.mpr (wp_setBalancer.mono fun r s₂ hr' => ?_)
      rw [either_ok] at hr
      subst hr
      cases r with
      | error e =>
        exact ⟨Or.inl hr'.1, hr'.2.imp_right fun h => Or.inl fun hres => h hres.without⟩
      | ok _ =>
        rintro _ s₃ rfl
        rw [hr']
        rfl
  · exact rfl

/-- **`HandleEIP` over a fixed cluster.**  When it returns an error, a speaker has failed,
a service is missing, an address is no range, or the protocol has no speaker. -/
theorem wp_handleEIP {speakers : List String} : Wp (cl.exec fails)
    (either (fun _ s' =>
        s.pools.get eip.name = none ∧ eip.Readable ∧ s' = s.added cl eip ∨
        ∃ oldData, s.pools.get eip.name = some oldData ∧ s' = s.updated cl oldData eip)
      fun _ s' => (s'.pools = s.pools ∨ s'.pools = s.pools.delete eip.name) ∧
        (fails = true ∨ ¬ cl.Resolves eip.status.used ∨ eip.getProtocol ∉ speakers ∨
          s.pools.get eip.name = none ∧ ¬ eip.Readable ∧ s' = s ∨
          ∃ oldData, s.pools.get eip.name = some oldData ∧
            (¬ oldData.Readable ∨ ¬ eip.Readable)))
    (handleEIP speakers eip).run s := by
  rw [handleEIP]
  split
  · rename_i hproto
    exact ⟨Or.inl rfl, Or.inr (Or.inr (Or.inl hproto))⟩
  simp only [ask_bind, wp_call]
  rintro entry s₁ ⟨rfl, rfl⟩
  cases hrec : s₁.pools.get eip.name with
  | none =>
    refine wp_except_bind.mpr (wp_setBalancerWithEIP.mono fun r s₂ hr => ?_)
    cases r with
    | error e =>
      obtain ⟨hpools, hf | hres | hread⟩ := hr
      · exact ⟨Or.inl hpools, Or.inl hf⟩
      · exact ⟨Or.inl hpools, Or.inr (Or.inl hres)⟩
      · exact ⟨Or.inl hpools, Or.inr (Or.inr (Or.inr (Or.inl ⟨rfl, hread⟩)))⟩
    | ok _ =>
      obtain ⟨hread, rfl⟩ := hr
      rintro _ s₃ rfl
      exact Or.inl ⟨rfl, hread, rfl⟩
  | some oldData =>
    refine wp_handleKnownEIP.mono fun r s₂ hr => ?_
    cases r with
    | ok _ => exact Or.inr ⟨oldData, rfl, hr⟩
    | error e =>
      obtain ⟨hpools, hf | hres | hread⟩ := hr
      · exact ⟨hpools, Or.inl hf⟩
      · exact ⟨hpools, Or.inr (Or.inl hres)⟩
      · exact ⟨hpools, Or.inr (Or.inr (Or.inr (Or.inr ⟨oldData, rfl, hread⟩)))⟩

end Fixed

/-! ## One version after the other -/

/-- `HandleEIP` is called with the versions in turn, each over a cluster of its own,
and whatever the calls return. -/
inductive Handled (fails : Bool) (speakers : List String) :
    SpeakerState → List (ClusterView × Eip) → SpeakerState → Prop
  | nil {s : SpeakerState} : Handled fails speakers s [] s
  | cons {s s₁ s₂ : SpeakerState} {cl : ClusterView} {v : Eip} {vs : List (ClusterView × Eip)}
      {l : List (Event SpeakerCall SpeakerReply)} {r : Except Err Unit} :
      Run (cl.exec fails) s (handleEIP speakers v).run l r s₁ → Handled fails speakers s₁ vs s₂ →
      Handled fails speakers s ((cl, v) :: vs) s₂

/-! ## Running the code -/

/-- The answers of a cluster, with the maps ranged over in the given order and the
speaker calls that `failing` tells failing. -/
def ClusterView.run (cl : ClusterView) (order : List String) (failing : SpeakerCall → Bool) :
    (c : SpeakerCall) → SpeakerState → Option (SpeakerReply c × SpeakerState)
  | .getPool name, s => some (s.pools.get name, s)
  | .setPool name eip, s => some ((), { s with pools := s.pools.set name eip })
  | .deletePool name, s => some ((), { s with pools := s.pools.delete name })
  | .rangeUsage usage, s =>
    let keys := order.filter fun key => (usage.get key).isSome
    if usage.Ranges keys then some (keys, s) else none
  | .rangeNodes nodeSets, s =>
    let keys := order.filter fun key => (nodeSets.get key).isSome
    if nodeSets.Ranges keys then some (keys, s) else none
  | .setBalancer protocol ip nexthops, s =>
    if failing (.setBalancer protocol ip nexthops) then some (.error (.text "failed"), s)
    else some (.ok (), s.put protocol ip (some nexthops.toFinset))
  | .delBalancer protocol ip, s =>
    if failing (.delBalancer protocol ip) then some (.error (.text "failed"), s)
    else some (.ok (), s.put protocol ip none)
  | .configureWithEIP _ _ _ _ _, s => some (.ok (), s)
  | .getEip name, s => some (cl.answer (.getEip name), s)
  | .listEips, s => some (cl.answer .listEips, s)
  | .listNodes, s => some (cl.answer .listNodes, s)
  | .getService k, s => some (cl.answer (.getService k), s)
  | .getEndpoints k, s => some (cl.answer (.getEndpoints k), s)

theorem ClusterView.exec_of_run {cl : ClusterView} {order : List String}
    {failing : SpeakerCall → Bool} {fails : Bool} (hf : ∀ c, failing c = true → fails = true)
    (c : SpeakerCall) (s : SpeakerState) (r : SpeakerReply c) (s' : SpeakerState)
    (h : cl.run order failing c s = some (r, s')) : cl.exec fails c s r s' := by
  cases c with
  | rangeUsage usage =>
    obtain ⟨hr, he⟩ := Option.ite_none_right_eq_some.mp h
    cases he
    exact ⟨hr, rfl⟩
  | rangeNodes nodeSets =>
    obtain ⟨hr, he⟩ := Option.ite_none_right_eq_some.mp h
    cases he
    exact ⟨hr, rfl⟩
  | setBalancer protocol ip nexthops =>
    simp only [ClusterView.run] at h
    split at h
    · rename_i hfail
      cases h
      exact Or.inr ⟨hf _ hfail, ⟨_, rfl⟩, rfl⟩
    · cases h
      exact Or.inl ⟨rfl, rfl⟩
  | delBalancer protocol ip =>
    simp only [ClusterView.run] at h
    split at h
    · rename_i hfail
      cases h
      exact Or.inr ⟨hf _ hfail, ⟨_, rfl⟩, rfl⟩
    · cases h
      exact Or.inl ⟨rfl, rfl⟩
  | configureWithEIP protocol name iface r' deleted =>
    cases h
    exact ⟨Or.inl rfl, rfl⟩
  | setPool name eip =>
    cases h
    exact rfl
  | deletePool name =>
    cases h
    exact rfl
  | _ =>
    cases h
    exact ⟨rfl, rfl⟩

/-- The state that a call of `HandleEIP` is evaluated to. -/
def ClusterView.after (cl : ClusterView) (order : List String) (failing : SpeakerCall → Bool)
    (speakers : List String) (s : SpeakerState) (v : Eip) : SpeakerState :=
  ((Prog.eval (cl.run order failing) (handleEIP speakers v).run s).map (·.2)).getD s

/-- What it returns, if the order covers the maps it ranges over. -/
def ClusterView.returns (cl : ClusterView) (order : List String) (failing : SpeakerCall → Bool)
    (speakers : List String) (s : SpeakerState) (v : Eip) : Option (Except Err Unit) :=
  (Prog.eval (cl.run order failing) (handleEIP speakers v).run s).map (·.1)

/-- What a call is evaluated to, it may return and leave. -/
theorem ClusterView.run_after {cl : ClusterView} {order : List String}
    {failing : SpeakerCall → Bool} {fails : Bool} (hf : ∀ c, failing c = true → fails = true)
    {speakers : List String} {s : SpeakerState} {v : Eip} {r : Except Err Unit}
    (h : cl.returns order failing speakers s v = some r) :
    ∃ l, Run (cl.exec fails) s (handleEIP speakers v).run l r
      (cl.after order failing speakers s v) := by
  obtain ⟨⟨r', s'⟩, he, rfl⟩ := Option.map_eq_some_iff.mp h
  rw [ClusterView.after, he]
  exact run_eval (ClusterView.exec_of_run hf) he

/-- No speaker call fails. -/
def noneFails : SpeakerCall → Bool := fun _ => false

theorem noneFails_imp {fails : Bool} (c : SpeakerCall) (h : noneFails c = true) :
    fails = true := nomatch (h : false = true)

theorem Handled.cons_after {cl : ClusterView} {order : List String}
    {failing : SpeakerCall → Bool} {fails : Bool} (hf : ∀ c, failing c = true → fails = true)
    {speakers : List String} {s s' : SpeakerState} {v : Eip} {vs : List (ClusterView × Eip)}
    {r : Except Err Unit} (h : cl.returns order failing speakers s v = some r)
    (hrest : Handled fails speakers (cl.after order failing speakers s v) vs s') :
    Handled fails speakers s ((cl, v) :: vs) s' := by
  obtain ⟨l, hrun⟩ := ClusterView.run_after hf h
  exact Handled.cons hrun hrest

/-! ## A cluster to run it on -/

theorem validName_ns : ValidName "ns" := by decide
theorem validName_a : ValidName "a" := by decide
theorem validName_b : ValidName "b" := by decide
theorem edge_ne_empty : "edge" ≠ "" := by decide

/-- A service that is announced only from the nodes that host it. -/
def hostedService (name : String) (h : ValidName name) : Service where
  ns := "ns"
  name := name
  externalTrafficPolicy := .onlyLocal
  ns_valid := validName_ns
  name_valid := h

/-- Two nodes, with one service hosted on each. -/
def twoHosts : ClusterView where
  nodes := [{ name := "n1" }, { name := "n2" }]
  service k :=
    if k = ⟨"ns", "a"⟩ then some (hostedService "a" validName_a)
    else if k = ⟨"ns", "b"⟩ then some (hostedService "b" validName_b)
    else none
  endpoints k :=
    if k = ⟨"ns", "a"⟩ then some { subsets := [{ addresses := [{ nodeName := some "n1" }] }] }
    else if k = ⟨"ns", "b"⟩ then some { subsets := [{ addresses := [{ nodeName := some "n2" }] }] }
    else none

/-- A version of a layer 2 Eip with these addresses in use. -/
def edgeEip (used : List (String × String)) : Eip where
  name := "edge"
  spec := { address := "192.0.2.0/24", protocol := "layer2", interface := "eth0" }
  status := { used := Map.ofList used }
  name_ne := edge_ne_empty

/-- The order in which its maps are ranged over. -/
def edgeOrder : List String := ["192.0.2.1", "192.0.2.2", "n1", "n2"]

end OpenELB
