import OpenELB.ServiceNodes

/-! # Changes of a service's endpoints

When the endpoints of a service with the policy `Local` change, `HandleService` is to
announce its addresses towards their new nodes.  It takes the services of an address from
the pool's record, adds the service itself, and goes through `setBalancer`.  But an address
that the record lists for this service alone is passed over, so it is announced anew only
if it is shared (`serviceEvent_iff`). -/
namespace OpenELB
open Go Prog

/-! ## The addresses that are done -/

section Ingress
variable {used ingress ingress' : Map String String} {addr : Option IpRange.Range} {svc : Service}
  {ips : List LoadBalancerIngress} {ip value : String}

/-- The address is listed for the service alone, or is outside the range. -/
def PassedOver (used : Map String String) (addr : Option IpRange.Range) (svc : Service)
    (ip : String) : Prop :=
  (used.get ip).getD "" = svc.key.text ∨
    ∀ r, addr = some r → r.contains ((parseIP ip).getD []) = false

instance : Decidable (PassedOver used addr svc ip) :=
  match addr with
  | none => isTrue (.inr fun _ h => nomatch h)
  | some r => decidable_of_iff ((used.get ip).getD "" = svc.key.text ∨
      r.contains ((parseIP ip).getD []) = false) (or_congr_right (by simp))

/-- The loop enters an address of the service unless it passes it over. -/
theorem get_ingressUsage (h : ingressUsage used addr svc ips ingress = .ok ingress') :
    ingress'.get ip = if ip ∈ ips.map LoadBalancerIngress.ip ∧ ¬ PassedOver used addr svc ip then
      some (sharedWith used svc ip) else ingress.get ip := by
  induction ips generalizing ingress with
  | nil =>
    cases h
    rw [if_neg fun h => List.not_mem_nil h.1]
  | cons i ips ih =>
    -- an address passed over is entered by none of its occurrences
    have hskip : PassedOver used addr svc i.ip →
        ((ip ∈ (i :: ips).map LoadBalancerIngress.ip ∧ ¬ PassedOver used addr svc ip) ↔
          ip ∈ ips.map LoadBalancerIngress.ip ∧ ¬ PassedOver used addr svc ip) := by
      intro hover
      rw [List.map_cons, List.mem_cons]
      constructor
      · rintro ⟨rfl | hmem, hnot⟩
        · exact absurd hover hnot
        · exact ⟨hmem, hnot⟩
      · exact fun h => ⟨.inr h.1, h.2⟩
    rw [ingressUsage.eq_def] at h
    dsimp only at h
    split at h
    · rename_i halone
      rw [ih h]
      simp only [hskip (.inl halone)]
    · rename_i hshared
      cases addr with
      | none => cases h
      | some r =>
        dsimp only at h
        split at h
        · rename_i hin
          have hnot : ¬ PassedOver used (some r) svc i.ip := by
            rintro (halone | hout)
            · exact hshared halone
            · rw [hout r rfl] at hin
              cases hin
          rw [ih h, Map.get_set, List.map_cons]
          by_cases hi : ip = i.ip
          · subst hi
            simp [hnot]
          · simp [hi]
        · rename_i hout
          have hover : PassedOver used (some r) svc i.ip := by
            refine .inr fun r' hr => ?_
            cases hr
            rw [Bool.not_eq_true] at hout
            exact hout
          rw [ih h]
          simp only [hskip hover]

end Ingress

/-! ## What is announced -/

section Targets
variable {cl : ClusterView} {svcs : String}

theorem mem_targets (hcl : cl.Valid) (hlists : cl.Lists svcs) (node : Node) :
    node ∈ cl.targets svcs ↔ node ∈ cl.nodes ∧ ∃ str ∈ split ';' svcs, cl.LeadsTo str node := by
  obtain ⟨m, hm, hcollects⟩ := nodesOf_of_lists hcl hlists
  rw [ClusterView.targets, hm]
  dsimp only
  rw [Map.mem_values]
  constructor
  · rintro ⟨name, hget⟩
    exact ((hcollects name node).mp hget).2
  · exact fun h => ⟨node.name, (hcollects node.name node).mpr ⟨rfl, h⟩⟩

theorem ClusterView.Lists.mono {svcs' : String} (hlists : cl.Lists svcs')
    (hsub : ∀ str ∈ split ';' svcs, str ∈ split ';' svcs') : cl.Lists svcs :=
  fun str hstr => hlists str (hsub str hstr)

/-- The nodes of an address, service by service. -/
theorem targets_eq_biUnion (hcl : cl.Valid) (hlists : cl.Lists svcs) :
    cl.targets svcs = (split ';' svcs).toFinset.biUnion cl.targets := by
  have hone : ∀ str ∈ split ';' svcs, split ';' str = [str] :=
    fun str hstr => split_of_notMem (notMem_of_mem_split hstr)
  have hlist : ∀ str ∈ split ';' svcs, cl.Lists str := by
    refine fun str hstr => hlists.mono fun str' hstr' => ?_
    rw [hone str hstr, List.mem_singleton] at hstr'
    exact hstr' ▸ hstr
  ext node
  rw [mem_targets hcl hlists, Finset.mem_biUnion]
  constructor
  · rintro ⟨hnode, str, hstr, hleads⟩
    refine ⟨str, List.mem_toFinset.mpr hstr, (mem_targets hcl (hlist str hstr) node).mpr ?_⟩
    rw [hone str hstr]
    exact ⟨hnode, str, List.mem_singleton_self str, hleads⟩
  · rintro ⟨str, hstr, hmem⟩
    rw [List.mem_toFinset] at hstr
    obtain ⟨hnode, str', hstr', hleads⟩ := (mem_targets hcl (hlist str hstr) node).mp hmem
    rw [hone str hstr, List.mem_singleton] at hstr'
    exact ⟨hnode, str, hstr, hstr' ▸ hleads⟩

/-- Listing a service once more does not change the nodes. -/
theorem targets_append (hcl : cl.Valid) (hlists : cl.Lists svcs) {key : String}
    (hkey : key ∈ split ';' svcs) : cl.targets (svcs ++ ";" ++ key) = cl.targets svcs := by
  have hsplit : split ';' (svcs ++ ";" ++ key) = split ';' svcs ++ [key] :=
    split_append (notMem_of_mem_split hkey)
  have hmem : ∀ str, str ∈ split ';' (svcs ++ ";" ++ key) ↔ str ∈ split ';' svcs := by
    intro str
    rw [hsplit, List.mem_append, List.mem_singleton]
    constructor
    · rintro (h | rfl)
      · exact h
      · exact hkey
    · exact .inl
  ext node
  rw [mem_targets hcl (hlists.mono fun str => (hmem str).mp), mem_targets hcl hlists]
  simp only [hmem]

end Targets

section Handled
variable {cl : ClusterView} {fails : Bool} {s s' : SpeakerState} {svc : Service} {eip : Eip}
  {ip value : String} {l : List (Event SpeakerCall SpeakerReply)}

/-- `HandleService` returns nil: it has done nothing for a service that is being deleted,
and otherwise has announced the addresses it has not passed over. -/
theorem wp_handleService (hpool : s.pools.get (getSvcEIPUsed svc) = some eip) : Wp (cl.exec fails)
    (either (fun _ s' => svc.deletionTimestamp = true ∧ s' = s ∨ svc.deletionTimestamp = false ∧
        ∃ addr ingress, IpRange.parseRange eip.spec.address = .ok addr ∧
          ingressUsage eip.status.used addr svc (svc.ingress.getD []) Map.empty = .ok ingress ∧
          s' = s.announce cl eip.getProtocol ingress) fun _ _ => True)
    (handleService svc).run s := by
  rw [handleService]
  by_cases hdel : svc.deletionTimestamp = true
  · rw [if_pos hdel]
    exact .inl ⟨hdel, rfl⟩
  · rw [if_neg hdel]
    rw [Bool.not_eq_true] at hdel
    simp only [ask_bind, wp_call]
    rintro entry s₁ ⟨rfl, rfl⟩
    rw [hpool]
    dsimp only
    cases haddr : IpRange.parseRange eip.spec.address with
    | error msg => trivial
    | ok addr =>
      simp only [Except.mapError, must_ok_bind]
      cases hing : ingressUsage eip.status.used addr svc (svc.ingress.getD []) Map.empty with
      | error e => trivial
      | ok ingress =>
        simp only [must_ok_bind]
        refine wp_setBalancer.mono fun r s₂ hr => ?_
        cases r with
        | error e => trivial
        | ok _ => exact .inr ⟨hdel, addr, ingress, rfl, hing, hr⟩

/-- **When a change of the endpoints reaches the speaker.**  The record lists the address
for the service.  After `HandleService` has returned nil, the address is announced towards
the nodes of all services that share it, exactly if it is shared, the range of the Eip
contains it and the service is not being deleted, or if it was announced so before. -/
theorem serviceEvent_iff (hcl : cl.Valid) (hpool : s.pools.get (getSvcEIPUsed svc) = some eip)
    (hip : ip ∈ (svc.ingress.getD []).map LoadBalancerIngress.ip)
    (hused : eip.status.used.get ip = some value) (hlisted : svc.key.text ∈ split ';' value)
    (hlists : cl.Lists value) (hne : ((split ';' value).toFinset.biUnion cl.targets).Nonempty)
    (hrun : Run (cl.exec fails) s (handleService svc).run l (.ok ()) s') :
    s'.announced eip.getProtocol ip = some ((split ';' value).toFinset.biUnion cl.targets) ↔
      (svc.deletionTimestamp = false ∧ value ≠ svc.key.text ∧
        ∃ r, IpRange.parseRange eip.spec.address = .ok (some r) ∧
          r.contains ((parseIP ip).getD []) = true) ∨
      s.announced eip.getProtocol ip = some ((split ';' value).toFinset.biUnion cl.targets) := by
  rw [← targets_eq_biUnion hcl hlists] at hne ⊢
  rcases (wp_handleService hpool).of_run hrun with
    ⟨hdel, rfl⟩ | ⟨hlive, addr, ingress, haddr, hing, rfl⟩
  · simp [hdel]
  · have hentry := @get_ingressUsage _ _ _ _ _ _ ip hing
    simp only [hip, true_and, Map.get_empty] at hentry
    simp only [SpeakerState.announce, if_true, ClusterView.table, hentry]
    by_cases hover : PassedOver eip.status.used addr svc ip
    · -- nothing is done for the address
      rw [if_neg (not_not.mpr hover), Option.bind_none, Option.none_or]
      refine (or_iff_right ?_).symm
      rintro ⟨-, hshared, r, hr, hin⟩
      rw [haddr] at hr
      cases hr
      rcases hover with halone | hout
      · rw [hused, Option.getD_some] at halone
        exact hshared halone
      · rw [hout r rfl] at hin
        cases hin
    · rw [if_pos hover, Option.bind_some, sharedWith, hused]
      dsimp only
      rw [targets_append hcl hlists hlisted, if_pos hne, Option.some_or]
      refine iff_of_true rfl (.inl ⟨hlive, fun halone => ?_, ?_⟩)
      · exact hover (.inl (by rw [hused, Option.getD_some, halone]))
      · by_contra hnone
        refine hover (.inr fun r hr => ?_)
        rw [← Bool.not_eq_true]
        exact fun hin => hnone ⟨r, hr ▸ haddr, hin⟩

end Handled

/-! ## Events -/

/-- Where an event of endpoints leads: the filter lets it through exactly if their service
is one of the speaker's with the policy `Local`, and the reconciler calls `HandleService`
with it. -/
theorem endpoints_event {cl : ClusterView} {fails : Bool} {s : SpeakerState} {k : NamespacedName}
    {svc : Service} {annotations : Map String String} (hsvc : cl.service k = some svc)
    (hleader : annotations.get "control-plane.alpha.kubernetes.io/leader" = none) :
    Wp (cl.exec fails) (fun r s' => s' = s ∧ r = .ok (decide
        (svc.externalTrafficPolicy = .onlyLocal ∧ isSpeakerService svc = true)))
      (shouldReconcileEP annotations k).run s ∧
    ∀ Q, Wp (cl.exec fails) Q (handleService svc).run s →
      Wp (cl.exec fails) Q (reconcileLB k).run s := by
  have hread : ∀ r s', cl.exec fails (.getService k) s r s' → r = .ok svc ∧ s' = s := by
    rintro r s' ⟨rfl, rfl⟩
    refine ⟨?_, rfl⟩
    rw [ClusterView.answer, hsvc]
    rfl
  constructor
  · rw [shouldReconcileEP, hleader, Option.getD_none, if_neg (not_not.mpr rfl)]
    intro r s' he
    obtain ⟨rfl, rfl⟩ := hread r s' he
    exact ⟨rfl, rfl⟩
  · intro Q hQ r s' he
    obtain ⟨rfl, rfl⟩ := hread r s' he
    exact hQ

/-! ## An endpoint moves -/

/-- The service ns/a, with an address of the Eip. -/
def edgeService : Service :=
  { hostedService "a" validName_a with
    type := .loadBalancer
    labels := Map.ofList [(openELBEIPAnnotationKeyV1Alpha2, "edge")]
    ingress := some [{ ip := "192.0.2.1" }] }

/-- The two nodes, when n2 hosts the endpoints of all services. -/
def movedHost : ClusterView :=
  { twoHosts with
    endpoints := fun _ => some ⟨[{ addresses := [{ nodeName := some "n2" }] }]⟩ }

theorem movedHost_valid : movedHost.Valid := ⟨twoHosts_valid.keyed, twoHosts_valid.names⟩

/-- The address is shared by two services. -/
theorem serviceEvent_iff_shared :
    let v := edgeEip [("192.0.2.1", "ns/b;ns/a")]
    ∃ s l s', Handled false ["layer2"] {} [(twoHosts, v)] s ∧
      Run (movedHost.exec false) s (handleService edgeService).run l (.ok ()) s' ∧
      s'.announced "layer2" "192.0.2.1" =
        some ((split ';' "ns/b;ns/a").toFinset.biUnion movedHost.targets) := by
  intro v
  let s := twoHosts.after edgeOrder noneFails ["layer2"] {} v
  have heval : twoHosts.returns edgeOrder noneFails ["layer2"] {} v = some (.ok ()) ∧
      (handleService edgeService).run.returns (movedHost.run edgeOrder noneFails) s =
        some (.ok ()) ∧
      s.pools.get (getSvcEIPUsed edgeService) = some v := by
    decide +kernel
  obtain ⟨h₁, h₂, hpool⟩ := heval
  have hlists : movedHost.Lists "ns/b;ns/a" := by
    intro str hstr ns name hsplit
    have hkeys : ∀ str ∈ split ';' "ns/b;ns/a",
        split '/' str = ["ns", "b"] ∨ split '/' str = ["ns", "a"] := by decide
    rcases hkeys str hstr with he | he
    · rw [he] at hsplit
      cases hsplit
      exact ⟨_, _, rfl, rfl⟩
    · rw [he] at hsplit
      cases hsplit
      exact ⟨_, _, rfl, rfl⟩
  have hfacts : ((split ';' "ns/b;ns/a").toFinset.biUnion movedHost.targets).Nonempty ∧
      v.status.used.get "192.0.2.1" = some "ns/b;ns/a" ∧
      edgeService.key.text ∈ split ';' "ns/b;ns/a" ∧ "ns/b;ns/a" ≠ edgeService.key.text ∧
      v.getProtocol = "layer2" ∧ IpRange.parseRange v.spec.address = .ok (some ⟨.v4Family,
        v4InV6Prefix ++ [192, 0, 2, 0], v4InV6Prefix ++ [192, 0, 2, 255]⟩) := by
    decide +kernel
  obtain ⟨hne, hused, hlisted, hshared, hproto, hread⟩ := hfacts
  obtain ⟨l, hrun⟩ := run_eval (ClusterView.exec_of_run noneFails_imp) (eval_of_returns h₂)
  refine ⟨s, l, _, .cons_after noneFails_imp h₁ .nil, hrun, ?_⟩
  have hip : "192.0.2.1" ∈ (edgeService.ingress.getD []).map LoadBalancerIngress.ip :=
    List.mem_singleton_self _
  have hiff := serviceEvent_iff movedHost_valid hpool hip hused hlisted hlists hne hrun
  rw [hproto] at hiff
  exact hiff.mpr (.inl ⟨rfl, hshared, _, hread, by decide +kernel⟩)

/-- **The new node of an address that is not shared is not announced.**  The Eip lists
192.0.2.1 for ns/a alone, which n1 hosts.  The endpoint moves to n2, and `HandleService`
returns nil: the address is announced towards n1 as before. -/
theorem moved_endpoint_ignored :
    let v := edgeEip [("192.0.2.1", "ns/a")]
    ∃ s l s', Handled false ["layer2"] {} [(twoHosts, v)] s ∧
      Run (movedHost.exec false) s (handleService edgeService).run l (.ok ()) s' ∧
      (split ';' "ns/a").toFinset.biUnion movedHost.targets = {{ name := "n2" }} ∧
      s'.announced "layer2" "192.0.2.1" = some {{ name := "n1" }} := by
  intro v
  let s := twoHosts.after edgeOrder noneFails ["layer2"] {} v
  have heval : twoHosts.returns edgeOrder noneFails ["layer2"] {} v = some (.ok ()) ∧
      (handleService edgeService).run.returns (movedHost.run edgeOrder noneFails) s =
        some (.ok ()) ∧
      (split ';' "ns/a").toFinset.biUnion movedHost.targets = {{ name := "n2" }} ∧
      ((handleService edgeService).run.after (movedHost.run edgeOrder noneFails) s).announced
        "layer2" "192.0.2.1" = some {{ name := "n1" }} := by
    decide +kernel
  obtain ⟨h₁, h₂, hnew, hold⟩ := heval
  obtain ⟨l, hrun⟩ := run_eval (ClusterView.exec_of_run noneFails_imp) (eval_of_returns h₂)
  exact ⟨s, l, _, .cons_after noneFails_imp h₁ .nil, hrun, hnew, hold⟩

end OpenELB
