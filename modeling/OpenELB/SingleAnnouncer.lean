import OpenELB.GoCidr
import OpenELB.GoNetText
import OpenELB.Layer2
import Mathlib.Data.Finset.Max
import Mathlib.Logic.Relation

/-! # One announcer for an address

The nodes of a cluster run a layer2 speaker each.  Their views of the member list change,
and now and then a node runs `SetBalancer` for an address, with the nodes that may
announce it.  Each elects from its own view.

The election is the same for all who see the same members and candidates
(`Elects.unique`), and the node it elects announces the address.  But a node that is not
elected leaves its announced addresses as they are, so one that has announced the address
before, and then loses it, goes on announcing (`two_announcers`).  As long as that does not
happen, there is one announcer once all have the same view (`one_announcer`). -/
namespace OpenELB
open Go

/-! ## Who is elected -/

section Election
variable {ip w w' : String} {nodes nodes' sorted : List String}

/-- The node takes part, and none has a lesser hash. -/
def Elects (ip : String) (nodes : List String) (w : String) : Prop :=
  w ∈ nodes ∧ ∀ n ∈ nodes, ¬ electionHash ip n < electionHash ip w

instance : Decidable (Elects ip nodes w) := inferInstanceAs (Decidable (_ ∧ _))

theorem Sorts.elects (h : Sorts ip nodes sorted) (hw : sorted.head? = some w) : Elects ip nodes w := by
  obtain ⟨hperm, hsorted⟩ := h
  cases sorted with
  | nil => cases hw
  | cons v rest =>
    obtain rfl : v = w := Option.some.inj hw
    refine ⟨hperm.mem_iff.mp List.mem_cons_self, fun n hn => ?_⟩
    rcases List.mem_cons.mp (hperm.mem_iff.mpr hn) with rfl | hn
    · exact List.lt_irrefl _
    · exact (List.pairwise_cons.mp hsorted).1 n hn

/-- **The election has one winner**, if no two hashes collide. -/
theorem Elects.unique (hcol : ∀ m ∈ nodes, ∀ n ∈ nodes, electionHash ip m = electionHash ip n → m = n)
    (h : Elects ip nodes w) (h' : Elects ip nodes w') : w = w' :=
  hcol w h.1 w' h'.1 (List.le_antisymm (h.2 w' h'.1) (h'.2 w h.1))

theorem Elects.congr (h : Elects ip nodes w) (hsame : ∀ n, n ∈ nodes ↔ n ∈ nodes') :
    Elects ip nodes' w :=
  ⟨(hsame w).mp h.1, fun n hn => h.2 n ((hsame n).mpr hn)⟩

theorem exists_elects (hne : nodes ≠ []) : ∃ w, Elects ip nodes w := by
  obtain ⟨n, hn⟩ := List.exists_mem_of_ne_nil nodes hne
  obtain ⟨w, hw, hmin⟩ := nodes.toFinset.exists_min_image (fun n => beNat (electionHash ip n))
    ⟨n, List.mem_toFinset.mpr hn⟩
  refine ⟨w, List.mem_toFinset.mp hw, fun n hn => ?_⟩
  have hlen : (electionHash ip w).length = (electionHash ip n).length := by
    rw [electionHash, electionHash, length_sum256, length_sum256]
  rw [List.not_lt, le_iff_beNat_le hlen]
  exact hmin n (List.mem_toFinset.mpr hn)

theorem mem_candidates {n : String} {members : List String} {clusterNodes : List Node} :
    n ∈ candidates members clusterNodes ↔ n ∈ clusterNodes.map Node.name ∧ n ∈ members := by
  rw [candidates, List.mem_filter, decide_eq_true_iff]

end Election

/-! ## What a call does -/

/-- All gratuitous packets of a call are sent. -/
def Wire.Delivers (wire : Wire) : AnnouncerKind → Prop
  | .arp => wire.request = .ok () ∧ wire.reply = .ok ()
  | .ndp => wire.advertise = .ok ()

namespace Announcer
variable {a : Announcer} {wire : Wire} {ip : IP} {t : String}

/-- The address that is read back from its text is announced under its text. -/
theorem ipString_parseServiceIP {form : AddrForm} {svcIP : IP}
    (h : parseServiceIP ip = .ok (form, svcIP)) : ipString svcIP = ipString ip := by
  by_cases hip : IsAddr ip
  · obtain ⟨form', hp⟩ := parseAddr_ipString hip
    rw [parseServiceIP, hp] at h
    cases h
    exact ipString_to16 hip
  · rw [parseServiceIP, parseAddr_ipString_none hip] at h
    cases h

/-- The address with this text is announced. -/
def Announced (a : Announcer) (t : String) : Prop := (a.ip2mac.get t).isSome

instance : Decidable (a.Announced t) := inferInstanceAs (Decidable (_ = _))

/-- The call comes to sending: the address is not announced, and for NDP its multicast
group is joined. -/
def Reaches (a : Announcer) (wire : Wire) (ip : IP) : Prop :=
  ¬ a.Announced (ipString ip) ∧ (a.kind = .ndp → ∃ form svcIP,
    parseServiceIP ip = .ok (form, svcIP) ∧ form ≠ .v4 ∧ wire.joinGroup = .ok ())

theorem announced_setMac {t' : String} : (a.setMac t).Announced t' ↔ t' = t ∨ a.Announced t' := by
  rw [Announced, setMac, Map.get_set]
  by_cases h : t' = t
  · simp [h]
  · simp [h, Announced]

theorem arpGratuitous_of_announced (h : a.Announced t) : a.arpGratuitous wire t = (.ok (), a) := by
  rw [arpGratuitous]
  exact if_pos h

theorem arpGratuitous_of_not_announced (h : ¬ a.Announced t) :
    a.arpGratuitous wire t = (wire.request >>= fun _ => wire.reply, a.setMac t) := by
  rw [arpGratuitous]
  exact if_neg h

theorem ndpGratuitous_of_announced (h : a.Announced t) : a.ndpGratuitous wire t = (.ok (), a) := by
  rw [ndpGratuitous]
  exact if_pos h

theorem ndpGratuitous_of_not_announced (h : ¬ a.Announced t) :
    a.ndpGratuitous wire t = (wire.advertise, a.setMac t) := by
  rw [ndpGratuitous]
  exact if_neg h

/-- A call that comes to sending sets the mark, and returns what becomes of the packets. -/
theorem addAnnouncedIP_of_reaches (h : a.Reaches wire ip) :
    (a.addAnnouncedIP wire ip).2 = a.setMac (ipString ip) ∧
      ((a.addAnnouncedIP wire ip).1 = .ok () ↔ wire.Delivers a.kind) := by
  obtain ⟨hnew, hjoin⟩ := h
  rw [addAnnouncedIP]
  cases hkind : a.kind with
  | arp =>
    dsimp only
    rw [arpGratuitous_of_not_announced hnew]
    refine ⟨rfl, ?_⟩
    rw [Wire.Delivers]
    cases wire.request with
    | error e => exact iff_of_false (fun h => nomatch h) fun h => nomatch h.1
    | ok _ => exact (and_iff_right rfl).symm
  | ndp =>
    obtain ⟨form, svcIP, hsvc, hform, hgroup⟩ := hjoin hkind
    dsimp only
    rw [hsvc]
    dsimp only
    rw [if_neg fun h => h.elim hform fun hne => hne hgroup, ipString_parseServiceIP hsvc,
      ndpGratuitous_of_not_announced hnew]
    exact ⟨rfl, Iff.rfl⟩

/-- A call that does not come to sending changes nothing, and returns nil only for an
address that is announced. -/
theorem addAnnouncedIP_of_not_reaches (h : ¬ a.Reaches wire ip) :
    (a.addAnnouncedIP wire ip).2 = a ∧
      ((a.addAnnouncedIP wire ip).1 = .ok () → a.Announced (ipString ip)) := by
  rw [addAnnouncedIP]
  cases hkind : a.kind with
  | arp =>
    have hann : a.Announced (ipString ip) := by
      by_contra hnew
      exact h ⟨hnew, fun hndp => absurd (hkind.symm.trans hndp) (by decide)⟩
    dsimp only
    rw [arpGratuitous_of_announced hann]
    exact ⟨rfl, fun _ => hann⟩
  | ndp =>
    dsimp only
    cases hsvc : parseServiceIP ip with
    | error e => exact ⟨rfl, fun h => nomatch h⟩
    | ok svc =>
      obtain ⟨form, svcIP⟩ := svc
      dsimp only
      by_cases hfail : form = .v4 ∨ wire.joinGroup ≠ .ok ()
      · rw [if_pos hfail]
        exact ⟨rfl, fun h => nomatch h⟩
      · rw [not_or, not_not] at hfail
        have hann : a.Announced (ipString ip) := by
          by_contra hnew
          exact h ⟨hnew, fun _ => ⟨form, svcIP, hsvc, hfail.1, hfail.2⟩⟩
        rw [if_neg fun h => h.elim hfail.1 fun hne => hne hfail.2, ipString_parseServiceIP hsvc,
          ndpGratuitous_of_announced hann]
        exact ⟨rfl, fun _ => hann⟩

/-- The kind and the ranges of an announcer stay. -/
theorem addAnnouncedIP_same (a : Announcer) (wire : Wire) (ip : IP) :
    (a.addAnnouncedIP wire ip).2.kind = a.kind ∧
      (a.addAnnouncedIP wire ip).2.ipranges = a.ipranges := by
  by_cases h : a.Reaches wire ip
  · rw [(addAnnouncedIP_of_reaches h).1]
    exact ⟨rfl, rfl⟩
  · rw [(addAnnouncedIP_of_not_reaches h).1]
    exact ⟨rfl, rfl⟩

/-- `DelAnnouncedIP` takes the mark away, or does nothing. -/
theorem delAnnouncedIP_cases (a : Announcer) (wire : Wire) (ip : IP) :
    (a.delAnnouncedIP wire ip).2 = a ∨
      (a.delAnnouncedIP wire ip).2 = { a with ip2mac := a.ip2mac.delete (ipString ip) } := by
  rw [delAnnouncedIP]
  cases a.kind with
  | arp => exact .inr rfl
  | ndp =>
    dsimp only
    cases parseServiceIP ip with
    | error e => exact .inl rfl
    | ok svc =>
      dsimp only
      split
      · exact .inl rfl
      · exact .inr rfl

/-- A call that succeeds leaves the address announced. -/
theorem addAnnouncedIP_announced (hok : (a.addAnnouncedIP wire ip).1 = .ok ()) :
    (a.addAnnouncedIP wire ip).2.Announced (ipString ip) := by
  by_cases h : a.Reaches wire ip
  · rw [(addAnnouncedIP_of_reaches h).1, announced_setMac]
    exact .inl rfl
  · obtain ⟨hstate, hann⟩ := addAnnouncedIP_of_not_reaches h
    rw [hstate]
    exact hann hok

end Announcer

namespace Layer2
variable {l : Layer2} {ip nodeName : String} {order sorted : List String} {wire : Wire}
  {clusterNodes : List Node}

/-- Some announcer of the node has announced the address. -/
def Announces (l : Layer2) (ip : String) : Prop :=
  ∃ netif a, l.announcers.get netif = some a ∧
    (a.ip2mac.get (ipString ((parseIP ip).getD []))).isSome

/-- Some announcer of the node has the address in a range. -/
def Covers (l : Layer2) (ip : String) : Prop :=
  ∃ netif a, l.announcers.get netif = some a ∧ a.containsIP ((parseIP ip).getD []) = true

instance (l : Layer2) (ip : String) : Decidable (l.Announces ip) :=
  decidable_of_iff (l.announcers.any fun _ a =>
    (a.ip2mac.get (ipString ((parseIP ip).getD []))).isSome) Map.any_iff

instance (l : Layer2) (ip : String) : Decidable (l.Covers ip) :=
  decidable_of_iff (l.announcers.any fun _ a => a.containsIP ((parseIP ip).getD [])) Map.any_iff

theorem announcerOf_of_covers (hcov : l.Covers ip) (horder : l.announcers.Ranges order) :
    ∃ netif a, l.announcerOf order ((parseIP ip).getD []) = some (netif, a) ∧
      l.announcers.get netif = some a := by
  obtain ⟨netif, a, hget, hcontains⟩ := hcov
  have hmem : (netif, a) ∈ order.filterMap fun netif => (l.announcers.get netif).map (netif, ·) := by
    rw [List.mem_filterMap]
    exact ⟨netif, horder.mem hget, by rw [hget]; rfl⟩
  cases hfind : l.announcerOf order ((parseIP ip).getD []) with
  | none =>
    have hnone := List.find?_eq_none.mp hfind _ hmem
    exact absurd hcontains hnone
  | some p =>
    obtain ⟨netif', a'⟩ := p
    have hmem' := List.mem_of_find?_eq_some hfind
    obtain ⟨n, -, hn⟩ := List.mem_filterMap.mp hmem'
    obtain ⟨b, hb, he⟩ := Option.map_eq_some_iff.mp hn
    cases he
    exact ⟨netif', a', rfl, hb⟩

/-- What a call of `SetBalancer` can do on a node with the address in a range. -/
inductive SetResult (l : Layer2) (nodeName ip : String) (clusterNodes : List Node) :
    Except String Unit × Layer2 → Prop
  | nobody : candidates l.members clusterNodes = [] → SetResult l nodeName ip clusterNodes (.ok (), l)
  | lost {w : String} : Elects ip (candidates l.members clusterNodes) w → w ≠ nodeName →
      SetResult l nodeName ip clusterNodes (.ok (), l)
  | won {r : Except String Unit} {l' : Layer2} :
      Elects ip (candidates l.members clusterNodes) nodeName → l'.members = l.members →
      l'.Covers ip → (r = .ok () → l'.Announces ip) → SetResult l nodeName ip clusterNodes (r, l')

theorem setBalancer_result (hcov : l.Covers ip) (horder : l.announcers.Ranges order)
    (hsorts : Sorts ip (candidates l.members clusterNodes) sorted) :
    SetResult l nodeName ip clusterNodes
      (l.setBalancer nodeName order sorted wire ip clusterNodes) := by
  obtain ⟨netif, a, hof, hget⟩ := announcerOf_of_covers hcov horder
  rw [setBalancer, hof]
  dsimp only
  split
  · rename_i hnone
    exact .nobody hnone
  · rename_i hsome
    split
    · rename_i hhead
      -- somebody else is at the head
      cases hs : sorted with
      | nil =>
        rw [hs] at hsorts
        exact absurd hsorts.1.nil_eq.symm hsome
      | cons w rest =>
        rw [hs] at hsorts hhead
        exact .lost (hsorts.elects rfl) fun he => hhead (congrArg some he)
    · rename_i hhead
      refine .won (hsorts.elects (not_not.mp hhead)) rfl ?_ fun hok => ?_
      · obtain ⟨n, b, hb, hcontains⟩ := hcov
        by_cases hn : n = netif
        · subst hn
          cases hget.symm.trans hb
          refine ⟨n, _, Map.get_set_self .., ?_⟩
          rwa [Announcer.containsIP, (Announcer.addAnnouncedIP_same a wire _).2]
        · exact ⟨n, b, (Map.get_set_ne _ _ hn).trans hb, hcontains⟩
      · exact ⟨netif, _, Map.get_set_self .., Announcer.addAnnouncedIP_announced hok⟩

end Layer2

/-! ## The cluster -/

/-- A node of the cluster.  `ran` are the nodes of its last `SetBalancer` for the address, if
that call returned no error and the view has not changed since. -/
structure L2Node where
  speaker : Layer2
  ran : Option (List Node) := none

/-- A step of the cluster: the view of a node changes, or a node runs `SetBalancer` for the
address, in a state and with nodes that `allowed` permits.  Members are nodes of the
cluster. -/
inductive ClusterStep (nodes : Set String) (ip : String)
    (allowed : String → Layer2 → List Node → Prop) : (String → L2Node) → (String → L2Node) → Prop
  | view {s : String → L2Node} (n : String) (members : List String) : n ∈ nodes →
      (∀ m ∈ members, m ∈ nodes) →
      ClusterStep nodes ip allowed s
        (Function.update s n ⟨{ (s n).speaker with members := members }, none⟩)
  | setBalancer {s : String → L2Node} (n : String) (order sorted : List String) (wire : Wire)
      (clusterNodes : List Node) {r : Except String Unit} {l : Layer2} : n ∈ nodes →
      (s n).speaker.announcers.Ranges order →
      Sorts ip (candidates (s n).speaker.members clusterNodes) sorted →
      allowed n (s n).speaker clusterNodes →
      (s n).speaker.setBalancer n order sorted wire ip clusterNodes = (r, l) →
      ClusterStep nodes ip allowed s
        (Function.update s n ⟨l, if r = .ok () then some clusterNodes else none⟩)

/-- Before the first step: every node has an announcer with the address in a range, and none
has announced it. -/
def ClusterInit (nodes : Set String) (ip : String) (s : String → L2Node) : Prop :=
  ∀ n ∈ nodes, (s n).speaker.Covers ip ∧ ¬ (s n).speaker.Announces ip ∧
    (∀ m ∈ (s n).speaker.members, m ∈ nodes) ∧ (s n).ran = none

/-- All nodes have these members, and have run `SetBalancer` with these nodes since. -/
structure ViewsSettled (nodes : Set String) (members : List String) (clusterNodes : List Node)
    (s : String → L2Node) : Prop where
  members : ∀ n ∈ nodes, ∀ m, m ∈ (s n).speaker.members ↔ m ∈ members
  ran : ∀ n ∈ nodes, ∃ cs, (s n).ran = some cs ∧
    ∀ m, m ∈ cs.map Node.name ↔ m ∈ clusterNodes.map Node.name

/-- A node that announces the address is elected. -/
def StaysElected (ip n : String) (l : Layer2) (clusterNodes : List Node) : Prop :=
  l.Announces ip → ∀ w, Elects ip (candidates l.members clusterNodes) w → w = n

/-- What holds of a node between steps. -/
structure NodeInv (nodes : Set String) (ip n : String) (x : L2Node) : Prop where
  covers : x.speaker.Covers ip
  members : ∀ m ∈ x.speaker.members, m ∈ nodes
  ran : ∀ cs, x.ran = some cs → ∀ w, Elects ip (candidates x.speaker.members cs) w →
    (x.speaker.Announces ip ↔ n = w)

section Run
variable {nodes : Set String} {ip : String} {s s' : String → L2Node}

/-- **One step keeps it**: who announces the address stays elected, so who is not elected
does not announce it. -/
theorem NodeInv.step (hcol : ∀ m ∈ nodes, ∀ n ∈ nodes, electionHash ip m = electionHash ip n → m = n)
    (h : ∀ n ∈ nodes, NodeInv nodes ip n (s n)) (hs : ClusterStep nodes ip (StaysElected ip) s s') :
    ∀ n ∈ nodes, NodeInv nodes ip n (s' n) := by
  intro n hn
  cases hs with
  | view m members _ hmembers =>
    by_cases he : n = m
    · subst he
      rw [Function.update_self]
      exact ⟨(h n hn).covers, hmembers, fun _ hran => (by cases hran)⟩
    · rw [Function.update_of_ne he]
      exact h n hn
  | setBalancer m order sorted wire clusterNodes _ horder hsorts hstays hcall =>
    by_cases he : n = m
    · subst he
      rw [Function.update_self]
      have hinv := h n hn
      -- the candidates are members, and so nodes
      have hunique : ∀ {w w'}, Elects ip (candidates (s n).speaker.members clusterNodes) w →
          Elects ip (candidates (s n).speaker.members clusterNodes) w' → w = w' := by
        refine fun hw hw' => hw.unique (fun m hm m' hm' => ?_) hw'
        exact hcol m (hinv.members m (mem_candidates.mp hm).2) m'
          (hinv.members m' (mem_candidates.mp hm').2)
      have hresult : Layer2.SetResult (s n).speaker n ip clusterNodes
          ((s n).speaker.setBalancer n order sorted wire ip clusterNodes) :=
        Layer2.setBalancer_result hinv.covers horder hsorts
      rw [hcall] at hresult
      cases hresult with
      | nobody hnone =>
        refine ⟨hinv.covers, hinv.members, fun cs hran w hw => ?_⟩
        rw [if_pos rfl] at hran
        cases hran
        rw [hnone] at hw
        exact absurd hw.1 List.not_mem_nil
      | lost helects hne =>
        refine ⟨hinv.covers, hinv.members, fun cs hran w hw => ?_⟩
        rw [if_pos rfl] at hran
        cases hran
        obtain rfl := hunique helects hw
        exact ⟨fun hann => (hstays hann _ hw).symm, fun he => absurd he.symm hne⟩
      | won helects hmem hcov hann =>
        refine ⟨hcov, by rw [hmem]; exact hinv.members, fun cs hran w hw => ?_⟩
        split at hran
        · rename_i hok
          cases hran
          rw [hmem] at hw
          exact ⟨fun _ => hunique helects hw, fun _ => hann hok⟩
        · cases hran
    · rw [Function.update_of_ne he]
      exact h n hn

/-- A run keeps it. -/
theorem NodeInv.run (hcol : ∀ m ∈ nodes, ∀ n ∈ nodes, electionHash ip m = electionHash ip n → m = n)
    (hinit : ClusterInit nodes ip s)
    (hrun : Relation.ReflTransGen (ClusterStep nodes ip (StaysElected ip)) s s') :
    ∀ n ∈ nodes, NodeInv nodes ip n (s' n) := by
  induction hrun with
  | refl =>
    intro n hn
    obtain ⟨hcov, -, hmembers, hran⟩ := hinit n hn
    exact ⟨hcov, hmembers, fun cs h => (by rw [hran] at h; cases h)⟩
  | tail _ hs ih => exact NodeInv.step hcol ih hs

end Run

/-- **One announcer for an address.**  In every run in which no node that announces the
address runs `SetBalancer` and is not elected, whenever all nodes have the same members and
have run `SetBalancer` with the same nodes since their views changed, and one of these is
a member, then exactly one node announces the address: the one that is elected. -/
theorem one_announcer {nodes : Set String} {ip : String} (hne : nodes.Nonempty)
    (hcol : ∀ m ∈ nodes, ∀ n ∈ nodes, electionHash ip m = electionHash ip n → m = n)
    {s₀ s : String → L2Node} (hinit : ClusterInit nodes ip s₀)
    (hrun : Relation.ReflTransGen (ClusterStep nodes ip (StaysElected ip)) s₀ s)
    {members : List String} {clusterNodes : List Node} (hsettled : ViewsSettled nodes members clusterNodes s)
    (hcand : ∃ m ∈ clusterNodes.map Node.name, m ∈ members) :
    ∃ w ∈ nodes, Elects ip (candidates members clusterNodes) w ∧
      ∀ n ∈ nodes, (s n).speaker.Announces ip ↔ n = w := by
  have hinv := NodeInv.run hcol hinit hrun
  obtain ⟨m, hm, hmem⟩ := hcand
  obtain ⟨w, hw⟩ : ∃ w, Elects ip (candidates members clusterNodes) w :=
    exists_elects (List.ne_nil_of_mem (mem_candidates.mpr ⟨hm, hmem⟩))
  obtain ⟨n₀, hn₀⟩ := hne
  have hwmem := (mem_candidates.mp hw.1).2
  refine ⟨w, (hinv n₀ hn₀).members w ((hsettled.members n₀ hn₀ w).mpr hwmem), hw, fun n hn => ?_⟩
  obtain ⟨cs, hran, hcs⟩ := hsettled.ran n hn
  refine (hinv n hn).ran cs hran w (hw.congr fun m => ?_)
  rw [mem_candidates, mem_candidates, hcs m, hsettled.members n hn m]

/-! ## A node that loses the address -/

/-- A speaker with an announcer for a pool. -/
def arpSpeaker (members : List String) : Layer2 where
  members := members
  announcers := Map.ofList [("eth0", {
    kind := .arp
    hardwareAddr := [2, 0, 0, 0, 0, 1]
    ip2mac := Map.empty
    ipranges := Map.ofList [("pool",
      ⟨.v4Family, v4InV6Prefix ++ [192, 0, 2, 1], v4InV6Prefix ++ [192, 0, 2, 9]⟩)] })]

/-- Every node is alone. -/
def alone (n : String) : L2Node := ⟨arpSpeaker [n], none⟩

/-- The two nodes. -/
def twoNodes : List Node := [{ name := "node1" }, { name := "node2" }]

/-- The state after a node has seen both. -/
def sees (s : String → L2Node) (n : String) : String → L2Node :=
  Function.update s n ⟨{ (s n).speaker with members := ["node1", "node2"] }, none⟩

/-- The state after a node has run `SetBalancer` with both. -/
def runs (s : String → L2Node) (n : String) (sorted : List String) : String → L2Node :=
  let (r, l) := (s n).speaker.setBalancer n ["eth0"] sorted {} "192.0.2.1" twoNodes
  Function.update s n ⟨l, if r = .ok () then some twoNodes else none⟩

theorem ClusterStep.of_sees {allowed : String → Layer2 → List Node → Prop} {s : String → L2Node}
    {n : String} (hn : n ∈ ["node1", "node2"]) :
    ClusterStep {n | n ∈ ["node1", "node2"]} "192.0.2.1" allowed s (sees s n) :=
  .view n ["node1", "node2"] hn fun _ hm => hm

theorem ClusterStep.of_runs {allowed : String → Layer2 → List Node → Prop} {s : String → L2Node}
    {n : String} {sorted : List String} (hn : n ∈ ["node1", "node2"])
    (horder : (s n).speaker.announcers.Ranges ["eth0"])
    (hsorts : Sorts "192.0.2.1" (candidates (s n).speaker.members twoNodes) sorted)
    (hallowed : allowed n (s n).speaker twoNodes) :
    ClusterStep {n | n ∈ ["node1", "node2"]} "192.0.2.1" allowed s (runs s n sorted) :=
  .setBalancer n ["eth0"] sorted {} twoNodes hn horder hsorts hallowed rfl

theorem clusterInit_alone : ClusterInit {n | n ∈ ["node1", "node2"]} "192.0.2.1" alone := by
  show ∀ n ∈ ["node1", "node2"], _
  intro n hn
  refine ⟨?_, ?_, fun m hm => List.mem_singleton.mp hm ▸ hn, rfl⟩
  · show (arpSpeaker []).Covers "192.0.2.1"
    decide +kernel
  · show ¬ (arpSpeaker []).Announces "192.0.2.1"
    decide +kernel

theorem ViewsSettled.of_both {s : String → L2Node} (h : ∀ n ∈ ["node1", "node2"],
      (s n).speaker.members = ["node1", "node2"] ∧
        ((s n).ran.map fun cs => cs.map Node.name) = some (twoNodes.map Node.name)) :
    ViewsSettled {n | n ∈ ["node1", "node2"]} ["node1", "node2"] twoNodes s := by
  constructor
  · intro n hn m
    rw [(h n hn).1]
  · intro n hn
    obtain ⟨cs, hcs, he⟩ := Option.map_eq_some_iff.mp (h n hn).2
    exact ⟨cs, hcs, fun m => by rw [he]⟩

/-- Node 1 is alone and announces the address.  Node 2 comes, both see it, both run
`SetBalancer`, and node 2 is elected. -/
def joined : String → L2Node :=
  runs (runs (sees (sees (runs alone "node1" ["node1"]) "node1") "node2") "node1" ["node2", "node1"])
    "node2" ["node2", "node1"]

/-- **Two announcers.**  Node 1 is not elected any more, and goes on announcing. -/
theorem two_announcers :
    ClusterInit {n | n ∈ ["node1", "node2"]} "192.0.2.1" alone ∧
      Relation.ReflTransGen
        (ClusterStep {n | n ∈ ["node1", "node2"]} "192.0.2.1" fun _ _ _ => True) alone joined ∧
      ViewsSettled {n | n ∈ ["node1", "node2"]} ["node1", "node2"] twoNodes joined ∧
      Elects "192.0.2.1" (candidates ["node1", "node2"] twoNodes) "node2" ∧
      (joined "node1").speaker.Announces "192.0.2.1" ∧
      (joined "node2").speaker.Announces "192.0.2.1" := by
  refine ⟨clusterInit_alone, ?_, .of_both (by decide +kernel), by decide +kernel, by decide +kernel,
    by decide +kernel⟩
  refine .tail (.tail (.tail (.tail (.single (.of_runs ?_ ?_ ?_ trivial)) (.of_sees ?_))
    (.of_sees ?_)) (.of_runs ?_ ?_ ?_ trivial)) (.of_runs ?_ ?_ ?_ trivial)
  all_goals decide +kernel

/-- Two nodes that see each other before anything is announced. -/
def together : String → L2Node :=
  runs (runs (sees (sees alone "node1") "node2") "node1" ["node2", "node1"]) "node2" ["node2", "node1"]

theorem one_announcer_together :
    ViewsSettled {n | n ∈ ["node1", "node2"]} ["node1", "node2"] twoNodes together ∧
      ∃ w ∈ {n | n ∈ ["node1", "node2"]}, Elects "192.0.2.1" (candidates ["node1", "node2"] twoNodes) w ∧
        ∀ n ∈ {n | n ∈ ["node1", "node2"]}, (together n).speaker.Announces "192.0.2.1" ↔ n = w := by
  have hsettled : ViewsSettled {n | n ∈ ["node1", "node2"]} ["node1", "node2"] twoNodes together :=
    .of_both (by decide +kernel)
  have hcol : ∀ m ∈ ["node1", "node2"], ∀ n ∈ ["node1", "node2"],
      electionHash "192.0.2.1" m = electionHash "192.0.2.1" n → m = n := by
    decide +kernel
  have hquiet : ∀ {n : String} {l : Layer2} {cs : List Node}, ¬ l.Announces "192.0.2.1" →
      StaysElected "192.0.2.1" n l cs := fun h h' => absurd h' h
  refine ⟨hsettled, one_announcer ⟨"node1", .head _⟩ hcol clusterInit_alone ?_ hsettled
    ⟨"node1", .head _, .head _⟩⟩
  refine .tail (.tail (.tail (.single (.of_sees ?_)) (.of_sees ?_)) (.of_runs ?_ ?_ ?_ (hquiet ?_)))
    (.of_runs ?_ ?_ ?_ (hquiet ?_))
  all_goals decide +kernel

end OpenELB
