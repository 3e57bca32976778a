import OpenELB.SingleAnnouncer

/-! # How the election reacts to changes

`SetBalancer` sorts the candidates by the hash of their names and takes the first.  The
sort is not stable and the list may hold a node more than once, but the first of the
sorted list is the node with the least hash, so it depends on the set of candidates alone
(`Wins`).  Hence a node that joins takes an address over or changes nothing, and a node
that leaves without being the winner changes nothing (`election_stable`). -/
namespace OpenELB
open Go

/-! ## The least of a set -/

section Elects
variable {ip w n m : String} {nodes nodes' : List String}

/-- Who is elected among some nodes and takes part in an election of fewer wins that one
too. -/
theorem Elects.subset (h : Elects ip nodes w) (hsub : ∀ n ∈ nodes', n ∈ nodes) (hw : w ∈ nodes') :
    Elects ip nodes' w :=
  ⟨hw, fun n hn => h.2 n (hsub n hn)⟩

/-- One more node takes part: the winner is the same, or the new one. -/
theorem Elects.cons (h : Elects ip nodes w) (n : String) :
    Elects ip (n :: nodes) w ∨ Elects ip (n :: nodes) n := by
  by_cases hlt : electionHash ip n < electionHash ip w
  · refine .inr ⟨List.mem_cons_self, List.forall_mem_cons.mpr ⟨List.lt_irrefl _, fun m hm => ?_⟩⟩
    exact fun hm' => h.2 m hm (List.lt_trans hm' hlt)
  · exact .inl ⟨List.mem_cons_of_mem n h.1, List.forall_mem_cons.mpr ⟨hlt, h.2⟩⟩

/-- Every list of candidates can be sorted. -/
theorem exists_sorts (ip : String) (nodes : List String) : ∃ sorted, Sorts ip nodes sorted := by
  let le : String → String → Bool := fun m n => decide (electionHash ip m ≤ electionHash ip n)
  have htrans : ∀ a b c, le a b = true → le b c = true → le a c = true := by
    intro a b c hab hbc
    simp only [le, decide_eq_true_eq] at *
    exact List.le_trans hab hbc
  have htotal : ∀ a b, (le a b || le b a) = true := by
    intro a b
    simp only [le, Bool.or_eq_true, decide_eq_true_eq]
    exact List.le_total _ _
  refine ⟨nodes.mergeSort le, List.mergeSort_perm nodes le, ?_⟩
  refine (List.pairwise_mergeSort htrans htotal nodes).imp fun hle => ?_
  exact List.not_lt.mpr (of_decide_eq_true hle)

end Elects

/-! ## The winner of a set of candidates -/

/-- `SetBalancer` elects this node whenever the candidates are those of `C`: however they
are listed, and however `sort.Slice` places equal ones. -/
structure Wins (ip : String) (C : Finset String) (w : String) : Prop where
  mem : w ∈ C
  elected : ∀ (members : List String) (clusterNodes : List Node) (sorted : List String),
    (∀ n, n ∈ candidates members clusterNodes ↔ n ∈ C) →
    Sorts ip (candidates members clusterNodes) sorted → sorted.head? = some w

section Wins
variable {ip w w' : String} {C : Finset String}

/-- The nodes of a set as candidates: they are all members. -/
theorem candidates_toList (C : Finset String) (n : String) :
    n ∈ candidates C.toList (C.toList.map fun n => { name := n }) ↔ n ∈ C := by
  rw [mem_candidates, List.map_map, Finset.mem_toList]
  simp

/-- A set of candidates has one winner. -/
theorem Wins.unique (h : Wins ip C w) (h' : Wins ip C w') : w = w' := by
  obtain ⟨sorted, hsorts⟩ := exists_sorts ip
    (candidates C.toList (C.toList.map fun n => { name := n }))
  have hw := h.elected _ _ _ (candidates_toList C) hsorts
  exact Option.some.inj (hw.symm.trans (h'.elected _ _ _ (candidates_toList C) hsorts))

/-- The node with the least hash wins, if no two hashes collide. -/
theorem Elects.wins (hcol : Set.InjOn (electionHash ip) C) (h : Elects ip C.toList w) :
    Wins ip C w := by
  have hw : w ∈ C := Finset.mem_toList.mp h.1
  refine ⟨hw, fun members clusterNodes sorted hset hsorts => ?_⟩
  have hsame : ∀ n, n ∈ C.toList ↔ n ∈ candidates members clusterNodes :=
    fun n => Finset.mem_toList.trans (hset n).symm
  cases hhead : sorted.head? with
  | none =>
    rw [List.head?_eq_none_iff] at hhead
    have hmem := hsorts.1.mem_iff.mpr ((hset w).mpr hw)
    rw [hhead] at hmem
    exact absurd hmem List.not_mem_nil
  | some v =>
    have hv := hsorts.elects hhead
    refine congrArg some (Elects.unique (fun m hm n hn he => ?_) hv (h.congr hsame))
    exact hcol ((hset m).mp hm) ((hset n).mp hn) he

/-- On every node `SetBalancer` announces the address if the node wins, and otherwise does
nothing. -/
theorem Wins.setBalancer_eq (h : Wins ip C w) {l : Layer2} {nodeName netif : String}
    {a : Announcer} {order sorted : List String} {wire : Wire} {clusterNodes : List Node}
    (hof : l.announcerOf order ((parseIP ip).getD []) = some (netif, a))
    (hset : ∀ n, n ∈ candidates l.members clusterNodes ↔ n ∈ C)
    (hsorts : Sorts ip (candidates l.members clusterNodes) sorted) :
    l.setBalancer nodeName order sorted wire ip clusterNodes =
      if nodeName = w then
        ((a.addAnnouncedIP wire ((parseIP ip).getD [])).1, { l with
          announcers := l.announcers.set netif (a.addAnnouncedIP wire ((parseIP ip).getD [])).2 })
      else (.ok (), l) := by
  have hne : candidates l.members clusterNodes ≠ [] :=
    List.ne_nil_of_mem ((hset w).mpr h.mem)
  rw [Layer2.setBalancer, hof]
  dsimp only
  rw [if_neg hne, h.elected _ _ _ hset hsorts]
  by_cases hw : nodeName = w
  · rw [if_neg (by simp [hw]), if_pos hw]
  · rw [if_pos (by simpa using fun he => hw he.symm), if_neg hw]

end Wins

/-- **The election does not depend on the order and changes as little as it can.**  For
every set of candidates there is one winner, whatever the order and the repetitions of the
list, and it is the node on which `SetBalancer` announces the address; a further candidate
wins itself or leaves the winner as it is; a candidate that leaves changes the winner only
if it was the winner. -/
theorem election_stable {ip n : String} {C : Finset String} (hne : C.Nonempty)
    (hcol : Set.InjOn (electionHash ip) ↑(insert n C)) :
    ∃ w, Wins ip C w ∧ (∀ w', Wins ip C w' → w' = w) ∧
      (∀ (l : Layer2) (nodeName netif : String) (a : Announcer) (order sorted : List String)
        (wire : Wire) (clusterNodes : List Node),
        l.announcerOf order ((parseIP ip).getD []) = some (netif, a) →
        (∀ m, m ∈ candidates l.members clusterNodes ↔ m ∈ C) →
        Sorts ip (candidates l.members clusterNodes) sorted →
        l.setBalancer nodeName order sorted wire ip clusterNodes =
          if nodeName = w then
            ((a.addAnnouncedIP wire ((parseIP ip).getD [])).1, { l with
              announcers := l.announcers.set netif
                (a.addAnnouncedIP wire ((parseIP ip).getD [])).2 })
          else (.ok (), l)) ∧
      (Wins ip (insert n C) w ∨ Wins ip (insert n C) n) ∧
      ∀ m ∈ C, m ≠ w → Wins ip (C.erase m) w := by
  have hsub : (C : Set String) ⊆ ↑(insert n C) := Finset.coe_subset.mpr (Finset.subset_insert n C)
  have hC : C.toList ≠ [] := by
    rw [Ne, Finset.toList_eq_nil]
    exact hne.ne_empty
  obtain ⟨w, hw⟩ : ∃ w, Elects ip C.toList w := exists_elects hC
  have hwins := hw.wins (hcol.mono hsub)
  have hinsert : ∀ m, m ∈ n :: C.toList ↔ m ∈ (insert n C).toList := by
    intro m
    rw [List.mem_cons, Finset.mem_toList, Finset.mem_toList, Finset.mem_insert]
  refine ⟨w, hwins, fun w' hw' => hw'.unique hwins, ?_, ?_, fun m hm hmw => ?_⟩
  · intro l nodeName netif a order sorted wire clusterNodes hof hset hsorts
    exact hwins.setBalancer_eq hof hset hsorts
  · rcases hw.cons n with h | h
    · exact .inl ((h.congr hinsert).wins hcol)
    · exact .inr ((h.congr hinsert).wins hcol)
  · have herase : (C.erase m : Set String) ⊆ ↑(insert n C) :=
      (Finset.coe_subset.mpr (Finset.erase_subset m C)).trans hsub
    refine Elects.wins (hcol.mono herase) (hw.subset (fun x hx => ?_) ?_)
    · exact Finset.mem_toList.mpr (Finset.mem_of_mem_erase (Finset.mem_toList.mp hx))
    · exact Finset.mem_toList.mpr (Finset.mem_erase.mpr ⟨hmw.symm, Finset.mem_toList.mp hw.1⟩)

/-- A third node joins two. -/
theorem election_stable_thirdNode :
    ∃ w, Wins "192.0.2.1" {"node1", "node2"} w ∧
      (Wins "192.0.2.1" {"node3", "node1", "node2"} w ∨
        Wins "192.0.2.1" {"node3", "node1", "node2"} "node3") := by
  have hcol : ∀ m ∈ ({"node3", "node1", "node2"} : Finset String),
      ∀ n ∈ ({"node3", "node1", "node2"} : Finset String),
      electionHash "192.0.2.1" m = electionHash "192.0.2.1" n → m = n := by
    decide +kernel
  obtain ⟨w, hw, -, -, hjoin, -⟩ := election_stable (n := "node3")
    (C := {"node1", "node2"}) (Finset.insert_nonempty _ _)
    fun m hm n hn he => hcol m (Finset.mem_coe.mp hm) n (Finset.mem_coe.mp hn) he
  exact ⟨w, hw, hjoin⟩

end OpenELB
