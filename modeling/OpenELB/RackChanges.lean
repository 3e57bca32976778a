import OpenELB.BgpConf

/-! # Changes of a node that change its BGP configuration

The speaker configures gobgp with values that depend on its node: the rack, from a label; the
AS number, from the rack; the router id, from the address.  When the node changes, the
reconciler is run again only if a predicate that `SetupWithManager` installs lets the event
through.  The predicate compares whether the old and the new node have the rack label, but
reads the label of the new node from the old one.  So it is true only if the old node has the
label and the new one has no labels at all (`nodeUpdated_iff`), and a rack label that is
added, removed or changed goes unnoticed.

`rack_change_iff` says for which changes the predicate does what it is for. -/
namespace OpenELB.Bgp
open Go Prog

/-! ## The predicate -/

/-- `_, ok = labels[constant.OpenELBNodeRack]`, of a node whose labels are not nil. -/
def haveLabel (node read : Node) : Bool :=
  if ¬ node.labels.isNil then (read.labels.get openELBNodeRack).isSome else false

/-- The `UpdateFunc` of the predicate for nodes. -/
def nodeUpdated (old new : Node) : Bool :=
  let oldHaveLabel := haveLabel old old
  -- the source looks the label up in the labels of the old node
  let newHaveLabel := haveLabel new old
  decide (oldHaveLabel ≠ newHaveLabel)

theorem get_of_isNil {m : Map String String} (h : m.isNil = true) (k : String) :
    m.get k = none := by
  rcases m with _ | m
  · rfl
  · exact nomatch h

/-- **What the predicate notices**: the labels are gone, and the rack was among them. -/
theorem nodeUpdated_iff (old new : Node) :
    nodeUpdated old new = true ↔
      (old.labels.get openELBNodeRack).isSome ∧ new.labels.isNil = true := by
  rw [nodeUpdated, decide_eq_true_iff, haveLabel, haveLabel]
  by_cases hold : old.labels.isNil = true
  · rw [if_neg (not_not.mpr hold), get_of_isNil hold]
    simp
  · rw [if_pos hold]
    by_cases hnew : new.labels.isNil = true
    · rw [if_neg (not_not.mpr hnew)]
      simp [hnew, Option.isSome_iff_ne_none]
    · rw [if_pos hnew]
      simp [hnew]

/-! ## What gobgp is given -/

/-- The rack, the AS number and the router id that `Reconcile` passes to
`HandleBgpGlobalConfig` for a node. -/
def passed (spec : BgpConfSpec) (node : Node) : String × Nat × String :=
  ((nodeConf spec node).1, (nodeConf spec node).2.as, (nodeConf spec node).2.routerId)

/-- The value of the rack label; empty if there is none. -/
def rackLabel (node : Node) : String := (node.labels.get openELBNodeRack).getD ""

theorem passed_of_isNil {spec : BgpConfSpec} (h : spec.asPerRack.isNil = true) (node : Node) :
    passed spec node =
      ("", spec.as, if spec.routerId = "" then ipString (getNodeIP node) else spec.routerId) := by
  rw [passed, nodeConf]
  simp [h]

theorem passed_rack {spec : BgpConfSpec} (h : spec.asPerRack.isNil = false) (node : Node) :
    (passed spec node).1 = rackLabel node := by
  rw [passed, nodeConf]
  dsimp only
  by_cases hlabel : rackLabel node = ""
  · rw [if_neg fun hc => hc.1 hlabel]
    exact hlabel.symm
  · rw [if_pos ⟨hlabel, by simp [h]⟩]
    rfl

/-- **For nodes with one address, the values differ exactly if the racks do**, and racks
matter. -/
theorem passed_ne_iff {spec : BgpConfSpec} {old new : Node}
    (hip : getNodeIP old = getNodeIP new) :
    passed spec old ≠ passed spec new ↔
      spec.asPerRack.isNil = false ∧ rackLabel old ≠ rackLabel new := by
  by_cases hnil : spec.asPerRack.isNil = true
  · rw [passed_of_isNil hnil, passed_of_isNil hnil, hip]
    simp [hnil]
  · have hnil : spec.asPerRack.isNil = false := Bool.eq_false_iff.mpr hnil
    refine ⟨fun hne => ⟨hnil, fun hlabel => hne ?_⟩, fun ⟨_, hlabel⟩ heq => hlabel ?_⟩
    · unfold rackLabel at hlabel
      rw [passed, passed, nodeConf, nodeConf, hlabel, hip]
    · rw [← passed_rack hnil old, ← passed_rack hnil new, heq]

/-! ## Changes that are let through -/

/-- **When a change that matters is let through.**  For two versions of the node with one
internal address, a change of the values for gobgp makes the predicate true exactly if the
configuration has no numbers for racks, or the racks are the same (so that there is no such
change), or the old node has the rack label and the new one has no labels at all. -/
theorem rack_change_iff {spec : BgpConfSpec} {old new : Node}
    (hip : getNodeIP old = getNodeIP new) :
    (passed spec old ≠ passed spec new → nodeUpdated old new = true) ↔
      spec.asPerRack.isNil = true ∨ rackLabel old = rackLabel new ∨
        ((old.labels.get openELBNodeRack).isSome ∧ new.labels.isNil = true) := by
  rw [passed_ne_iff hip, nodeUpdated_iff]
  by_cases hnil : spec.asPerRack.isNil = true
  · simp [hnil]
  · by_cases hlabel : rackLabel old = rackLabel new
    · simp [hlabel]
    · simp [hnil, hlabel]

/-- A node of the rack, with its address. -/
def rackNode (rack : String) : Node where
  name := "node"
  labels := Map.nil.set openELBNodeRack rack
  addresses := [⟨.internalIP, "192.0.2.1"⟩]

/-- Numbers for two racks. -/
def rackSpec : BgpConfSpec where
  as := 64512
  asPerRack := (Map.nil.set "left" 64513).set "right" 64514

/-- The node without labels. -/
def bareNode : Node where
  name := "node"
  addresses := [⟨.internalIP, "192.0.2.1"⟩]

theorem rack_change_iff_unlabelled :
    getNodeIP (rackNode "left") = getNodeIP bareNode ∧
      (passed rackSpec (rackNode "left") ≠ passed rackSpec bareNode →
        nodeUpdated (rackNode "left") bareNode = true) := by
  have hip : getNodeIP (rackNode "left") = getNodeIP bareNode := rfl
  refine ⟨hip, (rack_change_iff hip).mpr (.inr (.inr ⟨?_, rfl⟩))⟩
  decide

/-- The node is moved to the other rack, and nothing happens. -/
theorem rack_change_ignored :
    getNodeIP (rackNode "left") = getNodeIP (rackNode "right") ∧
      passed rackSpec (rackNode "left") = ("left", 64513, "192.0.2.1") ∧
      passed rackSpec (rackNode "right") = ("right", 64514, "192.0.2.1") ∧
      nodeUpdated (rackNode "left") (rackNode "right") = false := by
  decide +kernel

end OpenELB.Bgp
