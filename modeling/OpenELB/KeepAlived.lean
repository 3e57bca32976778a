import OpenELB.GoSha256
import OpenELB.IdAlloc
import OpenELB.SpeakerConfig

/-! # The vip speaker

`pkg/speaker/vip/keepalived.go`: for every set of nodes and interface there is one VRRP
instance, named by the hash of the node names, with the virtual addresses that these
nodes serve.  An instance is made when its first address comes and removed with its
last, and its router id comes from the id allocator.

A method returns its error and the state it leaves.  The configuration file and the
signal to the process do not touch the state; what they answer is the argument `io`.
`order` is the order in which the loop over the configurations visits them. -/
namespace OpenELB
open Go

/-- `instances`: a VRRP instance. -/
structure Instance where
  name : String
  iface : String
  routeID : Nat
  svcips : List String := []
  priority : Int
  enabled : Bool := false
  deriving DecidableEq

/-- `keepAlived`. -/
structure KeepAlived where
  instances : Map String Instance
  vips : Map String String
  configs : Map String Config
  idAlloc : IDAllocator

/-- `NewKeepAlived`. -/
def newKeepAlived : Option KeepAlived :=
  (IDAllocator.new 256).map fun idAlloc => ⟨Map.empty, Map.empty, Map.empty, idAlloc⟩

/-- The names of the nodes, in order. -/
def nodeNames (nodes : List Node) : List String := (nodes.map Node.name).insertionSort (· ≤ ·)

/-- `getNodeSha256Bytes`. -/
def getNodeSha256Bytes (nodes : List Node) : List UInt8 := sum256 (join ',' (nodeNames nodes))

/-- `isNodeInList`, on the node with this name. -/
def isNodeInList (nodeName : String) (nodes : List Node) : Bool :=
  nodes.any fun node => node.name = nodeName

/-- The name of an instance. -/
def instanceName (nodes : List Node) (iface : String) : String :=
  hexEncode (getNodeSha256Bytes nodes) ++ "-" ++ iface

/-- What `cleanRecord` makes of the addresses of an instance: the first occurrence of the
address is cut out, at the front, at the end or in the middle. -/
def removeVip (svcips : List String) (vip : String) : List String :=
  match svcips.findIdx? (· = vip) with
  | none => svcips
  | some i =>
    if i = 0 then svcips.drop 1
    else if i = svcips.length - 1 then svcips.take (svcips.length - 1)
    else svcips.take i ++ svcips.drop (i + 1)

/-- Whichever way, the first occurrence is erased. -/
theorem removeVip_eq (svcips : List String) (vip : String) :
    removeVip svcips vip = svcips.erase vip := by
  rw [removeVip, List.erase_eq_eraseP', List.eraseP_eq_eraseIdx]
  have hidx : svcips.findIdx? (· = vip) = svcips.findIdx? (· == vip) := by
    congr 1
  rw [hidx]
  split
  · rename_i h
    simp [h]
  · rename_i i h
    have hlt : i < svcips.length := (List.findIdx?_eq_some_iff_findIdx_eq.mp h).1
    rw [h]
    dsimp only
    split
    · subst i
      cases svcips <;> rfl
    · split
      · subst i
        rw [List.eraseIdx_length_sub_one, List.dropLast_eq_take]
      · exact (List.eraseIdx_eq_take_drop_succ ..).symm

namespace KeepAlived
variable (k : KeepAlived)

/-- `getInterfaces`: the interface of the first configuration with the address. -/
def getInterfaces (order : List String) (vip : String) : String :=
  match (order.filterMap k.configs.get).find? fun c => c.ipRange.contains ((parseIP vip).getD []) with
  | some c => c.iface
  | none => ""

/-- `cleanRecord`. -/
def cleanRecord (vip instanceName : String) : KeepAlived :=
  match k.instances.get instanceName with
  | none => k
  | some inst =>
    let inst := { inst with svcips := removeVip inst.svcips vip }
    if inst.svcips = [] then
      { k with
        instances := k.instances.delete instanceName
        idAlloc := k.idAlloc.free inst.routeID }
    else { k with instances := k.instances.set instanceName inst }

/-- The old record of an address is cleaned. -/
def cleanOld (vip : String) : KeepAlived :=
  match k.vips.get vip with
  | some value => k.cleanRecord vip value
  | none => k

/-- The address is added to the instance. -/
def enlist (nodeName instanceName vip : String) (nodes : List Node) (inst : Instance) : KeepAlived :=
  { k with
    instances := k.instances.set instanceName { inst with
      enabled := isNodeInList nodeName nodes
      svcips := inst.svcips ++ [vip] }
    vips := k.vips.set vip instanceName }

/-- The part of `SetBalancer` that generates the new record. -/
def addRecord (nodeName iface vip : String) (nodes : List Node) : Except String Unit × KeepAlived :=
  let name := instanceName nodes iface
  match k.instances.get name with
  | some inst => (.ok (), k.enlist nodeName name vip nodes inst)
  | none =>
    match k.idAlloc.allocateWithHash (getNodeSha256Bytes nodes) with
    | (.error e, idAlloc) => (.error e, { k with idAlloc := idAlloc })
    | (.ok routeid, idAlloc) =>
      (.ok (), { k with idAlloc := idAlloc }.enlist nodeName name vip nodes
        { name := name, iface := iface, routeID := routeid, priority := 100 })

/-- `SetBalancer`. -/
def setBalancer (nodeName : String) (order : List String) (io : Except String Unit) (vip : String)
    (nodes : List Node) : Except String Unit × KeepAlived :=
  let iface := k.getInterfaces order vip
  if iface = "" then (.error ("no interface found for VIP " ++ vip), k)
  else
    match (k.cleanOld vip).addRecord nodeName iface vip nodes with
    | (.error e, k) => (.error e, k)
    | (.ok (), k) => (io, k)

/-- `DelBalancer`. -/
def delBalancer (io : Except String Unit) (vip : String) : Except String Unit × KeepAlived :=
  match k.vips.get vip with
  | none => (.ok (), k)
  | some instanceName =>
    let k := { k with vips := k.vips.delete vip }
    if (k.instances.get instanceName).isNone then (.ok (), k)
    else (io, k.cleanRecord vip instanceName)

/-- `ConfigureWithEIP`. -/
def configureWithEIP (host : Host) (config : Config) (deleted : Bool) :
    Except String Unit × KeepAlived :=
  match parseInterface host config.iface with
  | .error e => (.error e, k)
  | .ok netif =>
    match validateInterface netif config.ipRange with
    | .error e => (.error e, k)
    | .ok () =>
      (.ok (), { k with
        configs := if deleted then k.configs.delete config.name
          else k.configs.set config.name { config with iface := netif.name } })

end KeepAlived

/-- One call of a method on the node with this name, what it returns and the state it
leaves.  The addresses are given to lists of nodes in `T`. -/
inductive VipStep (nodeName : String) (T : Set (List Node)) :
    KeepAlived → Except String Unit → KeepAlived → Prop
  | setBalancer {k : KeepAlived} (order : List String) (io : Except String Unit) (vip : String)
      (nodes : List Node) : k.configs.Ranges order → nodes ∈ T →
      VipStep nodeName T k (k.setBalancer nodeName order io vip nodes).1
        (k.setBalancer nodeName order io vip nodes).2
  | delBalancer {k : KeepAlived} (io : Except String Unit) (vip : String) :
      VipStep nodeName T k (k.delBalancer io vip).1 (k.delBalancer io vip).2
  | configureWithEIP {k : KeepAlived} (host : Host) (config : Config) (deleted : Bool) :
      VipStep nodeName T k (k.configureWithEIP host config deleted).1
        (k.configureWithEIP host config deleted).2

/-- The states that calls reach from a new speaker. -/
inductive VipReach (nodeName : String) (T : Set (List Node)) : KeepAlived → Prop
  | new {k : KeepAlived} : newKeepAlived = some k → VipReach nodeName T k
  | step {k k' : KeepAlived} {r : Except String Unit} : VipReach nodeName T k →
      VipStep nodeName T k r k' → VipReach nodeName T k'

end OpenELB
