import OpenELB.Objects
import OpenELB.GoNet
import OpenELB.GoSha256
import OpenELB.ProgLogic

/-! # The BGP speaker

`pkg/speaker/bgp/bgp/path.go`: the speaker that announces an address by putting a host
route for it into the table of gobgp, with one path for each node that leads to it.

What gobgp does is not modelled here; the code below asks for it (`BgpCall`).  Between
two of these calls other goroutines run: the field `rack` of the speaker is written by
the reconciler of the BGP configuration and read by `SetBalancer`, so its accesses are
calls as well.

`ListPath` hands what it finds to a callback, which runs at most once for the prefix of
one address; here it answers with the paths, or with nothing.  Log lines and metrics are
left out, with the list of peers that is only fetched for them. -/
namespace OpenELB.Bgp
open Go Prog

/-! ## Paths -/

/-- The 32-bit FNV-1a hash, `hash/fnv`. -/
def fnv32a (bs : List UInt8) : UInt32 :=
  bs.foldl (fun h b => (h ^^^ b.toUInt32) * 16777619) 2166136261

/-- `getPathIdentifier`. -/
def getPathIdentifier (nexthop : String) : UInt32 := fnv32a (bytesOf nexthop)

/-- `api.Family`, of unicast routes. -/
inductive Family where
  | ip
  | ip6
  deriving DecidableEq

/-- The address is an IPv4 address, also when it is written as an IPv6 one. -/
def isV4 (ip : String) : Bool := ((parseIP ip).bind to4).isSome

/-- `getFamily`. -/
def getFamily (ip : String) : Family := if isV4 ip then .ip else .ip6

/-- `api.Path`: the family, the address and the length of its prefix, the next hops in a
`NextHopAttribute` and in an `MpReachNLRIAttribute` if it has these, and the path
identifier.  The origin is the same for all. -/
structure ApiPath where
  family : Family
  addr : String
  prefixLen : Nat
  nexthop : Option String
  mpReach : Option String := none
  identifier : UInt32
  deriving DecidableEq

/-- `toAPIPath`. -/
def toAPIPath (ip : String) (prefixLen : Nat) (nexthop : String) : ApiPath where
  family := getFamily ip
  addr := ip
  prefixLen := prefixLen
  nexthop := some nexthop
  identifier := getPathIdentifier nexthop

/-- `fromAPIPath`: the next hop, nil if there is none or it is no address.  Of the
attributes only `NextHopAttribute` is looked at. -/
def fromAPIPath (path : ApiPath) : IP := (path.nexthop.bind parseIP).getD []

/-! ## Calls -/

/-- What the speaker asks of gobgp, and its accesses to the rack. -/
inductive BgpCall where
  | getBgp
  | listPath (family : Family) (ip : String)
  | addPath (path : ApiPath)
  | deletePath (path : ApiPath)
  | getRack
  | setRack (rack : String)
  | stopBgp
  | startBgp (as : Nat) (routerId : String)
  /-- The order in which `range m` visits the keys. -/
  | rangeKeys (m : Map String Bool)
  deriving DecidableEq

/-- The types of the answers.  `getBgp` answers with the AS number. -/
abbrev BgpReply : BgpCall → Type
  | .getBgp => Except Err Nat
  | .listPath _ _ => Except Err (Option (List ApiPath))
  | .addPath _ | .deletePath _ | .stopBgp | .startBgp _ _ => Except Err Unit
  | .getRack => String
  | .setRack _ => Unit
  | .rangeKeys _ => List String

/-- Code of the speaker, which may return an error. -/
abbrev BgpCode := ExceptT Err (Prog BgpCall BgpReply)

/-- Make a call. -/
abbrev send (c : BgpCall) : BgpCode (BgpReply c) := Prog.ask c

/-! ## Setting the routes of an address -/

/-- `m[k] = true` for each text of a list. -/
def keySet (keys : List String) : Map String Bool :=
  keys.foldl (fun m key => m.set key true) Map.empty

/-- The callback of `retriveRoutes`: the next hops to add and those to delete. -/
def compareRoutes (paths : List ApiPath) (nexthops : List String) :
    BgpCode (List String × List String) := do
  let origins := keySet (paths.map fun path => ipString (fromAPIPath path))
  let news := keySet nexthops
  let olds : List String ← send (.rangeKeys origins)
  let keys : List String ← send (.rangeKeys news)
  pure (keys.filter fun key => (origins.get key).isNone,
    olds.filter fun key => (news.get key).isNone)

/-- `retriveRoutes`. -/
def retriveRoutes (ip : String) (nexthops : List String) :
    BgpCode (List String × List String) := do
  let dest : Option (List ApiPath) ← must (← send (.listPath (getFamily ip) ip))
  match dest with
  | some paths => compareRoutes paths nexthops
  | none => pure (nexthops, [])

/-- `addMultiRoutes`. -/
def addMultiRoutes (ip : String) (prefixLen : Nat) : List String → BgpCode Unit
  | [] => pure ()
  | nexthop :: nexthops => do
    must (← send (.addPath (toAPIPath ip prefixLen nexthop)))
    addMultiRoutes ip prefixLen nexthops

/-- `deleteMultiRoutes`. -/
def deleteMultiRoutes (ip : String) (prefixLen : Nat) : List String → BgpCode Unit
  | [] => pure ()
  | nexthop :: nexthops => do
    must (← send (.deletePath (toAPIPath ip prefixLen nexthop)))
    deleteMultiRoutes ip prefixLen nexthops

/-- The length of the prefix of a host. -/
def hostLen (ip : String) : Nat := if isV4 ip then 32 else 128

/-- `setBalancer`. -/
def setBalancer (ip : String) (nexthops : List String) : BgpCode Unit := do
  let (toAdd, toDelete) ← retriveRoutes ip nexthops
  addMultiRoutes ip (hostLen ip) toAdd
  deleteMultiRoutes ip (hostLen ip) toDelete

/-! ## The speaker's interface -/

/-- `ready`. -/
def ready : BgpCode Unit := do
  let as : Nat ← must (← send .getBgp)
  if as = 0 then throw (.text "Bgp not ready, please config bgpconf/bgppeer")
  else pure ()

/-- `constant.OpenELBNodeRack`. -/
def openELBNodeRack : String := "openelb.kubesphere.io/rack"

/-- `getNodeNextHop`. -/
def getNodeNextHop (node : Node) : Except Err String :=
  match node.addresses.find? fun addr => addr.type = .internalIP with
  | some addr => .ok addr.address
  | none => .error (.text "node has no internal ip")

/-- The node is one that the speaker of this rack announces addresses towards. -/
def eligible (rack : String) (node : Node) : Bool :=
  (node.labels.get openELBNodeRack).getD "" = rack ∨ rack = ""

/-- The loop of `SetBalancer` over the nodes.  The rack is read for each. -/
def nextHops : List Node → BgpCode (List String)
  | [] => pure []
  | node :: nodes => do
    let rack : String ← send .getRack
    if eligible rack node then do
      let nexthop ← must (getNodeNextHop node)
      let rest ← nextHops nodes
      pure (nexthop :: rest)
    else nextHops nodes

/-- `SetBalancer`. -/
def setBalancerNodes (ip : String) (nodes : List Node) : BgpCode Unit := do
  ready
  let nexthops ← nextHops nodes
  setBalancer ip nexthops

/-- The callback of `DelBalancer`: it stops at the first error. -/
def deletePaths : List ApiPath → BgpCode Unit
  | [] => pure ()
  | path :: paths => do
    must (← send (.deletePath path))
    deletePaths paths

/-- `DelBalancer`, when BGP is ready. -/
def withdrawRoutes (ip : String) : BgpCode Unit := do
  let dest : Option (List ApiPath) ← must (← send (.listPath (getFamily ip) ip))
  deletePaths (dest.getD [])

/-- `DelBalancer`.  When BGP is not ready there is nothing to do. -/
def delBalancer (ip : String) : BgpCode Unit := do
  let r : Except Err Unit ← attempt ready
  match r with
  | .error _ => pure ()
  | .ok _ => withdrawRoutes ip

end OpenELB.Bgp
