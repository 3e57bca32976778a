import OpenELB.Objects
import OpenELB.IpRange
import OpenELB.ProgLogic

/-! # The speaker's manager

`pkg/speaker/manager.go`, `pkg/speaker/eip_controller.go` and `pkg/speaker/lb_controller.go`:
the process on every node that follows the Eips, and the services that have addresses of
them, and tells its speakers (BGP, layer 2, VIP) which addresses to announce, and towards
which nodes.

The manager keeps in `pools` the version of each Eip it has announced last, and
compares a new version with it.  Reading and writing that map is a call here, like a
request to the API server or to a speaker, so that the code below is what one worker
does between the steps of the others.  The table of registered speakers is filled
before the workers start and then only read; the code below takes its keys.

Events and log lines are left out, with the requests that are only made for them. -/
namespace OpenELB
open Go

/-! ## Endpoints -/

/-- `EndpointAddress`: the node that hosts the endpoint, if it is known. -/
structure EndpointAddress where
  nodeName : Option String := none
  deriving DecidableEq

/-- `EndpointSubset`. -/
structure EndpointSubset where
  addresses : List EndpointAddress := []
  deriving DecidableEq

/-- `Endpoints`. -/
structure Endpoints where
  subsets : List EndpointSubset := []
  deriving DecidableEq

/-- The keys of the map `active` that `getServiceNodes` makes of the endpoints. -/
def Endpoints.active (endpoints : Endpoints) : List String :=
  endpoints.subsets.flatMap fun subset => subset.addresses.filterMap (·.nodeName)

/-! ## Calls -/

/-- What the manager asks of the API server and of the speakers, and its accesses to
its pools. -/
inductive SpeakerCall where
  | getEip (name : String)
  | listEips
  | listNodes
  | getService (k : NamespacedName)
  | getEndpoints (k : NamespacedName)
  | getPool (name : String)
  | setPool (name : String) (eip : Eip)
  | deletePool (name : String)
  /-- The order in which `range usage` visits the keys. -/
  | rangeUsage (usage : Map String String)
  /-- The order in which `range nodeSets` visits the keys. -/
  | rangeNodes (nodeSets : Map String Node)
  | setBalancer (protocol ip : String) (nexthops : List Node)
  | delBalancer (protocol ip : String)
  | configureWithEIP (protocol name iface : String) (r : Option IpRange.Range) (deleted : Bool)
  deriving DecidableEq

/-- The types of the answers. -/
abbrev SpeakerReply : SpeakerCall → Type
  | .getEip _ => Except ApiErr Eip
  | .listEips => Except ApiErr (List Eip)
  | .listNodes => Except ApiErr (List Node)
  | .getService _ => Except ApiErr Service
  | .getEndpoints _ => Except ApiErr Endpoints
  | .getPool _ => Option Eip
  | .setPool _ _ | .deletePool _ => Unit
  | .rangeUsage _ | .rangeNodes _ => List String
  | .setBalancer _ _ _ | .delBalancer _ _ | .configureWithEIP _ _ _ _ _ => Except Err Unit

/-- Code of the manager, which may return an error. -/
abbrev SpeakerCode := ExceptT Err (Prog SpeakerCall SpeakerReply)

open Prog (must)

/-- Make a call. -/
abbrev send (c : SpeakerCall) : SpeakerCode (SpeakerReply c) := Prog.ask c

/-- Return the error of a request to the API server, if it has one. -/
def orApiErr {α : Type} (r : Except ApiErr α) : SpeakerCode α := must (r.mapError Err.api)

/-! ## Nodes of a service -/

/-- `nodeSets[node.Name] = node` for each node of a list. -/
def addNodes (nodes : List Node) (nodeSets : Map String Node) : Map String Node :=
  nodes.foldl (fun m node => m.set node.name node) nodeSets

/-- The loop of `getServiceNodes` over the services that share an address: all nodes
for a service, or with the policy `Local` those that host an endpoint of it. -/
def gatherNodes (nodeList : List Node) : List String → Map String Node →
    SpeakerCode (Map String Node)
  | [], nodeSets => pure nodeSets
  | str :: strs, nodeSets =>
    match split '/' str with
    | [ns, name] => do
      let svc ← orApiErr (← send (.getService ⟨ns, name⟩))
      let endpoints ← orApiErr (← send (.getEndpoints svc.key))
      if svc.externalTrafficPolicy = .onlyLocal then
        if endpoints.active = [] then gatherNodes nodeList strs nodeSets
        else
          gatherNodes nodeList strs
            (addNodes (nodeList.filter fun node => node.name ∈ endpoints.active) nodeSets)
      else gatherNodes nodeList strs (addNodes nodeList nodeSets)
    | _ => gatherNodes nodeList strs nodeSets

/-- `getServiceNodes` up to the loop over `nodeSets`. -/
def serviceNodeSets (svcs : String) : SpeakerCode (Map String Node) := do
  let nodeList ← orApiErr (← send .listNodes)
  gatherNodes nodeList (split ';' svcs) Map.empty

/-- `getServiceNodes`. -/
def getServiceNodes (svcs : String) : SpeakerCode (List Node) := do
  let nodeSets ← serviceNodeSets svcs
  let names : List String ← send (.rangeNodes nodeSets)
  pure (names.filterMap nodeSets.get)

/-! ## Announcing and withdrawing -/

/-- The loop of `setBalancer` over the addresses. -/
def setBalancers (protocol : String) (usage : Map String String) : List String → SpeakerCode Unit
  | [] => pure ()
  | ip :: ips => do
    let nodes ← getServiceNodes ((usage.get ip).getD "")
    if nodes = [] then setBalancers protocol usage ips
    else do
      must (← send (.setBalancer protocol ip nodes))
      setBalancers protocol usage ips

/-- `setBalancer`. -/
def setBalancer (protocol : String) (usage : Map String String) : SpeakerCode Unit := do
  let ips ← send (.rangeUsage usage)
  setBalancers protocol usage ips

/-- The loop of `delBalancer` over the addresses. -/
def delBalancers (protocol : String) : List String → SpeakerCode Unit
  | [] => pure ()
  | ip :: ips => do
    must (← send (.delBalancer protocol ip))
    delBalancers protocol ips

/-- `delBalancer`. -/
def delBalancer (protocol : String) (usage : Map String String) : SpeakerCode Unit := do
  let ips ← send (.rangeUsage usage)
  delBalancers protocol ips

/-- `Eip.GetProtocol`. -/
def Eip.getProtocol (e : Eip) : String :=
  if e.spec.protocol = openELBProtocolLayer2 then openELBProtocolLayer2
  else if e.spec.protocol = openELBProtocolVip then openELBProtocolVip
  else openELBProtocolBGP

/-- `setBalancerWithEIP`. -/
def setBalancerWithEIP (eip : Eip) : SpeakerCode Unit := do
  let r ← must ((IpRange.parseRange eip.spec.address).mapError Err.text)
  must (← send (.configureWithEIP eip.getProtocol eip.name eip.spec.interface r false))
  setBalancer eip.getProtocol eip.status.used

/-- `delBalancerWithEIP`. -/
def delBalancerWithEIP (eip : Eip) : SpeakerCode Unit := do
  delBalancer eip.getProtocol eip.status.used
  let r ← must ((IpRange.parseRange eip.spec.address).mapError Err.text)
  must (← send (.configureWithEIP eip.getProtocol eip.name eip.spec.interface r true))

/-! ## Following an Eip -/

/-- `util.DiffMaps`: the entries to add and those to delete.  Keys are compared, values
are not. -/
def diffMaps (old new : Map String String) : Map String String × Map String String :=
  (new.without old, old.without new)

/-- `isSpeakerConfigUpdate`.  The parameters have the source's names; `HandleEIP` passes
the new version as `old` and the recorded one as `new`. -/
def isSpeakerConfigUpdate (old new : EipSpec) : Bool :=
  if old.protocol ≠ new.protocol then true
  else decide (new.protocol ≠ openELBProtocolBGP ∧ old.interface ≠ new.interface)

/-- `HandleEIP`, for an Eip that has an entry in the pools. -/
def handleKnownEIP (oldData eip : Eip) : SpeakerCode Unit :=
  if eip.deletionTimestamp then do
    delBalancerWithEIP oldData
    send (.deletePool eip.name)
  else if isSpeakerConfigUpdate eip.spec oldData.spec then do
    delBalancerWithEIP oldData
    send (.deletePool eip.name)
    setBalancerWithEIP eip
    send (.setPool eip.name eip)
  else if eip.status.used ≠ oldData.status.used then do
    let (add, del) := diffMaps oldData.status.used eip.status.used
    delBalancer eip.getProtocol del
    setBalancer eip.getProtocol add
    send (.setPool eip.name eip)
  else pure ()

/-- `HandleEIP`. -/
def handleEIP (speakers : List String) (eip : Eip) : SpeakerCode Unit :=
  if eip.getProtocol ∉ speakers then
    throw (.text ("no registered speaker:[" ++ eip.getProtocol ++ "] eip:[" ++ eip.name ++ "]"))
  else do
    let entry : Option Eip ← send (.getPool eip.name)
    match entry with
    | none => do
      setBalancerWithEIP eip
      send (.setPool eip.name eip)
    | some oldData => handleKnownEIP oldData eip

/-! ## Following a service -/

/-- `getSvcEIPUsed`. -/
def getSvcEIPUsed (svc : Service) : String :=
  let eipName := (svc.labels.get openELBEIPAnnotationKeyV1Alpha2).getD ""
  if eipName ≠ "" then eipName else (svc.annotations.get openELBEIPAnnotationKeyV1Alpha2).getD ""

/-- The services of an address and the given one once more, as `HandleService` lists
them. -/
def sharedWith (used : Map String String) (svc : Service) (ip : String) : String :=
  match used.get ip with
  | some value => value ++ ";" ++ svc.key.text
  | none => svc.key.text

/-- The loop of `HandleService` over the addresses of the service. -/
def ingressUsage (used : Map String String) (addr : Option IpRange.Range) (svc : Service) :
    List LoadBalancerIngress → Map String String → Except Err (Map String String)
  | [], ingress => .ok ingress
  | ip :: ips, ingress =>
    if (used.get ip.ip).getD "" = svc.key.text then ingressUsage used addr svc ips ingress
    else
      match addr with
      -- calling `Contains` of no range is a panic
      | none => .error (.text "invalid memory address or nil pointer dereference")
      | some r =>
        if r.contains ((parseIP ip.ip).getD []) then
          ingressUsage used addr svc ips (ingress.set ip.ip (sharedWith used svc ip.ip))
        else ingressUsage used addr svc ips ingress

/-- `HandleService`. -/
def handleService (svc : Service) : SpeakerCode Unit :=
  if svc.deletionTimestamp then pure ()
  else do
    let entry : Option Eip ← send (.getPool (getSvcEIPUsed svc))
    match entry with
    | none => pure ()
    | some eip => do
      let addr ← must ((IpRange.parseRange eip.spec.address).mapError Err.text)
      let ingress ← must (ingressUsage eip.status.used addr svc (svc.ingress.getD []) Map.empty)
      setBalancer eip.getProtocol ingress

/-! ## The reconcilers -/

/-- `IsOpenELBService`, of the speaker. -/
def isSpeakerService (svc : Service) : Bool :=
  svc.type = .loadBalancer ∧
    svc.annotations.get openELBAnnotationKey = some openELBAnnotationValue

/-- What `shouldReconcileEP` does with the answer to its read. -/
def isLocalService : Except ApiErr Service → Bool
  | .error e => e ≠ .notFound
  | .ok svc => svc.externalTrafficPolicy = .onlyLocal ∧ isSpeakerService svc

/-- `shouldReconcileEP`: whether an event of the endpoints with these annotations and this
name concerns a service. -/
def shouldReconcileEP (annotations : Map String String) (k : NamespacedName) :
    SpeakerCode Bool :=
  if (annotations.get "control-plane.alpha.kubernetes.io/leader").getD "" ≠ "" then pure false
  else do
    let r : Except ApiErr Service ← send (.getService k)
    pure (isLocalService r)

/-- What `LBReconciler.Reconcile` does with the answer to its read. -/
def handleReadService : Except ApiErr Service → SpeakerCode Unit
  | .error .notFound => pure ()
  | .error e => throw (.api e)
  | .ok svc => handleService svc

/-- `LBReconciler.Reconcile`. -/
def reconcileLB (req : NamespacedName) : SpeakerCode Unit := do
  let r : Except ApiErr Service ← send (.getService req)
  handleReadService r

/-- `constant.Layer2ReloadEIPName`. -/
def layer2ReloadEIPName : String := "reload"
/-- `constant.Layer2ReloadEIPNamespace`. -/
def layer2ReloadEIPNamespace : String := "openelb-layer2-eip-reload"

/-- The loop of `ResyncEIPSpeaker`: an error is logged, and the next Eip is done. -/
def resyncEips : List Eip → SpeakerCode Unit
  | [] => pure ()
  | e :: es =>
    if e.spec.protocol ≠ openELBProtocolLayer2 then resyncEips es
    else do
      let _ ← Prog.attempt (setBalancer openELBProtocolLayer2 e.status.used)
      resyncEips es

/-- `ResyncEIPSpeaker`. -/
def resyncEIPSpeaker : SpeakerCode Unit := do
  let eips ← orApiErr (← send .listEips)
  resyncEips eips

/-- `reloadLayer2Speaker`. -/
def reloadLayer2Speaker (req : NamespacedName) : Bool :=
  req.name = layer2ReloadEIPName ∧ req.ns = layer2ReloadEIPNamespace

/-- What `EIPReconciler.Reconcile` does with the answer to its read. -/
def handleRead (speakers : List String) : Except ApiErr Eip → SpeakerCode Unit
  | .error .notFound => pure ()
  | .error e => throw (.api e)
  | .ok eip => handleEIP speakers eip

/-- `EIPReconciler.Reconcile`, of the speaker. -/
def reconcileSpeakerEip (speakers : List String) (req : NamespacedName) : SpeakerCode Unit :=
  if reloadLayer2Speaker req then resyncEIPSpeaker
  else do
    let r : Except ApiErr Eip ← send (.getEip req.name)
    handleRead speakers r

end OpenELB
