import OpenELB.BgpPaths

/-! # The BGP configuration

`pkg/speaker/bgp/bgp/conf.go`, the part of `policy.go` that decides whether there is a
policy to set, and `pkg/speaker/bgp/bgpconf_controller.go`: the reconciler that follows
the object `BgpConf` and starts gobgp with what it says.

`HandleBgpGlobalConfig` stops gobgp and starts it again, whatever has changed.  The
peers are added again afterwards (`reconfigPeers`); nothing adds the routes.

What is in a policy file, and how a peer is configured, is left to the calls
`setPolicies` and `handleBgpPeer`. -/
namespace OpenELB.Bgp
open Go Prog

/-! ## Objects -/

/-- `BgpConfSpec`.  Its other fields are handed to gobgp and not looked at. -/
structure BgpConfSpec where
  as : Nat := 0
  asPerRack : Map String Nat := Map.nil
  routerId : String := ""
  policy : String := ""
  deriving DecidableEq

/-- `BgpConf`. -/
structure BgpConf where
  name : String
  annotations : Map String String := Map.nil
  finalizers : List String := []
  deletionTimestamp : Bool := false
  spec : BgpConfSpec := {}
  deriving DecidableEq

/-- `ConfigMap`. -/
structure ConfigMap where
  data : Map String String := Map.nil
  deriving DecidableEq

/-- `metav1.LabelSelectorOperator`. -/
inductive SelectorOperator where
  | isIn
  | notIn
  | isThere
  | doesNotExist
  deriving DecidableEq

/-- `metav1.LabelSelectorRequirement`. -/
structure SelectorRequirement where
  key : String
  operator : SelectorOperator
  values : List String := []
  deriving DecidableEq

/-- `metav1.LabelSelector`. -/
structure LabelSelector where
  matchLabels : Map String String := Map.nil
  matchExpressions : List SelectorRequirement := []
  deriving DecidableEq

/-- `Message`: how many messages of each kind there were. -/
structure Message where
  notification : String := ""
  update : String := ""
  open' : String := ""
  keepalive : String := ""
  refresh : String := ""
  discarded : String := ""
  total : String := ""
  withdrawUpdate : String := ""
  withdrawPrefix : String := ""
  deriving DecidableEq

/-- `Messages`. -/
structure Messages where
  received : Option Message := none
  sent : Option Message := none
  deriving DecidableEq

/-- `Queues`. -/
structure Queues where
  input : Nat := 0
  output : Nat := 0
  deriving DecidableEq

/-- `PeerState`. -/
structure PeerState where
  authPassword : String := ""
  description : String := ""
  localAs : Nat := 0
  messages : Option Messages := none
  neighborAddress : String := ""
  peerAs : Nat := 0
  peerGroup : String := ""
  peerType : Nat := 0
  queues : Option Queues := none
  removePrivateAs : Nat := 0
  routeFlapDamping : Bool := false
  sendCommunity : Nat := 0
  sessionState : String := ""
  adminState : String := ""
  outQ : Nat := 0
  flops : Nat := 0
  routerId : String := ""
  deriving DecidableEq

/-- `TimersState`. -/
structure TimersState where
  connectRetry : String := ""
  holdTime : String := ""
  keepaliveInterval : String := ""
  minimumAdvertisementInterval : String := ""
  negotiatedHoldTime : String := ""
  uptime : String := ""
  downtime : String := ""
  deriving DecidableEq

/-- `NodePeerStatus`. -/
structure NodePeerStatus where
  peerState : PeerState := {}
  timersState : TimersState := {}
  deriving DecidableEq

/-- `PeerConf`.  Its other fields are for `HandleBgpPeer`. -/
structure PeerConf where
  neighborAddress : String := ""
  deriving DecidableEq

/-- `BgpPeer`.  The rest of it is for `HandleBgpPeer`. -/
structure BgpPeer where
  name : String
  nodeSelector : Option LabelSelector := none
  conf : Option PeerConf := none
  nodesPeerStatus : Map String NodePeerStatus := Map.nil
  deriving DecidableEq

/-- `Requirement.Matches`. -/
def SelectorRequirement.matches (req : SelectorRequirement) (labels : Map String String) : Bool :=
  match req.operator, labels.get req.key with
  | .isIn, some value => value ∈ req.values
  | .isIn, none => false
  | .notIn, some value => value ∉ req.values
  | .notIn, none => true
  | .isThere, value => value.isSome
  | .doesNotExist, value => value.isNone

/-- `Selector.Matches`. -/
def LabelSelector.matches (selector : LabelSelector) (labels : Map String String) : Bool :=
  decide (∀ k ∈ (Option.getD selector.matchLabels ∅).keys,
    labels.get k = selector.matchLabels.get k) &&
  selector.matchExpressions.all (·.matches labels)

/-! ## Calls -/

/-- What the reconciler asks of gobgp, of the API server and of the clock. -/
inductive ConfCall where
  | bgp (c : BgpCall)
  | getBgpConf (name : String)
  | updateBgpConf (conf : BgpConf)
  | getNode (name : String)
  | getConfigMap (k : NamespacedName)
  | listBgpPeers
  /-- What `updatePolicy` does with the text of a policy file. -/
  | setPolicies (policyConf : String)
  /-- `HandleBgpPeer`, of a peer that is not deleted. -/
  | handleBgpPeer (peer : BgpPeer)
  /-- `time.Now().String()`. -/
  | now
  deriving DecidableEq

/-- The types of the answers.  An update answers with the object as it is stored. -/
abbrev ConfReply : ConfCall → Type
  | .bgp c => BgpReply c
  | .getBgpConf _ | .updateBgpConf _ => Except ApiErr BgpConf
  | .getNode _ => Except ApiErr Node
  | .getConfigMap _ => Except ApiErr ConfigMap
  | .listBgpPeers => Except ApiErr (List BgpPeer)
  | .setPolicies _ | .handleBgpPeer _ => Except Err Unit
  | .now => String

/-- Code of the reconciler, which may return an error. -/
abbrev ConfCode := ExceptT Err (Prog ConfCall ConfReply)

/-- Make a call. -/
abbrev request (c : ConfCall) : ConfCode (ConfReply c) := Prog.ask c

/-- Return the error of a request to the API server, if it has one. -/
def orError {α : Type} (r : Except ApiErr α) : ConfCode α := must (r.mapError Err.api)

/-! ## Configuring gobgp -/

/-- `constant.OpenELBBgpName`. -/
def openELBBgpName : String := "gobgp.conf"

/-- `updatePolicy`. -/
def updatePolicy : Option ConfigMap → ConfCode Unit
  | none => pure ()
  | some cm =>
    match cm.data.get openELBBgpName with
    | none => pure ()
    | some policyConf => do must (← request (.setPolicies policyConf))

/-- `ToGoBgpGlobalConf`, by way of JSON: the AS number and the router id. -/
def BgpConfSpec.toGoBgpGlobalConf (spec : BgpConfSpec) : Except Err (Nat × String) :=
  .ok (spec.as, spec.routerId)

/-- `HandleBgpGlobalConfig`. -/
def handleBgpGlobalConfig (global : BgpConf) (rack : String) (delete : Bool)
    (cm : Option ConfigMap) : ConfCode Unit := do
  request (.bgp (.setRack rack))
  if delete then must (← request (.bgp .stopBgp))
  else do
    let (as, routerId) ← must global.spec.toGoBgpGlobalConf
    -- an error of `StopBgp` is ignored
    let _ ← request (.bgp .stopBgp)
    must (← request (.bgp (.startBgp as routerId)))
    updatePolicy cm

/-! ## The reconciler -/

/-- The environment of the process, and what the library says of a selector that is not
well formed. -/
structure ConfEnv where
  nodeName : String
  openELBNamespace : String := ""
  selectorErr : LabelSelector → Option String := fun _ => none

/-- `util.EnvNamespace`. -/
def ConfEnv.envNamespace (env : ConfEnv) : String :=
  if env.openELBNamespace = "" then "openelb-system" else env.openELBNamespace

/-- `util.GetNodeIP`: nil if there is none. -/
def getNodeIP (node : Node) : IP :=
  match node.addresses.find? fun address => address.type = .internalIP with
  | some address => (parseIP address.address).getD []
  | none => []

/-- The rack and the configuration for a node: the AS number of its rack, if it has a
rack, and the address of the node for a router id that is not given. -/
def nodeConf (spec : BgpConfSpec) (node : Node) : String × BgpConfSpec :=
  let label := (node.labels.get openELBNodeRack).getD ""
  let (rack, spec) :=
    if label ≠ "" ∧ ¬ spec.asPerRack.isNil then
      let as := (spec.asPerRack.get label).getD 0
      (label, { spec with as := if as > 0 then as else spec.as, routerId := "" })
    else ("", spec)
  (rack, { spec with
    routerId := if spec.routerId = "" then ipString (getNodeIP node) else spec.routerId })

/-- `getPolicyConfigMap`. -/
def getPolicyConfigMap (env : ConfEnv) (spec : BgpConfSpec) : ConfCode (Option ConfigMap) :=
  if spec.policy = "" then pure none
  else do
    let r : Except ApiErr ConfigMap ← request (.getConfigMap ⟨env.envNamespace, spec.policy⟩)
    match r with
    | .error .notFound => pure none
    | .error e => throw (.api e)
    | .ok cm => pure (some cm)

/-- `peerMatchNode`. -/
def peerMatchNode (env : ConfEnv) (peer : BgpPeer) (node : Node) : Except Err Bool :=
  match peer.nodeSelector with
  | none => .ok true
  | some selector =>
    match env.selectorErr selector with
    | some err =>
      .error (.text ("BgpPeer " ++ peer.name ++ " spec.NodeSelector invalid, err=" ++ err))
    | none => .ok (selector.matches node.labels)

/-- The loop of `reconfigPeers`. -/
def addPeers (env : ConfEnv) (node : Node) : List BgpPeer → ConfCode Unit
  | [] => pure ()
  | peer :: peers => do
    let isMatch ← must (peerMatchNode env peer node)
    if isMatch then do
      must (← request (.handleBgpPeer peer))
      addPeers env node peers
    else addPeers env node peers

/-- `reconfigPeers`. -/
def reconfigPeers (env : ConfEnv) : ConfCode Unit := do
  let peers ← orError (← request .listBgpPeers)
  let node ← orError (← request (.getNode env.nodeName))
  addPeers env node peers

/-- The finalizer is added, if it is to be. -/
def addConfFinalizer (clone : BgpConf) : ConfCode BgpConf :=
  if needToAddFinalizer clone.deletionTimestamp clone.finalizers finalizerName then do
    let finalizers := addFinalizer clone.finalizers finalizerName
    orError (← request (.updateBgpConf { clone with finalizers := finalizers }))
  else pure clone

/-- `BgpConfReconciler.Reconcile`, for an object that was found. -/
def configure (env : ConfEnv) (conf : BgpConf) : ConfCode Unit :=
  if isDeletionCandidate conf.deletionTimestamp conf.finalizers finalizerName then do
    -- an error is logged
    let _ ← attempt (handleBgpGlobalConfig conf "" true none)
    let finalizers := removeFinalizer conf.finalizers finalizerName
    let _ ← orError (← request (.updateBgpConf { conf with finalizers := finalizers }))
  else do
    let clone ← addConfFinalizer conf
    let node ← orError (← request (.getNode env.nodeName))
    let (rack, spec) := nodeConf clone.spec node
    let cm ← getPolicyConfigMap env spec
    handleBgpGlobalConfig { clone with spec := spec } rack false cm
    let time : String ← request .now
    let _ ← orError (← request (.updateBgpConf { clone with
      spec := conf.spec, annotations := clone.annotations.set openELBAnnotationKey time }))
    reconfigPeers env

/-- What `Reconcile` does with the answer to its read. -/
def handleConf (env : ConfEnv) : Except ApiErr BgpConf → ConfCode Unit
  | .error .notFound => pure ()
  | .error e => throw (.api e)
  | .ok conf => configure env conf

/-- `BgpConfReconciler.Reconcile`. -/
def reconcileBgpConf (env : ConfEnv) (name : String) : ConfCode Unit := do
  let r : Except ApiErr BgpConf ← request (.getBgpConf name)
  handleConf env r

/-! ## What is asked of gobgp -/

/-- The reconciler starts, stops and configures gobgp, and asks it nothing about
paths. -/
def ConfCall.configures : ConfCall → Prop
  | .bgp (.setRack _) | .bgp .stopBgp | .bgp (.startBgp _ _) => True
  | .bgp _ => False
  | _ => True

theorem handleBgpGlobalConfig_all (global : BgpConf) (rack : String) (delete : Bool)
    (cm : Option ConfigMap) :
    (handleBgpGlobalConfig global rack delete cm).run.All ConfCall.configures := by
  refine ⟨trivial, fun _ => ?_⟩
  cases delete with
  | true => exact ⟨trivial, fun _ => trivial⟩
  | false =>
    refine ⟨trivial, fun _ => ⟨trivial, fun _ => all_except_bind trivial fun _ => ?_⟩⟩
    cases cm with
    | none => trivial
    | some cm =>
      rw [updatePolicy]
      split
      · trivial
      · exact ⟨trivial, fun _ => trivial⟩

theorem reconfigPeers_all (env : ConfEnv) : (reconfigPeers env).run.All ConfCall.configures := by
  have hadd : ∀ (node : Node) (peers : List BgpPeer),
      (addPeers env node peers).run.All ConfCall.configures := by
    intro node peers
    induction peers with
    | nil => trivial
    | cons peer peers ih =>
      refine all_except_bind trivial fun isMatch => ?_
      cases isMatch with
      | false => exact ih
      | true => exact ⟨trivial, fun _ => all_except_bind trivial fun _ => ih⟩
  exact ⟨trivial, fun _ => all_except_bind trivial fun peers =>
    ⟨trivial, fun _ => all_except_bind trivial fun node => hadd node peers⟩⟩

theorem getPolicyConfigMap_all (env : ConfEnv) (spec : BgpConfSpec) :
    (getPolicyConfigMap env spec).run.All ConfCall.configures := by
  rw [getPolicyConfigMap]
  split
  · trivial
  · refine ⟨trivial, fun r => ?_⟩
    rcases r with (_ | _ | _) | cm <;> trivial

theorem configure_all (env : ConfEnv) (conf : BgpConf) :
    (configure env conf).run.All ConfCall.configures := by
  rw [configure]
  split
  · refine all_except_bind (all_attempt (handleBgpGlobalConfig_all ..)) fun _ => ?_
    exact ⟨trivial, fun _ => all_except_bind trivial fun _ => trivial⟩
  · refine all_except_bind ?_ fun clone => ⟨trivial, fun _ => all_except_bind trivial fun node => ?_⟩
    · rw [addConfFinalizer]
      split
      · exact ⟨trivial, fun _ => trivial⟩
      · trivial
    · refine all_except_bind (getPolicyConfigMap_all ..) fun cm => ?_
      refine all_except_bind (handleBgpGlobalConfig_all ..) fun _ => ⟨trivial, fun time => ?_⟩
      exact ⟨trivial, fun _ => all_except_bind trivial fun _ => reconfigPeers_all env⟩

theorem reconcileBgpConf_all (env : ConfEnv) (name : String) :
    (reconcileBgpConf env name).run.All ConfCall.configures := by
  refine ⟨trivial, fun r => ?_⟩
  rcases r with (_ | _ | _) | conf
  · trivial
  · trivial
  · trivial
  · exact configure_all env conf

end OpenELB.Bgp
