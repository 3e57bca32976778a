import OpenELB.PeerStatus

/-! # The BGP peers of a node

`HandleBgpPeer` in `pkg/speaker/bgp/bgp/peers.go` and `BgpPeerReconciler.Reconcile` in
`pkg/speaker/bgp/bgppeer_controller.go`: every speaker follows the objects `BgpPeer` and keeps
a peer in its gobgp for those whose node selector matches its node.  The peer of an object
that does not match is deleted.

`peerRequest` is what gobgp is told of an object.  It depends on the specification of the
object only (`peerRequest_congr`), so it stays what it is when finalizers are added or the
status is written. -/
namespace OpenELB.Bgp
open Go Prog

/-! ## Objects -/

/-- `v1alpha2.Family`. -/
structure PeerFamily where
  afi : String
  safi : String
  deriving DecidableEq

/-- `AfiSafiConfig`. -/
structure AfiSafiConfig where
  family : Option PeerFamily
  enabled : Bool := false
  deriving DecidableEq

/-- `AddPathsConfig`. -/
structure AddPathsConfig where
  receive : Bool := false
  sendMax : Nat := 0
  deriving DecidableEq

/-- `AfiSafi`; `MpGracefulRestart` and `AddPaths` hold a pointer to a configuration each. -/
structure AfiSafi where
  mpGracefulRestart : Option (Option Bool) := none
  config : Option AfiSafiConfig := none
  addPaths : Option (Option AddPathsConfig) := none
  deriving DecidableEq

/-- `BgpPeer` with what `HandleBgpPeer` reads of it: `spec.conf.neighborInterface` and
`spec.afiSafis`.  The other parts of its specification are handed to gobgp and not looked at. -/
structure PeerObject where
  peer : BgpPeer
  neighborInterface : String := ""
  afiSafis : List AfiSafi := []
  others : String := ""
  finalizers : List String := []
  deletionTimestamp : Bool := false
  deriving DecidableEq

/-- A peer without its status. -/
def BgpPeer.spec (peer : BgpPeer) : BgpPeer := { peer with nodesPeerStatus := Map.nil }

/-- An object without what the programs of the cluster write to it: its finalizers and its
status. -/
def PeerObject.spec (o : PeerObject) : PeerObject :=
  { o with finalizers := [], peer := o.peer.spec }

/-- `api.Peer`, in a request to gobgp. -/
structure GoBgpPeer where
  conf : Option PeerConf
  neighborInterface : String
  afiSafis : List AfiSafi
  others : String
  deriving DecidableEq

/-! ## Calls -/

/-- What the code asks of the API server and of gobgp. -/
inductive SessionCall where
  | getBgpPeer (name : String)
  | getNode (name : String)
  | updateBgpPeer (o : PeerObject)
  | updatePeer (p : GoBgpPeer)
  | addPeer (p : GoBgpPeer)
  | initBGPPeerMetrics (peerIP node : String)
  /-- What is also asked when the status is collected. -/
  | peer (c : PeerCall)

/-- The types of the answers.  An update answers with the object as it is stored. -/
abbrev SessionReply : SessionCall → Type
  | .getBgpPeer _ | .updateBgpPeer _ => Except ApiErr PeerObject
  | .getNode _ => Except ApiErr Node
  | .updatePeer _ | .addPeer _ => Except Err Unit
  | .initBGPPeerMetrics _ _ => Unit
  | .peer c => PeerReply c

/-- How the code ends when it does not return nil. -/
inductive Failure where
  | panic
  | err (e : Err)
  deriving DecidableEq

/-- Code that may return an error or panic. -/
abbrev SessionCode := ExceptT Failure (Prog SessionCall SessionReply)

/-- Follow a pointer. -/
def follow {α : Type} (p : Option α) : Except Failure α :=
  (deref p).mapError fun _ => .panic

/-- Return the error of a request to the API server, if it has one. -/
def orFailure {α : Type} (r : Except ApiErr α) : Except Failure α :=
  r.mapError fun e => .err (.api e)

/-! ## `HandleBgpPeer` -/

/-- `defaultFamily`. -/
def defaultFamily (ip : IP) : PeerFamily :=
  if (to4 ip).isNone then { afi := "AFI_IP6", safi := "SAFI_UNICAST" }
  else { afi := "AFI_IP", safi := "SAFI_UNICAST" }

/-- The configuration for the family of the neighbour's address. -/
def defaultConfig (conf : Option PeerConf) : Except Failure AfiSafiConfig := do
  let conf ← follow conf
  match parseIP conf.neighborAddress with
  | none => throw (.err (.text "field Spec.Conf.NeighborAddress invalid"))
  | some ip => pure { family := some (defaultFamily ip), enabled := true }

/-- The families of a peer, with those filled in that are not given. -/
def fillAfiSafis (conf : Option PeerConf) (afiSafis : List AfiSafi) :
    Except Failure (List AfiSafi) :=
  if afiSafis.length = 0 then do
    let config ← defaultConfig conf
    pure [{ config := some config, addPaths := some (some { sendMax := 10 }) }]
  else
    afiSafis.mapM fun a =>
      match a.config with
      | some _ => pure a
      | none => do
        let config ← defaultConfig conf
        pure { a with config := some config }

/-- The environment of the process, and what the library says of a specification that it
cannot convert to gobgp's type by way of JSON. -/
structure PeerEnv extends ConfEnv where
  goBgpErr : GoBgpPeer → Option String := fun _ => none

/-- `ToGoBgpPeer`. -/
def toGoBgpPeer (env : PeerEnv) (o : PeerObject) : Except Failure GoBgpPeer :=
  let result : GoBgpPeer := {
    conf := o.peer.conf
    neighborInterface := o.neighborInterface
    afiSafis := o.afiSafis
    others := o.others }
  match env.goBgpErr result with
  | some msg => .error (.err (.text msg))
  | none => .ok result

/-- The request for gobgp, with the families filled in. -/
def peerRequest (env : PeerEnv) (neighbor : PeerObject) : Except Failure GoBgpPeer := do
  let afiSafis ← fillAfiSafis neighbor.peer.conf neighbor.afiSafis
  toGoBgpPeer env { neighbor with afiSafis := afiSafis }

/-- `UpdatePeerMetrics`, with its panic. -/
def setPeerMetrics (nodeName : String) (peer : BgpPeer) (delete : Bool) : SessionCode Unit := do
  match ← must ((peerMetrics nodeName peer delete).mapError fun _ => .panic) with
  | none => pure ()
  | some c =>
    let _ ← ask (.peer c)
    pure ()

/-- The end of `HandleBgpPeer` for a peer that is to be there. -/
def establish (request : GoBgpPeer) : SessionCode Unit := do
  let r : Except Err Unit ← ask (SessionCall.updatePeer request)
  match r with
  | .ok _ => pure ()
  | .error _ =>
    let r : Except Err Unit ← ask (SessionCall.addPeer request)
    must (r.mapError .err)

/-- The end of `HandleBgpPeer` for a peer that is not to be there.  The error of `DeletePeer` is
ignored. -/
def tearDown (request : GoBgpPeer) : SessionCode Unit := do
  let conf ← must (follow request.conf)
  let _ ← ask (.peer (.deletePeer conf.neighborAddress request.neighborInterface))
  pure ()

/-- `HandleBgpPeer`. -/
def handleBgpPeer (env : PeerEnv) (neighbor : PeerObject) (delete : Bool) : SessionCode Unit := do
  let request ← must (peerRequest env neighbor)
  setPeerMetrics env.nodeName neighbor.peer delete
  if delete then tearDown request else establish request

/-! ## The reconciler -/

/-- Run code whose error is logged.  A panic goes on. -/
def logError (x : SessionCode Unit) : SessionCode Unit :=
  ExceptT.mk (x.run >>= fun
    | .error .panic => .ret (.error .panic)
    | .error (.err _) | .ok _ => .ret (.ok ()))

/-- Whether the node of the speaker is one for the peer.  Without a selector the node is not
even read. -/
def matchNode (env : PeerEnv) (peer : BgpPeer) : SessionCode Bool :=
  match peer.nodeSelector with
  | none => pure true
  | some _ => do
    let r : Except ApiErr Node ← ask (SessionCall.getNode env.nodeName)
    let node ← must (orFailure r)
    must ((peerMatchNode env.toConfEnv peer node).mapError .err)

/-- The finalizer is added, if it is to be. -/
def addPeerFinalizer (env : PeerEnv) (clone : PeerObject) : SessionCode PeerObject :=
  if needToAddFinalizer clone.deletionTimestamp clone.finalizers finalizerName then do
    let conf ← must (follow clone.peer.conf)
    let _ ← ask (SessionCall.initBGPPeerMetrics conf.neighborAddress env.nodeName)
    let finalizers := addFinalizer clone.finalizers finalizerName
    let r : Except ApiErr PeerObject ← ask
      (SessionCall.updateBgpPeer { clone with finalizers := finalizers })
    must (orFailure r)
  else pure clone

/-- The object that `HandleBgpPeer` leaves behind: it fills in the families. -/
def PeerObject.filled (o : PeerObject) : PeerObject :=
  match fillAfiSafis o.peer.conf o.afiSafis with
  | .error _ => o
  | .ok afiSafis => { o with afiSafis := afiSafis }

/-- The deletion of an object. -/
def releasePeer (env : PeerEnv) (clone : PeerObject) : SessionCode Unit := do
  logError (handleBgpPeer env clone true)
  let finalizers := removeFinalizer clone.finalizers finalizerName
  let r : Except ApiErr PeerObject ← ask
    (SessionCall.updateBgpPeer { clone.filled with finalizers := finalizers })
  let _ ← must (orFailure r)
  pure ()

/-- `BgpPeerReconciler.Reconcile`, for an object that was found. -/
def reconcileFound (env : PeerEnv) (bgpPeer : PeerObject) : SessionCode Unit := do
  let isMatch ← matchNode env bgpPeer.peer
  if isDeletionCandidate bgpPeer.deletionTimestamp bgpPeer.finalizers finalizerName then
    releasePeer env bgpPeer
  else
    let clone ← addPeerFinalizer env bgpPeer
    handleBgpPeer env clone (!isMatch)

/-- `BgpPeerReconciler.Reconcile`. -/
def reconcilePeer (env : PeerEnv) (name : String) : SessionCode Unit := do
  let r : Except ApiErr PeerObject ← ask (SessionCall.getBgpPeer name)
  match r with
  | .error .notFound => pure ()
  | .error e => throw (.err (.api e))
  | .ok bgpPeer => reconcileFound env bgpPeer

/-! ## What depends on the specification only -/

theorem peerRequest_congr {env : PeerEnv} {o o' : PeerObject} (h : o.spec = o'.spec) :
    peerRequest env o = peerRequest env o' := by
  have hconf : o.peer.conf = o'.peer.conf := congrArg (·.peer.conf) h
  have hinterface : o.neighborInterface = o'.neighborInterface := congrArg (·.neighborInterface) h
  have hothers : o.others = o'.others := congrArg (·.others) h
  have hafi : o.afiSafis = o'.afiSafis := congrArg (·.afiSafis) h
  simp only [peerRequest, toGoBgpPeer, hconf, hinterface, hothers, hafi]

/-- The request is for the address of the object. -/
theorem conf_of_peerRequest {env : PeerEnv} {o : PeerObject} {p : GoBgpPeer}
    (h : peerRequest env o = .ok p) : p.conf = o.peer.conf := by
  rw [peerRequest] at h
  rcases hfill : fillAfiSafis o.peer.conf o.afiSafis with e | afiSafis
  · rw [hfill] at h
    cases h
  · rw [hfill] at h
    have hgo : toGoBgpPeer env { o with afiSafis := afiSafis } = .ok p := h
    rw [toGoBgpPeer] at hgo
    dsimp only at hgo
    split at hgo
    · cases hgo
    · cases hgo
      rfl

end OpenELB.Bgp
