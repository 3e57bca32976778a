import OpenELB.BgpConf

/-! # The status of BGP peers

`BgpPeerReconciler.updatePeerStatus` in `pkg/speaker/bgp/bgppeer_controller.go`, and
`HandleBgpPeerStatus` and `UpdatePeerMetrics` in `pkg/speaker/bgp/bgp/peers.go`: every speaker
reads from its gobgp the state of its sessions and writes it, under the name of its node,
into the objects `BgpPeer`.

An object and a session belong together if they have the same neighbour address.
`HandleBgpPeerStatus` makes a copy of the first object with the address of a session, with
the new entry in it, and `updatePeerStatus` gives the whole status of the copy to every object
with the address.  If several objects have one address, which node selectors allow, then the
entries of the other nodes are those of the first of them.  `peer_status_frame_iff` says
exactly when the entries of the other nodes stay.

A nil pointer is followed when an object has no `spec.conf`, and when the status of the own
node counts no messages; the loop then ends in a panic (`reached`). -/
namespace OpenELB.Bgp
open Go Prog

/-! ## Calls -/

/-- `api.Peer`: a peer in gobgp, with what `GetStatusFromGoBgpPeer` makes of its state by way
of JSON. -/
structure ApiPeer where
  neighborAddress : String
  neighborInterface : String := ""
  getStatusFromGoBgpPeer : Except String NodePeerStatus

/-- What the code asks of the API server and of gobgp, and the metrics it sets. -/
inductive PeerCall where
  | listBgpPeers
  | listPeer
  | deletePeer (address interface : String)
  /-- `Status().Update`. -/
  | updateStatus (peer : BgpPeer)
  /-- `UpdateBGPSessionMetrics`, with the number of updates as the text that is parsed. -/
  | updateBGPSessionMetrics (peerIP node : String) (state : Nat) (updateTotal : String)
  | deleteBGPPeerMetrics (peerIP node : String)
  deriving DecidableEq

/-- The types of the answers. -/
abbrev PeerReply : PeerCall → Type
  | .listBgpPeers => Except ApiErr (List BgpPeer)
  | .listPeer => List ApiPeer
  | .deletePeer _ _ => Except Err Unit
  | .updateStatus _ => Except ApiErr BgpPeer
  | .updateBGPSessionMetrics _ _ _ _ | .deleteBGPPeerMetrics _ _ => Unit

/-- A panic of the code. -/
inductive Panic where
  | nilPointer
  deriving DecidableEq

/-- Code that may panic. -/
abbrev PeerCode := ExceptT Panic (Prog PeerCall PeerReply)

/-- Follow a pointer. -/
def deref {α : Type} : Option α → Except Panic α
  | some a => .ok a
  | none => .error .nilPointer

@[simp] theorem ok_bind {α β : Type} (a : α) (f : α → Except Panic β) :
    (Except.ok a >>= f) = f a := rfl

@[simp] theorem error_bind {α β : Type} (e : Panic) (f : α → Except Panic β) :
    ((Except.error e : Except Panic α) >>= f) = .error e := rfl

/-! ## The code -/

/-- `peer.Spec.Conf.NeighborAddress`. -/
def BgpPeer.neighborAddress (peer : BgpPeer) : Except Panic String := do
  let conf ← deref peer.conf
  return conf.neighborAddress

/-- The loop that looks for the object of an address. -/
def findPeer (address : String) : List BgpPeer → Except Panic (Option BgpPeer)
  | [] => .ok none
  | peer :: peers => do
    if (← peer.neighborAddress) = address then return some peer
    else findPeer address peers

/-- The copy of the object that was found, with the entry of the own node. -/
def withStatus (nodeName : String) (found : BgpPeer) (tmp : NodePeerStatus) :
    Except Panic BgpPeer := do
  let clone := { found with nodesPeerStatus :=
    if found.nodesPeerStatus.isNil then Map.empty else found.nodesPeerStatus }
  if (← clone.neighborAddress) = tmp.peerState.neighborAddress then
    return { clone with nodesPeerStatus := clone.nodesPeerStatus.set nodeName tmp }
  else return clone

/-- What `fn` makes of the peers in gobgp: the objects with their new status, and the peers
that have no object. -/
def collectStatus (nodeName : String) (bgpPeers : List BgpPeer) :
    List ApiPeer → Except Panic (List BgpPeer × List ApiPeer)
  | [] => .ok ([], [])
  | peer :: rest =>
    match peer.getStatusFromGoBgpPeer with
    -- the error is logged
    | .error _ => collectStatus nodeName bgpPeers rest
    | .ok tmp => do
      match ← findPeer tmp.peerState.neighborAddress bgpPeers with
      | none =>
        let (result, dels) ← collectStatus nodeName bgpPeers rest
        return (result, peer :: dels)
      | some found =>
        let clone ← withStatus nodeName found tmp
        let (result, dels) ← collectStatus nodeName bgpPeers rest
        return (clone :: result, dels)

/-- The loop that deletes the peers that have no object. -/
def deletePeers : List ApiPeer → PeerCode Unit
  | [] => pure ()
  | del :: dels => do
    let _ ← ask (.deletePeer del.neighborAddress del.neighborInterface)
    deletePeers dels

/-- `HandleBgpPeerStatus`. -/
def handleBgpPeerStatus (nodeName : String) (bgpPeers : List BgpPeer) :
    PeerCode (List BgpPeer) := do
  let peers : List ApiPeer ← ask PeerCall.listPeer
  let (result, dels) ← must (collectStatus nodeName bgpPeers peers)
  deletePeers dels
  return result

/-- The number for the state of a session. -/
def sessionNumber (stateStr : String) : Nat :=
  if stateStr = "IDLE" then 0
  else if stateStr = "CONNECT" then 1
  else if stateStr = "ACTIVE" then 2
  else if stateStr = "OPENSENT" then 3
  else if stateStr = "OPENCONFIRM" then 4
  else if stateStr = "ESTABLISHED" then 5
  else 0

/-- The metrics that `UpdatePeerMetrics` sets.  It ranges over the status; the address is
read for every entry, and the rest is for the entry of the own node. -/
def peerMetrics (nodeName : String) (peer : BgpPeer) (delete : Bool) :
    Except Panic (Option PeerCall) :=
  if peer.nodesPeerStatus.len = 0 then .ok none
  else do
    let peerIP ← peer.neighborAddress
    match peer.nodesPeerStatus.get nodeName with
    | none => return none
    | some peerStatus =>
      if delete then return some (.deleteBGPPeerMetrics peerIP nodeName)
      else
        let messages ← deref peerStatus.peerState.messages
        let received ← deref messages.received
        return some (.updateBGPSessionMetrics peerIP nodeName
          (sessionNumber peerStatus.peerState.sessionState) received.update)

/-- `UpdatePeerMetrics`. -/
def updatePeerMetrics (nodeName : String) (peer : BgpPeer) (delete : Bool) : PeerCode Unit := do
  match ← must (peerMetrics nodeName peer delete) with
  | none => pure ()
  | some c =>
    let _ ← ask c
    pure ()

/-- The inner loop of `updatePeerStatus`. -/
def findStatus (clone : BgpPeer) : List BgpPeer → Except Panic (Option BgpPeer)
  | [] => .ok none
  | tmp :: status => do
    if (← clone.neighborAddress) = (← tmp.neighborAddress) then return some tmp
    else findStatus clone status

/-- The object with its new status. -/
def newStatus (nodeName : String) (peer : BgpPeer) : Option BgpPeer → BgpPeer
  | some tmp => { peer with nodesPeerStatus := tmp.nodesPeerStatus }
  | none => { peer with nodesPeerStatus := peer.nodesPeerStatus.delete nodeName }

/-- The write, if there is something new.  Its error is ignored. -/
def writeStatus (peer clone : BgpPeer) : PeerCode Unit :=
  if clone.nodesPeerStatus ≠ peer.nodesPeerStatus then do
    let _ ← ask (.updateStatus clone)
    pure ()
  else pure ()

/-- The loop of `updatePeerStatus`. -/
def updateEach (nodeName : String) (status : List BgpPeer) : List BgpPeer → PeerCode Unit
  | [] => pure ()
  | peer :: peers => do
    let found ← must (findStatus peer status)
    writeStatus peer (newStatus nodeName peer found)
    updatePeerMetrics nodeName peer found.isNone
    updateEach nodeName status peers

/-- `BgpPeerReconciler.updatePeerStatus`, on the node of the given name. -/
def updatePeerStatus (nodeName : String) : PeerCode Unit := do
  let r : Except ApiErr (List BgpPeer) ← ask PeerCall.listBgpPeers
  match r with
  | .error _ => pure ()
  | .ok peers =>
    let status ← handleBgpPeerStatus nodeName peers
    updateEach nodeName status peers

/-! ## Which objects are reached -/

/-- The objects that the loop comes to: the first panic ends it. -/
def reachedFrom (nodeName : String) (status : List BgpPeer) : List BgpPeer → List BgpPeer
  | [] => []
  | peer :: peers =>
    peer :: match findStatus peer status with
      | .error _ => []
      | .ok found =>
        match peerMetrics nodeName peer found.isNone with
        | .error _ => []
        | .ok _ => reachedFrom nodeName status peers

/-- The objects that `updatePeerStatus` comes to, for a list of objects and the peers in
gobgp. -/
def reached (nodeName : String) (peers : List BgpPeer) (gobgp : List ApiPeer) : List BgpPeer :=
  match collectStatus nodeName peers gobgp with
  | .error _ => []
  | .ok (status, _) => reachedFrom nodeName status peers

/-- The calls that write an object. -/
def PeerCall.writes : PeerCall → Prop
  | .updateStatus _ => True
  | _ => False

section Calls
variable {H : (c : PeerCall) → PeerReply c → Prop} {P : PeerCall → Prop} {nodeName : String}
  {status : List BgpPeer}

theorem asks_deletePeers (hH : ∀ c, ∃ r, H c r) (hP : ∀ c, ¬ c.writes → P c)
    (dels : List ApiPeer) (f : List BgpPeer → PeerCode Unit) :
    ((deletePeers dels >>= fun _ => pure status) >>= f).run.Asks H P ↔
      (f status).run.Asks H P := by
  induction dels with
  | nil => exact Iff.rfl
  | cons del dels ih =>
    refine ⟨fun h => ?_, fun h => ⟨hP _ id, fun _ _ => ih.mpr h⟩⟩
    obtain ⟨r, hr⟩ := hH (.deletePeer del.neighborAddress del.neighborInterface)
    exact ih.mp (h.2 r hr)

/-- What follows when both lists have been read. -/
theorem asks_collected {peers : List BgpPeer} {gobgp : List ApiPeer} (hH : ∀ c, ∃ r, H c r)
    (hP : ∀ c, ¬ c.writes → P c) (f : List BgpPeer → PeerCode Unit) :
    ((must (collectStatus nodeName peers gobgp) >>= fun x => deletePeers x.2 >>= fun _ =>
      pure x.1) >>= f : PeerCode Unit).run.Asks H P ↔
      ∀ status dels, collectStatus nodeName peers gobgp = .ok (status, dels) →
        (f status).run.Asks H P := by
  rcases collectStatus nodeName peers gobgp with e | ⟨status, dels⟩
  · exact ⟨fun _ _ _ h => (nomatch h), fun _ => trivial⟩
  · refine (asks_deletePeers hH hP dels f).trans ⟨fun h s d hs => ?_, fun h => h status dels rfl⟩
    obtain ⟨rfl, -⟩ := Prod.mk.inj (Except.ok.inj hs)
    exact h

theorem asks_writeStatus (hH : ∀ c, ∃ r, H c r) (peer clone : BgpPeer) (q : PeerCode Unit) :
    (writeStatus peer clone >>= fun _ => q).run.Asks H P ↔
      (clone.nodesPeerStatus ≠ peer.nodesPeerStatus → P (.updateStatus clone)) ∧
        q.run.Asks H P := by
  rw [writeStatus]
  by_cases hnew : clone.nodesPeerStatus ≠ peer.nodesPeerStatus
  · rw [if_pos hnew]
    refine ⟨fun h => ⟨fun _ => h.1, ?_⟩, fun h => ⟨h.1 hnew, fun _ _ => h.2⟩⟩
    obtain ⟨r, hr⟩ := hH (.updateStatus clone)
    exact h.2 r hr
  · rw [if_neg hnew]
    exact ⟨fun h => ⟨fun hn => absurd hn hnew, h⟩, fun h => h.2⟩

theorem not_writes_of_peerMetrics {peer : BgpPeer} {delete : Bool} {c : PeerCall}
    (h : peerMetrics nodeName peer delete = .ok (some c)) : ¬ c.writes := by
  rw [peerMetrics] at h
  split at h
  · exact nomatch h
  · rcases ha : peer.neighborAddress with e | a
    · rw [ha] at h
      exact nomatch h
    · rw [ha, ok_bind] at h
      split at h
      · exact nomatch h
      · split at h
        · obtain rfl := Option.some.inj (Except.ok.inj h)
          exact id
        · rename_i st _ _
          rcases hm : st.peerState.messages with _ | m
          · rw [hm] at h
            exact nomatch h
          · rw [hm, deref, ok_bind] at h
            rcases hr : m.received with _ | r
            · rw [hr] at h
              exact nomatch h
            · rw [hr] at h
              obtain rfl := Option.some.inj (Except.ok.inj h)
              exact id

theorem asks_updatePeerMetrics (hH : ∀ c, ∃ r, H c r) (hP : ∀ c, ¬ c.writes → P c)
    (peer : BgpPeer) (delete : Bool) (q : PeerCode Unit) :
    (updatePeerMetrics nodeName peer delete >>= fun _ => q).run.Asks H P ↔
      ∀ m, peerMetrics nodeName peer delete = .ok m → q.run.Asks H P := by
  rw [updatePeerMetrics]
  rcases hm : peerMetrics nodeName peer delete with e | (_ | c)
  · exact ⟨fun _ m h => (nomatch h), fun _ => trivial⟩
  · exact ⟨fun h _ _ => h, fun h => h none rfl⟩
  · have hc := hP c (not_writes_of_peerMetrics hm)
    refine ⟨fun h _ _ => ?_, fun h => ⟨hc, fun _ _ => h _ rfl⟩⟩
    obtain ⟨r, hr⟩ := hH c
    exact h.2 r hr

/-- **The calls of the loop**: a write for each object that it comes to and that has a new
status. -/
theorem asks_updateEach (hH : ∀ c, ∃ r, H c r) (hP : ∀ c, ¬ c.writes → P c)
    (peers : List BgpPeer) :
    (updateEach nodeName status peers).run.Asks H P ↔
      ∀ peer ∈ reachedFrom nodeName status peers, ∀ found, findStatus peer status = .ok found →
        (newStatus nodeName peer found).nodesPeerStatus ≠ peer.nodesPeerStatus →
        P (.updateStatus (newStatus nodeName peer found)) := by
  induction peers with
  | nil => exact ⟨fun _ peer hp => absurd hp List.not_mem_nil, fun _ => trivial⟩
  | cons peer peers ih =>
    rw [updateEach, reachedFrom, List.forall_mem_cons]
    rcases hfind : findStatus peer status with e | found
    · exact ⟨fun _ => ⟨fun found h => (nomatch h), fun p hp => absurd hp List.not_mem_nil⟩,
        fun _ => trivial⟩
    · rw [must_ok_bind, asks_writeStatus hH, asks_updatePeerMetrics hH hP, ih]
      dsimp only
      refine and_congr ⟨fun h f hf => ?_, fun h => h found rfl⟩ ?_
      · obtain rfl := Except.ok.inj hf
        exact h
      · rcases peerMetrics nodeName peer found.isNone with e | m
        · exact ⟨fun _ p hp => absurd hp List.not_mem_nil, fun _ m h => nomatch h⟩
        · exact ⟨fun h => h m rfl, fun h _ _ => h⟩

end Calls

/-! ## Objects and addresses -/

section Found
variable {nodeName address : String} {peers status : List BgpPeer} {peer found tmp : BgpPeer}
  {gobgp : List ApiPeer} {st : NodePeerStatus}

theorem findPeer_cons {a : String} (h : peer.neighborAddress = .ok a) :
    findPeer address (peer :: peers) =
      if a = address then .ok (some peer) else findPeer address peers := by
  rw [findPeer, h, ok_bind]
  rfl

theorem findPeer_cons_error {e : Panic} (h : peer.neighborAddress = .error e) :
    findPeer address (peer :: peers) = .error e := by
  rw [findPeer, h, error_bind]

theorem findPeer_some (h : findPeer address peers = .ok (some found)) :
    found ∈ peers ∧ found.neighborAddress = .ok address := by
  induction peers with
  | nil => exact nomatch h
  | cons peer peers ih =>
    rcases ha : peer.neighborAddress with e | a
    · exact nomatch (findPeer_cons_error ha).symm.trans h
    · rw [findPeer_cons ha] at h
      by_cases heq : a = address
      · rw [if_pos heq] at h
        obtain rfl := Option.some.inj (Except.ok.inj h)
        exact ⟨List.mem_cons_self, heq ▸ ha⟩
      · rw [if_neg heq] at h
        obtain ⟨hmem, hat⟩ := ih h
        exact ⟨List.mem_cons_of_mem _ hmem, hat⟩

theorem withStatus_eq (h : found.neighborAddress = .ok st.peerState.neighborAddress) :
    withStatus nodeName found st =
      .ok { found with nodesPeerStatus := found.nodesPeerStatus.set nodeName st } := by
  have hset : (if found.nodesPeerStatus.isNil then Map.empty else found.nodesPeerStatus).set
      nodeName st = found.nodesPeerStatus.set nodeName st := by
    cases found.nodesPeerStatus <;> rfl
  have hclone : ∀ m, ({ found with nodesPeerStatus := m } : BgpPeer).neighborAddress =
      .ok st.peerState.neighborAddress := fun _ => h
  rw [withStatus]
  dsimp only
  rw [hclone, ok_bind, if_pos rfl, hset]
  rfl

/-- A session that gobgp reports, with the state that is read from it. -/
def InSession (gobgp : List ApiPeer) (st : NodePeerStatus) : Prop :=
  ∃ peer ∈ gobgp, peer.getStatusFromGoBgpPeer = .ok st

theorem inSession_cons {g : ApiPeer} {st st' : NodePeerStatus}
    (hg : g.getStatusFromGoBgpPeer = .ok st) :
    InSession (g :: gobgp) st' ↔ st' = st ∨ InSession gobgp st' := by
  rw [InSession, List.exists_mem_cons_iff, hg, Except.ok.injEq, eq_comm, InSession]

theorem inSession_cons_error {g : ApiPeer} {e : String} {st : NodePeerStatus}
    (hg : g.getStatusFromGoBgpPeer = .error e) :
    InSession (g :: gobgp) st ↔ InSession gobgp st := by
  rw [InSession, List.exists_mem_cons_iff, hg, InSession]
  exact or_iff_right fun h => nomatch h

/-- **The copies that `HandleBgpPeerStatus` returns**: one for each session that is reported,
of the first object with its address. -/
theorem collectStatus_spec {dels : List ApiPeer}
    (h : collectStatus nodeName peers gobgp = .ok (status, dels)) :
    (∀ st, InSession gobgp st → ∃ r, findPeer st.peerState.neighborAddress peers = .ok r) ∧
      ∀ tmp, tmp ∈ status ↔ ∃ st, InSession gobgp st ∧
        ∃ first, findPeer st.peerState.neighborAddress peers = .ok (some first) ∧
          tmp = { first with nodesPeerStatus := first.nodesPeerStatus.set nodeName st } := by
  induction gobgp generalizing status dels with
  | nil =>
    obtain ⟨rfl, -⟩ := Prod.mk.inj (Except.ok.inj h)
    simp [InSession]
  | cons g gobgp ih =>
    rw [collectStatus] at h
    rcases hg : g.getStatusFromGoBgpPeer with e | st
    · rw [hg] at h
      simp only [inSession_cons_error hg]
      exact ih h
    · rw [hg] at h
      simp only [inSession_cons hg, or_and_right, exists_or, exists_eq_left, forall_eq_or_imp]
      rcases hfind : findPeer st.peerState.neighborAddress peers with e | (_ | first)
      · simp only [hfind, error_bind] at h
        exact nomatch h
      · rcases hrest : collectStatus nodeName peers gobgp with e | ⟨result, dels'⟩
        · simp only [hfind, hrest, ok_bind, error_bind] at h
          exact nomatch h
        · simp only [hfind, hrest, ok_bind] at h
          obtain ⟨rfl, -⟩ := Prod.mk.inj (Except.ok.inj h)
          obtain ⟨hok, hmem⟩ := ih hrest
          refine ⟨⟨⟨_, rfl⟩, hok⟩, fun tmp => (hmem tmp).trans (or_iff_right ?_).symm⟩
          rintro ⟨_, hsome, -⟩
          exact nomatch hsome
      · rcases hrest : collectStatus nodeName peers gobgp with e | ⟨result, dels'⟩
        · simp only [hfind, hrest, withStatus_eq (findPeer_some hfind).2, ok_bind, error_bind] at h
          exact nomatch h
        · simp only [hfind, hrest, withStatus_eq (findPeer_some hfind).2, ok_bind] at h
          obtain ⟨rfl, -⟩ := Prod.mk.inj (Except.ok.inj h)
          obtain ⟨hok, hmem⟩ := ih hrest
          refine ⟨⟨⟨_, rfl⟩, hok⟩, fun tmp => List.mem_cons.trans (or_congr ?_ (hmem tmp))⟩
          constructor
          · rintro rfl
            exact ⟨first, rfl, rfl⟩
          · rintro ⟨first', hfirst, rfl⟩
            obtain rfl := Option.some.inj (Except.ok.inj hfirst)
            rfl

theorem findStatus_cons {b : String} (h : peer.neighborAddress = .ok address)
    (hb : tmp.neighborAddress = .ok b) :
    findStatus peer (tmp :: status) =
      if address = b then .ok (some tmp) else findStatus peer status := by
  rw [findStatus, h, ok_bind, hb, ok_bind]
  rfl

theorem findStatus_spec (h : peer.neighborAddress = .ok address)
    (hstatus : ∀ tmp ∈ status, ∃ b, tmp.neighborAddress = .ok b) :
    (findStatus peer status = .ok none ∧ ∀ tmp ∈ status, tmp.neighborAddress ≠ .ok address) ∨
      ∃ tmp ∈ status, findStatus peer status = .ok (some tmp) ∧
        tmp.neighborAddress = .ok address := by
  induction status with
  | nil => exact .inl ⟨rfl, fun tmp hmem => absurd hmem List.not_mem_nil⟩
  | cons tmp status ih =>
    obtain ⟨⟨b, hb⟩, hrest⟩ := List.forall_mem_cons.mp hstatus
    rw [findStatus_cons h hb]
    by_cases heq : address = b
    · exact .inr ⟨tmp, List.mem_cons_self, if_pos heq, heq ▸ hb⟩
    · rw [if_neg heq]
      rcases ih hrest with ⟨hnone, hnot⟩ | ⟨tmp', hmem, hsome, hat⟩
      · refine .inl ⟨hnone, List.forall_mem_cons.mpr ⟨?_, hnot⟩⟩
        rw [hb]
        exact fun he => heq (Except.ok.inj he).symm
      · exact .inr ⟨tmp', List.mem_cons_of_mem _ hmem, hsome, hat⟩

/-- Without an address, nothing is found. -/
theorem findStatus_error {e : Panic} {r : Option BgpPeer} (h : peer.neighborAddress = .error e)
    (hfind : findStatus peer status = .ok r) : r = none := by
  cases status with
  | nil => exact (Except.ok.inj hfind).symm
  | cons tmp status =>
    rw [findStatus, h] at hfind
    exact nomatch hfind

end Found

/-! ## The entries of other nodes -/

/-- The two objects have the same entries for every node but the given one. -/
def SameOthers (nodeName : String) (peer peer' : BgpPeer) : Prop :=
  ∀ node, node ≠ nodeName → peer.nodesPeerStatus.get node = peer'.nodesPeerStatus.get node

/-- A write leaves, in the object of its name, the entries of the other nodes as they were. -/
def KeepsOthers (nodeName : String) (peers : List BgpPeer) : PeerCall → Prop
  | .updateStatus clone => ∀ peer ∈ peers, peer.name = clone.name → SameOthers nodeName peer clone
  | _ => True

/-- The list of objects, if it can be read, and the peers in gobgp. -/
def PeersAre (peers : List BgpPeer) (gobgp : List ApiPeer) : (c : PeerCall) → PeerReply c → Prop
  | .listBgpPeers, r => ∀ l, r = .ok l → l = peers
  | .listPeer, r => r = gobgp
  | _, _ => True

/-- The first object with the address of a session has, for the other nodes, the entries of
the given one. -/
def FirstAgrees (nodeName : String) (peers : List BgpPeer) (gobgp : List ApiPeer)
    (peer : BgpPeer) : Prop :=
  ∀ st, InSession gobgp st → peer.neighborAddress = .ok st.peerState.neighborAddress →
    ∀ first, findPeer st.peerState.neighborAddress peers = .ok (some first) →
      SameOthers nodeName first peer

/-- No nil pointer is followed for the object. -/
def Complete (nodeName : String) (peer : BgpPeer) : Prop :=
  peer.conf.isSome ∧ ∀ st, peer.nodesPeerStatus.get nodeName = some st →
    ∃ m, st.peerState.messages = some m ∧ m.received.isSome

section Frame
variable {nodeName : String} {peers status : List BgpPeer} {gobgp dels : List ApiPeer}
  {peer : BgpPeer}

theorem exists_peersAre (peers : List BgpPeer) (gobgp : List ApiPeer) (c : PeerCall) :
    ∃ r, PeersAre peers gobgp c r := by
  rcases c with _ | _ | ⟨a, i⟩ | p | ⟨a, n, s, u⟩ | ⟨a, n⟩
  · exact ⟨.ok peers, fun l h => (Except.ok.inj h).symm⟩
  · exact ⟨gobgp, rfl⟩
  · exact ⟨.ok (), trivial⟩
  · exact ⟨.ok p, trivial⟩
  · exact ⟨(), trivial⟩
  · exact ⟨(), trivial⟩

theorem mem_of_mem_reachedFrom (h : peer ∈ reachedFrom nodeName status peers) : peer ∈ peers := by
  induction peers with
  | nil => exact absurd h List.not_mem_nil
  | cons p peers ih =>
    rw [reachedFrom, List.mem_cons] at h
    rcases h with rfl | h
    · exact List.mem_cons_self
    · split at h
      · exact absurd h List.not_mem_nil
      · split at h
        · exact absurd h List.not_mem_nil
        · exact List.mem_cons_of_mem _ (ih h)

theorem address_of_mem_status {tmp : BgpPeer}
    (h : collectStatus nodeName peers gobgp = .ok (status, dels)) (htmp : tmp ∈ status) :
    ∃ b, tmp.neighborAddress = .ok b := by
  obtain ⟨st, -, first, hfirst, rfl⟩ := ((collectStatus_spec h).2 tmp).mp htmp
  exact ⟨_, (findPeer_some hfirst).2⟩

/-- A new status keeps the others' entries exactly if the first object with the address has
them, too. -/
theorem sameOthers_newStatus_iff (h : collectStatus nodeName peers gobgp = .ok (status, dels)) :
    (∀ found, findStatus peer status = .ok found →
      (newStatus nodeName peer found).nodesPeerStatus ≠ peer.nodesPeerStatus →
      SameOthers nodeName peer (newStatus nodeName peer found)) ↔
    FirstAgrees nodeName peers gobgp peer := by
  obtain ⟨-, hmem⟩ := collectStatus_spec h
  have haddr : ∀ tmp ∈ status, ∃ b, tmp.neighborAddress = .ok b :=
    fun tmp => address_of_mem_status h
  constructor
  · intro hkeep st hrep hat first hfirst node hnode
    -- the copy of the first object is there, so some copy with the address is found
    rcases findStatus_spec hat haddr with ⟨-, hnot⟩ | ⟨tmp, htmp, hfound, htmpat⟩
    · refine absurd (findPeer_some hfirst).2 (hnot
        { first with nodesPeerStatus := first.nodesPeerStatus.set nodeName st } ?_)
      exact (hmem _).mpr ⟨st, hrep, first, hfirst, rfl⟩
    · obtain ⟨st', -, first', hfirst', rfl⟩ := (hmem tmp).mp htmp
      have hsame := Except.ok.inj ((findPeer_some hfirst').2.symm.trans htmpat)
      obtain rfl := Option.some.inj (Except.ok.inj (hfirst.symm.trans (hsame ▸ hfirst')))
      by_cases hnew : first.nodesPeerStatus.set nodeName st' = peer.nodesPeerStatus
      · rw [← hnew, Map.get_set_ne _ _ hnode]
      · rw [hkeep _ hfound hnew node hnode]
        exact (Map.get_set_ne _ _ hnode).symm
  · intro hfirst found hfound _ node hnode
    rcases found with _ | tmp
    · exact ((Map.get_delete _ _ _).trans (if_neg hnode)).symm
    · rcases hat : peer.neighborAddress with e | a
      · exact nomatch findStatus_error hat hfound
      · rcases findStatus_spec hat haddr with ⟨hnone, -⟩ | ⟨tmp', htmp, hfound', htmpat⟩
        · exact nomatch hnone.symm.trans hfound
        · obtain rfl := Option.some.inj (Except.ok.inj (hfound'.symm.trans hfound))
          obtain ⟨st, hrep, first, hf, rfl⟩ := (hmem tmp').mp htmp
          have hsame := (findPeer_some hf).2.symm.trans htmpat
          rw [← hfirst st hrep (hat.trans hsame.symm) first hf node hnode]
          exact (Map.get_set_ne _ _ hnode).symm

theorem Complete.address (h : Complete nodeName peer) : ∃ a, peer.neighborAddress = .ok a := by
  obtain ⟨conf, hconf⟩ := Option.isSome_iff_exists.mp h.1
  exact ⟨conf.neighborAddress, by rw [BgpPeer.neighborAddress, hconf]; rfl⟩

theorem Complete.peerMetrics (h : Complete nodeName peer) (delete : Bool) :
    ∃ m, peerMetrics nodeName peer delete = .ok m := by
  obtain ⟨a, ha⟩ := h.address
  rw [Bgp.peerMetrics, ha, ok_bind]
  split
  · exact ⟨_, rfl⟩
  · split
    · exact ⟨_, rfl⟩
    · rename_i st hst
      obtain ⟨m, hm, hr⟩ := h.2 st hst
      obtain ⟨r, hr⟩ := Option.isSome_iff_exists.mp hr
      split
      · exact ⟨_, rfl⟩
      · rw [hm, deref, ok_bind, hr]
        exact ⟨_, rfl⟩

theorem exists_findPeer (h : ∀ peer ∈ peers, Complete nodeName peer) (address : String) :
    ∃ r, findPeer address peers = .ok r := by
  induction peers with
  | nil => exact ⟨none, rfl⟩
  | cons peer peers ih =>
    obtain ⟨hpeer, hrest⟩ := List.forall_mem_cons.mp h
    obtain ⟨a, ha⟩ := hpeer.address
    rw [findPeer_cons ha]
    split
    · exact ⟨_, rfl⟩
    · exact ih hrest

theorem exists_collectStatus (h : ∀ peer ∈ peers, Complete nodeName peer)
    (gobgp : List ApiPeer) : ∃ r, collectStatus nodeName peers gobgp = .ok r := by
  induction gobgp with
  | nil => exact ⟨_, rfl⟩
  | cons g gobgp ih =>
    obtain ⟨r, hr⟩ := ih
    rw [collectStatus]
    split
    · exact ⟨r, hr⟩
    · rename_i st _
      obtain ⟨found, hfound⟩ := exists_findPeer h st.peerState.neighborAddress
      rw [hfound, ok_bind]
      rcases found with _ | first
      · dsimp only
        rw [hr]
        exact ⟨_, rfl⟩
      · dsimp only
        rw [withStatus_eq (findPeer_some hfound).2, ok_bind, hr]
        exact ⟨_, rfl⟩

/-- If no nil pointer is followed, the loop comes to all objects. -/
theorem reached_of_complete (h : ∀ peer ∈ peers, Complete nodeName peer) :
    reached nodeName peers gobgp = peers := by
  obtain ⟨⟨status, dels⟩, hcollect⟩ := exists_collectStatus h gobgp
  have haddr : ∀ tmp ∈ status, ∃ b, tmp.neighborAddress = .ok b :=
    fun tmp => address_of_mem_status hcollect
  rw [reached, hcollect]
  dsimp only
  clear hcollect
  induction peers with
  | nil => rfl
  | cons peer peers ih =>
    obtain ⟨hpeer, hrest⟩ := List.forall_mem_cons.mp h
    obtain ⟨a, ha⟩ := hpeer.address
    obtain ⟨found, hfound⟩ : ∃ found, findStatus peer status = .ok found := by
      rcases findStatus_spec ha haddr with ⟨hnone, -⟩ | ⟨tmp, -, hsome, -⟩
      · exact ⟨_, hnone⟩
      · exact ⟨_, hsome⟩
    obtain ⟨m, hm⟩ := hpeer.peerMetrics found.isNone
    rw [reachedFrom, hfound]
    dsimp only
    rw [hm]
    exact congrArg (peer :: ·) (ih hrest)

end Frame

/-- **The calls of `updatePeerStatus`.** -/
theorem asks_updatePeerStatus {nodeName : String} {peers : List BgpPeer} {gobgp : List ApiPeer}
    {P : PeerCall → Prop} (hP : ∀ c, ¬ c.writes → P c) :
    (updatePeerStatus nodeName).run.Asks (PeersAre peers gobgp) P ↔
      ∀ status dels, collectStatus nodeName peers gobgp = .ok (status, dels) →
        ∀ peer ∈ reachedFrom nodeName status peers, ∀ found, findStatus peer status = .ok found →
          (newStatus nodeName peer found).nodesPeerStatus ≠ peer.nodesPeerStatus →
          P (.updateStatus (newStatus nodeName peer found)) := by
  have hH := exists_peersAre peers gobgp
  simp only [← asks_updateEach hH hP, ← asks_collected hH hP fun status =>
    updateEach nodeName status peers]
  constructor
  · rintro ⟨-, h⟩
    exact (h (.ok peers) fun l hl => (Except.ok.inj hl).symm).2 gobgp rfl
  · intro h
    refine ⟨hP _ id, fun r hr => ?_⟩
    rcases r with e | l
    · trivial
    · obtain rfl := hr l rfl
      refine ⟨hP _ id, fun g hg => ?_⟩
      obtain rfl : g = gobgp := hg
      exact h

theorem keepsOthers_of_not_writes {nodeName : String} {peers : List BgpPeer} {c : PeerCall}
    (h : ¬ c.writes) : KeepsOthers nodeName peers c := by
  rcases c with _ | _ | ⟨a, i⟩ | p | ⟨a, n, s, u⟩ | ⟨a, n⟩
  case updateStatus => exact absurd trivial h
  all_goals trivial

/-- Objects of one name are one object. -/
theorem keepsOthers_iff {nodeName : String} {peers : List BgpPeer} {peer : BgpPeer}
    (hnames : (peers.map BgpPeer.name).Nodup) (hmem : peer ∈ peers) (found : Option BgpPeer) :
    KeepsOthers nodeName peers (.updateStatus (newStatus nodeName peer found)) ↔
      SameOthers nodeName peer (newStatus nodeName peer found) := by
  have hname : (newStatus nodeName peer found).name = peer.name := by cases found <;> rfl
  refine ⟨fun h => h peer hmem hname.symm, fun h q hq hqname => ?_⟩
  obtain rfl := List.inj_on_of_nodup_map hnames hq hmem (hqname.trans hname)
  exact h

/-- **A node keeps the entries of the others** in every object that `updatePeerStatus` writes
exactly if, for every object that it comes to and whose address gobgp reports, the first
listed object with this address has the same entries for the other nodes.  It comes to all
objects if each has an address and a local entry with messages. -/
theorem peer_status_frame_iff {nodeName : String} {peers : List BgpPeer} {gobgp : List ApiPeer}
    (hnames : (peers.map BgpPeer.name).Nodup) :
    ((∀ log r, Prog.Trace (PeersAre peers gobgp) (updatePeerStatus nodeName).run log r →
        ∀ ev ∈ log, KeepsOthers nodeName peers ev.call) ↔
      ∀ peer ∈ reached nodeName peers gobgp, FirstAgrees nodeName peers gobgp peer) ∧
    ((∀ peer ∈ peers, Complete nodeName peer) → reached nodeName peers gobgp = peers) := by
  refine ⟨?_, reached_of_complete⟩
  rw [← asks_iff_trace (exists_peersAre peers gobgp),
    asks_updatePeerStatus fun _ => keepsOthers_of_not_writes, reached]
  rcases hcollect : collectStatus nodeName peers gobgp with e | ⟨status, dels⟩
  · exact ⟨fun _ peer hpeer => absurd hpeer List.not_mem_nil, fun _ _ _ h => nomatch h⟩
  · have hpeer : ∀ peer ∈ reachedFrom nodeName status peers,
        (∀ found, findStatus peer status = .ok found →
          (newStatus nodeName peer found).nodesPeerStatus ≠ peer.nodesPeerStatus →
          KeepsOthers nodeName peers (.updateStatus (newStatus nodeName peer found))) ↔
        FirstAgrees nodeName peers gobgp peer := by
      intro peer hpeer
      rw [← sameOthers_newStatus_iff hcollect]
      have hmem := mem_of_mem_reachedFrom hpeer
      exact forall₃_congr fun found _ _ => keepsOthers_iff hnames hmem found
    refine Iff.trans ⟨fun h => h status dels rfl, fun h s d hs => ?_⟩ (forall₂_congr hpeer)
    obtain ⟨rfl, -⟩ := Prod.mk.inj (Except.ok.inj hs)
    exact h

/-! ### Two objects for one neighbour -/

/-- The state of a session with the router, as the node `one` sees it. -/
def sessionOne : NodePeerStatus where
  peerState := { neighborAddress := "192.0.2.10", sessionState := "ESTABLISHED" }

/-- As the node `two` sees it. -/
def sessionTwo : NodePeerStatus where
  peerState := { neighborAddress := "192.0.2.10", sessionState := "ACTIVE" }

/-- The router, as a peer of the first rack. -/
def rackOne : BgpPeer where
  name := "rack-one"
  nodeSelector := some { matchLabels := Map.nil.set "rack" "one" }
  conf := some { neighborAddress := "192.0.2.10" }

/-- The router, as a peer of the second rack, with the entry of the node `two`. -/
def rackTwo : BgpPeer where
  name := "rack-two"
  nodeSelector := some { matchLabels := Map.nil.set "rack" "two" }
  conf := some { neighborAddress := "192.0.2.10" }
  nodesPeerStatus := Map.nil.set "two" sessionTwo

/-- The peer in the gobgp of the node `one`. -/
def router : ApiPeer where
  neighborAddress := "192.0.2.10"
  getStatusFromGoBgpPeer := .ok sessionOne

/-- Another router, with which the node `two` has a session as well. -/
def uplink : BgpPeer where
  name := "uplink"
  conf := some { neighborAddress := "192.0.2.20" }
  nodesPeerStatus := Map.nil.set "two" { peerState := { neighborAddress := "192.0.2.20" } }

/-- It is a peer of the node `one` too. -/
def uplinkRouter : ApiPeer where
  neighborAddress := "192.0.2.20"
  getStatusFromGoBgpPeer := .ok { peerState := { neighborAddress := "192.0.2.20" } }

/-- Two objects with entries of the node `two`, for two neighbours. -/
theorem peer_status_frame_iff_neighbours :
    reached "one" [rackTwo, uplink] [router, uplinkRouter] = [rackTwo, uplink] ∧
    ∀ log r, Prog.Trace (PeersAre [rackTwo, uplink] [router, uplinkRouter])
        (updatePeerStatus "one").run log r →
      ∀ ev ∈ log, KeepsOthers "one" [rackTwo, uplink] ev.call := by
  have hreached : reached "one" [rackTwo, uplink] [router, uplinkRouter] = [rackTwo, uplink] := rfl
  refine ⟨hreached, (peer_status_frame_iff (by decide)).1.mpr ?_⟩
  rw [hreached]
  intro peer hpeer st _ haddr first hfirst
  obtain ⟨hmem, hfound⟩ := findPeer_some hfirst
  -- the addresses differ, so the first object with an address is the only one
  have haddrs : ([rackTwo, uplink].map BgpPeer.neighborAddress).Nodup := by decide
  obtain rfl := List.inj_on_of_nodup_map haddrs hmem hpeer (hfound.trans haddr.symm)
  exact fun _ _ => rfl

/-- The speaker of the node `one` writes the status of the first object into the second: the
entry of the node `two` is lost. -/
theorem peer_status_lost : ∃ log r ev,
    Prog.Trace (PeersAre [rackOne, rackTwo] [router]) (updatePeerStatus "one").run log r ∧
      ev ∈ log ∧
      ev.call = .updateStatus { rackTwo with nodesPeerStatus := Map.nil.set "one" sessionOne } ∧
      rackTwo.nodesPeerStatus.get "two" = some sessionTwo ∧
      (Map.nil.set "one" sessionOne).get "two" = none := by
  have hlost : rackTwo.nodesPeerStatus.get "two" = some sessionTwo ∧
      (Map.nil.set "one" sessionOne).get "two" = none ∧
      Map.nil.set "one" sessionOne ≠ rackTwo.nodesPeerStatus := by decide +kernel
  by_contra hnever
  -- a call other than this write is all that the code would make
  have hasks : (updatePeerStatus "one").run.Asks (PeersAre [rackOne, rackTwo] [router]) fun c =>
      c ≠ .updateStatus { rackTwo with nodesPeerStatus := Map.nil.set "one" sessionOne } :=
    (asks_iff_trace (exists_peersAre _ _)).mpr fun log r ht ev hev hcall =>
      hnever ⟨log, r, ev, ht, hev, hcall, hlost.1, hlost.2.1⟩
  refine (asks_updatePeerStatus ?_).mp hasks
    [{ rackOne with nodesPeerStatus := Map.nil.set "one" sessionOne }] [] rfl rackTwo ?_
    (some { rackOne with nodesPeerStatus := Map.nil.set "one" sessionOne }) rfl hlost.2.2 rfl
  · rintro c hc rfl
    exact hc trivial
  · exact List.mem_cons_of_mem _ List.mem_cons_self

end OpenELB.Bgp
