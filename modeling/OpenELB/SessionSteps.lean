import OpenELB.PeerSessions
import OpenELB.Threads

/-! # What changes the BGP sessions of a node

Two goroutines of a speaker change the peers of its gobgp.  The reconciler decides about the
peer of one object at a time; the ticker reads all objects, deletes the peers that have none,
and writes the status (`updatePeerStatus`).  gobgp knows its peers by their addresses:
`UpdatePeer` is for one that is there, and `AddPeer` for one that is not.

As long as the specifications of the objects stay as they are and no two of them have one
address, each can rely on the other: the reconciler only ever changes the peer of an object to
what it is to be (`safe_reconcilePeer`), and the ticker only deletes peers without an object
(`safe_tickBody`). -/
namespace OpenELB.Bgp
open Go Prog Threads

/-! ## The system -/

/-- The cluster as a speaker sees it, and its gobgp. -/
structure SessionState where
  objects : Map String PeerObject
  /-- The peers in gobgp, by their addresses. -/
  table : Map String GoBgpPeer
  /-- Whether the last list of the objects was read. -/
  listed : Bool := false
  /-- The objects that were reconciled without an error. -/
  reconciled : List String := []
  /-- Whether the ticker has come round. -/
  swept : Bool := false

/-- The object, with a status. -/
def PeerObject.withStatus (o : PeerObject) (status : Map String NodePeerStatus) : PeerObject :=
  { o with peer := { o.peer with nodesPeerStatus := status } }

/-- An object is stored; one that is being deleted goes with its last finalizer. -/
def SessionState.store (s : SessionState) (o : PeerObject) : SessionState :=
  { s with objects :=
      if o.deletionTimestamp && o.finalizers.isEmpty then s.objects.delete o.peer.name
      else s.objects.set o.peer.name o }

/-- What a read may answer: the finalizers and the status may be old. -/
def SessionState.Reads (s : SessionState) (name : String) : Except ApiErr PeerObject → Prop
  | .ok o => ∃ o₀, s.objects.get name = some o₀ ∧ o.spec = o₀.spec
  | .error .notFound => s.objects.get name = none
  | .error _ => True

/-- What a list of the objects may be: their status may be old. -/
def SessionState.Lists (s : SessionState) (peers : List BgpPeer) : Prop :=
  ∀ b, (∃ peer ∈ peers, peer.spec = b) ↔
    ∃ name o, s.objects.get name = some o ∧ o.peer.spec = b

/-- What gobgp says of its peers, whose state can be read. -/
def SessionState.Reports (s : SessionState) (gobgp : List ApiPeer) : Prop :=
  (∀ a, (s.table.get a).isSome ↔ ∃ g ∈ gobgp, g.neighborAddress = a) ∧
    ∀ g ∈ gobgp, ∃ st, g.getStatusFromGoBgpPeer = .ok st ∧
      st.peerState.neighborAddress = g.neighborAddress

/-- What the calls of the ticker do. -/
def peerExec : (c : PeerCall) → SessionState → PeerReply c → SessionState → Prop
  | .listBgpPeers, s, r, s' => match r with
    | .ok peers => s.Lists peers ∧ s' = { s with listed := true }
    | .error _ => s' = { s with listed := false }
  | .listPeer, s, gobgp, s' => s.Reports gobgp ∧ s' = s
  | .deletePeer a _, s, _, s' => s' = { s with table := s.table.delete a }
  | .updateStatus p, s, r, s' =>
    (∃ e, r = .error e) ∧ s' = s ∨
      ∃ o, s.objects.get p.name = some o ∧
        s' = { s with objects := s.objects.set p.name (o.withStatus p.nodesPeerStatus) }
  | .updateBGPSessionMetrics _ _ _ _, s, _, s' | .deleteBGPPeerMetrics _ _, s, _, s' => s' = s

/-- What the calls do.  Every request to the API server may fail, and `AddPeer` and `UpdatePeer` may
be refused; but gobgp deletes the peer that it is asked to, and what it says of its peers can be
read.  The labels of the node stay. -/
def sessionExec (node : Node) : (c : SessionCall) → SessionState → SessionReply c → SessionState → Prop
  | .getBgpPeer name, s, r, s' => s.Reads name r ∧ s' = s
  | .getNode _, s, r, s' => (∀ n, r = .ok n → n = node) ∧ s' = s
  | .updateBgpPeer o, s, r, s' =>
    (∃ e, r = .error e) ∧ s' = s ∨
      ∃ o₀, s.objects.get o.peer.name = some o₀ ∧
        r = .ok (o.withStatus o₀.peer.nodesPeerStatus) ∧
        s' = s.store (o.withStatus o₀.peer.nodesPeerStatus)
  | .updatePeer p, s, r, s' =>
    (∃ e, r = .error e) ∧ s' = s ∨
      ∃ conf, p.conf = some conf ∧ (s.table.get conf.neighborAddress).isSome ∧ r = .ok () ∧
        s' = { s with table := s.table.set conf.neighborAddress p }
  | .addPeer p, s, r, s' =>
    (∃ e, r = .error e) ∧ s' = s ∨
      ∃ conf, p.conf = some conf ∧ s.table.get conf.neighborAddress = none ∧ r = .ok () ∧
        s' = { s with table := s.table.set conf.neighborAddress p }
  | .initBGPPeerMetrics _ _, s, _, s' => s' = s
  | .peer c, s, r, s' => peerExec c s r s'

/-- The goroutines. -/
inductive SessionWorker where
  | reconciler
  | ticker
  deriving DecidableEq

/-- What they do. -/
inductive SessionOp where
  | reconcile (name : String)
  | tick

/-- The code of the ticker, as a program of the speaker. -/
def tickBody (env : PeerEnv) : Prog SessionCall SessionReply (Except Failure Unit) :=
  (updatePeerStatus env.nodeName).run.interp (fun c => .call (.peer c) .ret) >>= fun r =>
    .ret (r.mapError fun _ => .panic)

/-- The goroutines of a speaker, among others that change the cluster as `E` says. -/
def speaker (env : PeerEnv) (node : Node) (E : SessionState → SessionState → Prop) :
    System SessionWorker SessionOp SessionCall SessionReply (Except Failure Unit) SessionState where
  body
    | .reconcile name => (reconcilePeer env name).run
    | .tick => tickBody env
  exec := sessionExec node
  start i op s s' := s' = s ∧ (op = .tick ↔ i = .ticker)
  done _ op r s s' := s' =
    match op, r with
    | .reconcile name, .ok _ => { s with reconciled := name :: s.reconciled }
    | .tick, .ok _ => { s with swept := s.swept || s.listed }
    | _, .error _ => s
  env _ := E

/-! ## Specifications that stay -/

/-- The neighbour's address. -/
def PeerObject.At (o : PeerObject) (a : String) : Prop :=
  ∃ conf, o.peer.conf = some conf ∧ conf.neighborAddress = a

/-- Specifications of objects that are not being deleted, each with an address of its own. -/
structure Plan (specs : String → Option PeerObject) : Prop where
  named : ∀ {n o}, specs n = some o → o.peer.name = n
  stays : ∀ {n o}, specs n = some o → o.deletionTimestamp = false
  distinct : ∀ {n m o o' a}, specs n = some o → specs m = some o' → o.At a → o'.At a → n = m

/-- The stored objects have these specifications. -/
def HoldsSpecs (specs : String → Option PeerObject) (s : SessionState) : Prop :=
  ∀ n, (s.objects.get n).map PeerObject.spec = specs n

/-- Others write the status and the finalizers of objects. -/
def KeepsSpecs (s s' : SessionState) : Prop :=
  ∃ objects : Map String PeerObject, s' = { s with objects := objects } ∧
    ∀ n, (objects.get n).map PeerObject.spec = (s.objects.get n).map PeerObject.spec

/-- Some object has the address. -/
def IsAddress (specs : String → Option PeerObject) (a : String) : Prop :=
  ∃ n o, specs n = some o ∧ o.At a

/-- The node selector of the peer selects the node. -/
def Selects (env : PeerEnv) (node : Node) (peer : BgpPeer) : Prop :=
  peerMatchNode env.toConfEnv peer node = .ok true

instance (env : PeerEnv) (node : Node) (peer : BgpPeer) : Decidable (Selects env node peer) :=
  decidable_of_iff ((peerMatchNode env.toConfEnv peer node).toOption = some true) (by
    rw [Selects]
    rcases peerMatchNode env.toConfEnv peer node with e | b <;> simp [Except.toOption])

/-- The peer that gobgp is to have for an object. -/
def wanted (env : PeerEnv) (node : Node) (o : PeerObject) : Option GoBgpPeer :=
  if Selects env node o.peer then (peerRequest env o).toOption else none

/-! ## What the goroutines do to each other -/

section Exact
variable {env : PeerEnv} {node : Node} {specs : String → Option PeerObject} {s s' : SessionState}
  {n a : String} {o : PeerObject} {p : GoBgpPeer}

/-- What a goroutine leaves of the state for the other, and for itself between its calls. -/
structure Fixed (specs : String → Option PeerObject) (s s' : SessionState) : Prop where
  holds : HoldsSpecs specs s → HoldsSpecs specs s'
  reconciled : s'.reconciled = s.reconciled
  swept : s'.swept = s.swept

theorem Fixed.refl : Fixed specs s s := ⟨id, rfl, rfl⟩

/-- What the reconciler sees of the others: the peers of objects stay. -/
def RelyReconciler (specs : String → Option PeerObject) (s s' : SessionState) : Prop :=
  (HoldsSpecs specs s → HoldsSpecs specs s') ∧ ∀ a, IsAddress specs a → s'.table.get a = s.table.get a

/-- What the ticker sees of the others: the peers without an object stay. -/
def RelyTicker (specs : String → Option PeerObject) (s s' : SessionState) : Prop :=
  (HoldsSpecs specs s → HoldsSpecs specs s') ∧ s'.listed = s.listed ∧
    ∀ a, ¬ IsAddress specs a → s'.table.get a = s.table.get a

/-- A call of the reconciler, for one object: its peer is left alone, or it becomes what it is
to be. -/
def Decides (env : PeerEnv) (node : Node) (specs : String → Option PeerObject) (n : String)
    (s s' : SessionState) : Prop :=
  Fixed specs s s' ∧ s'.listed = s.listed ∧ ∀ a, s'.table.get a = s.table.get a ∨
    ∃ o, specs n = some o ∧ o.At a ∧ s'.table.get a = wanted env node o

/-- A call of the ticker: a peer is left alone, or it has no object and is deleted. -/
def Sweeps (specs : String → Option PeerObject) (s s' : SessionState) : Prop :=
  Fixed specs s s' ∧ ∀ a, s'.table.get a = s.table.get a ∨
    ¬ IsAddress specs a ∧ s'.table.get a = none

/-- The peer of the object is what it is to be. -/
def SessionSettled (env : PeerEnv) (node : Node) (specs : String → Option PeerObject) (n : String)
    (s : SessionState) : Prop :=
  ∀ o a, specs n = some o → o.At a → s.table.get a = wanted env node o

/-- There are no peers without an object. -/
def Swept (specs : String → Option PeerObject) (s : SessionState) : Prop :=
  ∀ a, ¬ IsAddress specs a → s.table.get a = none

/-- The rely of each goroutine. -/
def relies (specs : String → Option PeerObject) : SessionWorker → SessionState → SessionState → Prop
  | .reconciler => RelyReconciler specs
  | .ticker => RelyTicker specs

/-- What each goroutine guarantees of its calls. -/
def guarantees (env : PeerEnv) (node : Node) (specs : String → Option PeerObject) (i : SessionWorker) :
    SessionOp → SessionState → SessionState → Prop
  | .reconcile n, s, s' => i = .reconciler ∧ Decides env node specs n s s'
  | .tick, s, s' => i = .ticker ∧ Sweeps specs s s'

/-- What holds when an operation has returned. -/
def ends (env : PeerEnv) (node : Node) (specs : String → Option PeerObject) (i : SessionWorker) :
    SessionOp → Except Failure Unit → SessionState → Prop
  | .reconcile n, r, s => i = .reconciler ∧ (r = .ok () → SessionSettled env node specs n s)
  | .tick, r, s => i = .ticker ∧
    (r = .ok () → s.listed = true → Swept specs s)

theorem RelyReconciler.refl : RelyReconciler specs s s := ⟨id, fun _ _ => rfl⟩

theorem RelyTicker.refl : RelyTicker specs s s := ⟨id, rfl, fun _ _ => rfl⟩

theorem RelyReconciler.trans {s'' : SessionState} (h : RelyReconciler specs s s')
    (h' : RelyReconciler specs s' s'') : RelyReconciler specs s s'' :=
  ⟨fun hs => h'.1 (h.1 hs), fun a ha => (h'.2 a ha).trans (h.2 a ha)⟩

theorem RelyTicker.trans {s'' : SessionState} (h : RelyTicker specs s s')
    (h' : RelyTicker specs s' s'') : RelyTicker specs s s'' :=
  ⟨fun hs => h'.1 (h.1 hs), h'.2.1.trans h.2.1, fun a ha => (h'.2.2 a ha).trans (h.2.2 a ha)⟩

theorem SessionSettled.rely (h : SessionSettled env node specs n s) (hR : RelyReconciler specs s s') :
    SessionSettled env node specs n s' :=
  fun o a ho ha => (hR.2 a ⟨n, o, ho, ha⟩).trans (h o a ho ha)

theorem Swept.rely (h : Swept specs s) (hR : RelyTicker specs s s') : Swept specs s' :=
  fun a ha => (hR.2.2 a ha).trans (h a ha)

/-! ## The reconciler -/

/-- A program of the reconciler for one object. -/
abbrev SafeReconciler (env : PeerEnv) (node : Node) (specs : String → Option PeerObject)
    (n : String) {α : Type} (Q : α → SessionState → Prop) :=
  Safe (σ := SessionState) (α := α) (sessionExec node) (RelyReconciler specs)
    (fun _ _ _ _ => Decides env node specs n) (fun _ => Q)

/-- A call that changes nothing the others look at. -/
theorem decides_of_table (h : Fixed specs s s') (hl : s'.listed = s.listed)
    (ht : s'.table = s.table) : Decides env node specs n s s' :=
  ⟨h, hl, fun a => .inl (by rw [ht])⟩

theorem decides_refl : Decides env node specs n s s :=
  decides_of_table Fixed.refl rfl rfl

/-- The peer of the object is put into the table, or deleted from it. -/
theorem decides_update {table : Map String GoBgpPeer} (ho : specs n = some o) (ha : o.At a)
    (hself : table.get a = wanted env node o)
    (hother : ∀ b, b ≠ a → table.get b = s.table.get b) :
    Decides env node specs n s { s with table := table } := by
  refine ⟨⟨id, rfl, rfl⟩, rfl, fun b => ?_⟩
  by_cases hb : b = a
  · subst hb
    exact .inr ⟨o, ho, ha, hself⟩
  · exact .inl (hother b hb)

/-- Afterwards it is settled. -/
theorem settled_of_get (ho : specs n = some o) (ha : o.At a)
    (hself : s.table.get a = wanted env node o) : SessionSettled env node specs n s := by
  rintro o' b ho' ⟨conf, hconf, rfl⟩
  obtain ⟨conf', hconf', rfl⟩ := ha
  obtain rfl := Option.some.inj (ho.symm.trans ho')
  obtain rfl := Option.some.inj (hconf.symm.trans hconf')
  exact hself

theorem wanted_spec : wanted env node o.spec = wanted env node o := by
  have hselects : Selects env node o.spec.peer ↔ Selects env node o.peer := Iff.rfl
  simp only [wanted, hselects, peerRequest_congr (show o.spec.spec = o.spec from rfl)]

/-- What the reconciler's programs are to end with. -/
abbrev settles (env : PeerEnv) (node : Node) (specs : String → Option PeerObject) (n : String)
    (r : Except Failure Unit) (s : SessionState) : Prop :=
  r = .ok () → SessionSettled env node specs n s

theorem safe_establish (hspec : specs n = some o.spec) (hsel : Selects env node o.peer)
    (hp : peerRequest env o = .ok p) {log : List (Event SessionCall SessionReply)} :
    SafeReconciler env node specs n (settles env node specs n) log (establish p).run s := by
  have hput : ∀ (s : SessionState) conf, p.conf = some conf →
      Decides env node specs n s { s with table := s.table.set conf.neighborAddress p } ∧
        SessionSettled env node specs n { s with table := s.table.set conf.neighborAddress p } := by
    intro s conf hconf
    have ha : o.spec.At conf.neighborAddress :=
      ⟨conf, (conf_of_peerRequest hp).symm.trans hconf, rfl⟩
    have hself : (s.table.set conf.neighborAddress p).get conf.neighborAddress =
        wanted env node o.spec := by
      rw [Map.get_set_self, wanted_spec, wanted, if_pos hsel, hp]
      rfl
    exact ⟨decides_update hspec ha hself fun b hb => Map.get_set_ne _ _ hb,
      settled_of_get hspec ha hself⟩
  intro s₁ r₁ s₂ _ he₁
  rcases he₁ with ⟨⟨e₁, rfl⟩, rfl⟩ | ⟨conf, hconf, -, rfl, rfl⟩
  · refine ⟨decides_refl, ?_⟩
    -- there is no such peer yet
    intro s₃ r₂ s₄ _ he₂
    rcases he₂ with ⟨⟨e₂, rfl⟩, rfl⟩ | ⟨conf, hconf, -, rfl, rfl⟩
    · exact ⟨decides_refl, fun _ _ h => by cases h⟩
    · exact ⟨(hput s₃ conf hconf).1, fun _ hR _ => (hput s₃ conf hconf).2.rely hR⟩
  · exact ⟨(hput s₁ conf hconf).1, fun _ hR _ => (hput s₁ conf hconf).2.rely hR⟩

theorem safe_tearDown (hspec : specs n = some o.spec) (hsel : ¬ Selects env node o.peer)
    (hp : peerRequest env o = .ok p) {log : List (Event SessionCall SessionReply)} :
    SafeReconciler env node specs n (settles env node specs n) log (tearDown p).run s := by
  have hconf := conf_of_peerRequest hp
  rcases hc : p.conf with - | conf
  · rw [tearDown, hc]
    exact fun _ _ h => by cases h
  · rw [tearDown, hc]
    have ha : o.spec.At conf.neighborAddress := ⟨conf, hconf.symm.trans hc, rfl⟩
    rintro s₁ r s₂ - rfl
    have hself : (s₁.table.delete conf.neighborAddress).get conf.neighborAddress =
        wanted env node o.spec := by
      rw [Map.get_delete_self, wanted_spec, wanted, if_neg hsel]
    refine ⟨decides_update hspec ha hself fun b hb => ?_,
      fun _ hR _ => (settled_of_get hspec ha hself).rely hR⟩
    rw [Map.get_delete, if_neg hb]

/-- The metrics are of this node. -/
theorem peerMetrics_some {nodeName : String} {peer : BgpPeer} {delete : Bool} {c : PeerCall}
    (h : peerMetrics nodeName peer delete = .ok (some c)) :
    (∃ ip, c = .deleteBGPPeerMetrics ip nodeName) ∨
      ∃ ip state total, c = .updateBGPSessionMetrics ip nodeName state total := by
  rw [peerMetrics] at h
  split at h
  · cases h
  rcases ha : peer.neighborAddress with e | ip <;> rw [ha] at h
  · cases h
  rw [ok_bind] at h
  split at h
  · cases h
  split at h
  · cases h
    exact .inl ⟨ip, rfl⟩
  rename_i st _ _
  rcases hm : st.peerState.messages with - | messages <;> rw [hm] at h
  · cases h
  rw [deref, ok_bind] at h
  rcases hr : messages.received with - | received <;> rw [hr] at h
  · cases h
  cases h
  exact .inr ⟨ip, _, _, rfl⟩

theorem peerExec_metrics {nodeName : String} {peer : BgpPeer} {delete : Bool} {c : PeerCall}
    (h : peerMetrics nodeName peer delete = .ok (some c)) {r : PeerReply c}
    (he : peerExec c s r s') : s' = s := by
  obtain ⟨ip, rfl⟩ | ⟨ip, state, total, rfl⟩ := peerMetrics_some h
  · exact he
  · exact he

theorem safe_setPeerMetrics {peer : BgpPeer} {delete : Bool}
    {log : List (Event SessionCall SessionReply)} :
    SafeReconciler env node specs n (fun _ _ => True) log
      (setPeerMetrics env.nodeName peer delete).run s := by
  rw [setPeerMetrics]
  rcases hm : peerMetrics env.nodeName peer delete with e | (- | c)
  · exact fun _ _ => trivial
  · exact fun _ _ => trivial
  · intro s₁ r s₂ _ he
    obtain rfl : s₂ = s₁ := peerExec_metrics hm he
    exact ⟨decides_refl, fun _ _ => trivial⟩

theorem safe_handleBgpPeer (hspec : specs n = some o.spec) {b : Bool}
    (hb : b = true ↔ Selects env node o.peer) {log : List (Event SessionCall SessionReply)} :
    SafeReconciler env node specs n (settles env node specs n) log
      (handleBgpPeer env o (!b)).run s := by
  rw [handleBgpPeer]
  rcases hp : peerRequest env o with e | p
  · exact fun _ _ h => by cases h
  rw [must_ok_bind]
  refine Safe.except_bind (fun _ => RelyReconciler.refl) (safe_setPeerMetrics.mono
    (fun _ _ _ _ _ _ h => h) fun log r s₁ _ => ?_)
  rcases r with e | u
  · exact fun _ _ h => by cases h
  · cases b with
    | true => exact safe_establish hspec (hb.mp rfl) hp
    | false => exact safe_tearDown hspec (fun h => by cases hb.mpr h) hp

theorem safe_matchNode {peer : BgpPeer} {log : List (Event SessionCall SessionReply)} :
    SafeReconciler env node specs n
      (either (fun b _ => b = true ↔ Selects env node peer) fun _ _ => True) log
      (matchNode env peer).run s := by
  rw [matchNode]
  rcases hsel : peer.nodeSelector with - | selector
  · have hall : Selects env node peer := by rw [Selects, peerMatchNode, hsel]
    exact fun _ _ => ⟨fun _ => hall, fun _ => rfl⟩
  · rintro s₁ r s₂ - ⟨hnode, rfl⟩
    refine ⟨decides_refl, ?_⟩
    rcases r with e | node'
    · exact fun _ _ => trivial
    obtain rfl := hnode node' rfl
    intro s₃ _
    show either _ _ ((peerMatchNode env.toConfEnv peer node').mapError Failure.err) s₃
    rcases hm : peerMatchNode env.toConfEnv peer node' with e | b
    · trivial
    · show b = true ↔ _
      rw [Selects, hm, Except.ok.injEq]

theorem holds_store (hplan : Plan specs) (hspec : specs n = some o.spec) (hs : HoldsSpecs specs s) :
    HoldsSpecs specs (s.store o) := by
  have hname : o.peer.name = n := hplan.named (o := o.spec) hspec
  have hstays : o.deletionTimestamp = false := hplan.stays (o := o.spec) hspec
  intro m
  rw [SessionState.store, hstays, Bool.false_and, if_neg Bool.false_ne_true, hname, Map.get_set]
  by_cases hm : m = n
  · rw [if_pos hm, hm, hspec]
    rfl
  · rw [if_neg hm]
    exact hs m

theorem safe_addPeerFinalizer (hplan : Plan specs) (hspec : specs n = some o.spec)
    {log : List (Event SessionCall SessionReply)} :
    SafeReconciler env node specs n (either (fun clone _ => clone.spec = o.spec) fun _ _ => True)
      log (addPeerFinalizer env o).run s := by
  rw [addPeerFinalizer]
  split
  · rcases hconf : o.peer.conf with - | conf
    · exact fun _ _ => trivial
    rintro s₁ r₁ s₂ - rfl
    refine ⟨decides_refl, ?_⟩
    intro s₃ r₂ s₄ _ he
    rcases he with ⟨⟨e, rfl⟩, rfl⟩ | ⟨o₀, -, rfl, rfl⟩
    · exact ⟨decides_refl, fun _ _ => trivial⟩
    · exact ⟨decides_of_table ⟨holds_store hplan hspec, rfl, rfl⟩ rfl rfl, fun _ _ => rfl⟩
  · exact fun _ _ => rfl

/-- **The reconciler settles the object**, and does nothing to others. -/
theorem safe_reconcilePeer (hplan : Plan specs) (hs : HoldsSpecs specs s) :
    SafeReconciler env node specs n (settles env node specs n) []
      (reconcilePeer env n).run s := by
  rintro s₁ r s₂ hR ⟨hread, rfl⟩
  refine ⟨decides_refl, ?_⟩
  have hn := hR.1 hs n
  rcases r with (_ | _ | _) | o
  · -- there is no such object
    rw [show s₂.objects.get n = none from hread] at hn
    intro _ _ _ o a ho _
    rw [← hn] at ho
    cases ho
  · exact fun _ _ h => by cases h
  · exact fun _ _ h => by cases h
  · obtain ⟨o₀, hget, hspec₀⟩ := hread
    have hspec : specs n = some o.spec := by
      rw [hget, Option.map_some, ← hspec₀] at hn
      exact hn.symm
    have hstays : o.deletionTimestamp = false := hplan.stays (o := o.spec) hspec
    show SafeReconciler env node specs n (settles env node specs n) _ (reconcileFound env o).run s₂
    rw [reconcileFound]
    refine Safe.except_bind (fun _ => RelyReconciler.refl) (safe_matchNode.mono
      (fun _ _ _ _ _ _ h => h) fun log r₁ s₃ hb => ?_)
    rcases r₁ with e | b
    · exact fun _ _ h => by cases h
    rw [either_ok, isDeletionCandidate, hstays, Bool.false_and, if_neg Bool.false_ne_true]
    refine Safe.except_bind (fun _ => RelyReconciler.refl) ((safe_addPeerFinalizer hplan hspec).mono
      (fun _ _ _ _ _ _ h => h) fun log r₂ s₄ hclone => ?_)
    rcases r₂ with e | clone
    · exact fun _ _ h => by cases h
    have hspec' : specs n = some clone.spec := hspec.trans (congrArg some hclone.symm)
    have hsel : Selects env node o.peer ↔ Selects env node clone.peer := by
      show Selects env node o.spec.peer ↔ Selects env node clone.spec.peer
      rw [hclone]
    exact safe_handleBgpPeer hspec' (Iff.trans hb hsel)

/-! ## The ticker -/

section Ticker
variable {nodeName : String} {peers status : List BgpPeer} {gobgp dels : List ApiPeer}

theorem neighborAddress_eq_ok {peer : BgpPeer} :
    peer.neighborAddress = .ok a ↔ ∃ conf, peer.conf = some conf ∧ conf.neighborAddress = a := by
  rw [BgpPeer.neighborAddress]
  rcases peer.conf with - | conf
  · simp [deref]
  · simp [deref, pure, Except.pure]

theorem findPeer_none (h : findPeer a peers = .ok none) :
    ∀ peer ∈ peers, peer.neighborAddress ≠ .ok a := by
  induction peers with
  | nil => exact fun _ hmem => absurd hmem List.not_mem_nil
  | cons peer peers ih =>
    rcases hat : peer.neighborAddress with e | b
    · rw [findPeer_cons_error hat] at h
      cases h
    · rw [findPeer_cons hat] at h
      by_cases hb : b = a
      · rw [if_pos hb] at h
        cases h
      · rw [if_neg hb] at h
        refine List.forall_mem_cons.mpr ⟨fun heq => hb ?_, ih h⟩
        exact Except.ok.inj (hat.symm.trans heq)

/-- The peers that are deleted: those whose address no object has. -/
theorem mem_dels (h : collectStatus nodeName peers gobgp = .ok (status, dels)) (g : ApiPeer) :
    g ∈ dels ↔ g ∈ gobgp ∧ ∃ st, g.getStatusFromGoBgpPeer = .ok st ∧
      findPeer st.peerState.neighborAddress peers = .ok none := by
  induction gobgp generalizing status dels with
  | nil =>
    cases h
    simp
  | cons g' gobgp ih =>
    rw [collectStatus] at h
    rcases hg : g'.getStatusFromGoBgpPeer with e | st
    · rw [hg] at h
      refine (ih h).trans (and_congr_left fun hst => ?_)
      refine ⟨List.mem_cons_of_mem _, fun hmem => (List.mem_cons.mp hmem).resolve_left ?_⟩
      rintro rfl
      obtain ⟨st, hst, -⟩ := hst
      cases hg.symm.trans hst
    · simp only [hg] at h
      rcases hfind : findPeer st.peerState.neighborAddress peers with e | (- | first)
      · rw [hfind] at h
        cases h
      · rw [hfind, ok_bind] at h
        rcases hrest : collectStatus nodeName peers gobgp with e | ⟨result, dels'⟩
        · simp only [hrest, error_bind] at h
          cases h
        · simp only [hrest, ok_bind] at h
          cases h
          rw [List.mem_cons, List.mem_cons, ih hrest, or_and_right]
          refine or_congr_left ⟨?_, And.left⟩
          rintro rfl
          exact ⟨rfl, st, hg, hfind⟩
      · rw [hfind, ok_bind] at h
        dsimp only at h
        rw [withStatus_eq (findPeer_some hfind).2, ok_bind] at h
        rcases hrest : collectStatus nodeName peers gobgp with e | ⟨result, dels'⟩
        · simp only [hrest, error_bind] at h
          cases h
        · simp only [hrest, ok_bind] at h
          cases h
          refine (ih hrest).trans (and_congr_left fun hst => ?_)
          refine ⟨List.mem_cons_of_mem _, fun hmem => (List.mem_cons.mp hmem).resolve_left ?_⟩
          rintro rfl
          obtain ⟨st', hst', hnone⟩ := hst
          cases hg.symm.trans hst'
          cases hfind.symm.trans hnone

/-- A program of the ticker. -/
abbrev SafeTicker (specs : String → Option PeerObject) {α : Type} (Q : α → SessionState → Prop) :=
  Safe (σ := SessionState) (α := α) peerExec (RelyTicker specs) (fun _ _ _ _ => Sweeps specs)
    (fun _ => Q)

theorem safe_deletePeers (hdels : ∀ g ∈ dels, ¬ IsAddress specs g.neighborAddress)
    (hstray : ∀ a, ¬ IsAddress specs a → s.table.get a ≠ none →
      ∃ g ∈ dels, g.neighborAddress = a) {log : List (Event PeerCall PeerReply)} :
    SafeTicker specs (either (fun _ => Swept specs) fun _ _ => True) log (deletePeers dels).run s := by
  induction dels generalizing s log with
  | nil =>
    refine fun s' hR => Swept.rely (s := s) (fun a ha => ?_) hR
    by_contra hne
    obtain ⟨g, hg, -⟩ := hstray a ha hne
    exact absurd hg List.not_mem_nil
  | cons del dels ih =>
    obtain ⟨hdel, hdels⟩ := List.forall_mem_cons.mp hdels
    rintro s₁ r s₂ hR rfl
    refine ⟨⟨⟨id, rfl, rfl⟩, fun b => ?_⟩, ih hdels fun b hb hne => ?_⟩
    · by_cases hb : b = del.neighborAddress
      · subst hb
        exact .inr ⟨hdel, Map.get_delete_self ..⟩
      · exact .inl ((Map.get_delete ..).trans (if_neg hb))
    · rw [Map.get_delete] at hne
      by_cases heq : b = del.neighborAddress
      · rw [if_pos heq] at hne
        exact absurd rfl hne
      · rw [if_neg heq, hR.2.2 b hb] at hne
        obtain ⟨g, hg, hat⟩ := hstray b hb hne
        refine ⟨g, (List.mem_cons.mp hg).resolve_left ?_, hat⟩
        rintro rfl
        exact heq hat.symm

/-- The addresses of a list of the objects are those of the objects. -/
theorem listed_address (hs : HoldsSpecs specs s) (h : s.Lists peers) :
    (∃ peer ∈ peers, peer.neighborAddress = .ok a) ↔ IsAddress specs a := by
  constructor
  · rintro ⟨peer, hmem, hat⟩
    obtain ⟨name, o, hget, hspec⟩ := (h peer.spec).mp ⟨peer, hmem, rfl⟩
    obtain ⟨conf, hconf, ha⟩ := neighborAddress_eq_ok.mp hat
    have hspecs : specs name = some o.spec := by rw [← hs name, hget, Option.map_some]
    exact ⟨name, o.spec, hspecs, conf, (congrArg BgpPeer.conf hspec).trans hconf, ha⟩
  · rintro ⟨name, sp, hsp, conf, hconf, ha⟩
    rw [← hs name] at hsp
    obtain ⟨o, hget, rfl⟩ := Option.map_eq_some_iff.mp hsp
    obtain ⟨peer, hmem, hspec⟩ := (h o.peer.spec).mpr ⟨name, o, hget, rfl⟩
    refine ⟨peer, hmem, neighborAddress_eq_ok.mpr ⟨conf, ?_, ha⟩⟩
    exact (congrArg BgpPeer.conf hspec).trans hconf

theorem safe_handleBgpPeerStatus
    (hpeers : ∀ a, (∃ peer ∈ peers, peer.neighborAddress = .ok a) ↔ IsAddress specs a)
    {log : List (Event PeerCall PeerReply)} :
    SafeTicker specs (either (fun _ => Swept specs) fun _ _ => True) log
      (handleBgpPeerStatus nodeName peers).run s := by
  rintro s₁ gobgp s₂ - ⟨⟨hreport, hstate⟩, rfl⟩
  refine ⟨⟨Fixed.refl, fun _ => .inl rfl⟩, ?_⟩
  show SafeTicker specs _ _
    (must (collectStatus nodeName peers gobgp) >>= fun x => deletePeers x.2 >>= fun _ =>
      pure x.1 : PeerCode (List BgpPeer)).run s₂
  rcases hcollect : collectStatus nodeName peers gobgp with e | ⟨status, dels⟩
  · exact fun _ _ => trivial
  rw [must_ok_bind]
  have hdels : ∀ g ∈ dels, ¬ IsAddress specs g.neighborAddress := by
    intro g hg haddr
    obtain ⟨hmem, st, hst, hnone⟩ := (mem_dels hcollect g).mp hg
    obtain ⟨st', hst', hat⟩ := hstate g hmem
    cases hst.symm.trans hst'
    obtain ⟨peer, hpeer, hpat⟩ := (hpeers _).mpr haddr
    exact findPeer_none hnone peer hpeer (hat ▸ hpat)
  have hstray : ∀ a, ¬ IsAddress specs a → s₂.table.get a ≠ none →
      ∃ g ∈ dels, g.neighborAddress = a := by
    intro a ha hne
    obtain ⟨g, hmem, hat⟩ := (hreport a).mp (Option.isSome_iff_ne_none.mpr hne)
    obtain ⟨st, hst, hsat⟩ := hstate g hmem
    refine ⟨g, (mem_dels hcollect g).mpr ⟨hmem, st, hst, ?_⟩, hat⟩
    obtain ⟨found, hfind⟩ := (collectStatus_spec hcollect).1 st ⟨g, hmem, hst⟩
    rcases found with - | found
    · exact hfind
    · obtain ⟨hfound, hfat⟩ := findPeer_some hfind
      rw [hsat, hat] at hfat
      exact absurd ((hpeers a).mp ⟨found, hfound, hfat⟩) ha
  refine Safe.except_bind (fun _ => RelyTicker.refl) ((safe_deletePeers hdels hstray).mono
    (fun _ _ _ _ _ _ h => h) fun log r s₃ h => ?_)
  rcases r with e | u
  · exact fun _ _ => trivial
  · exact fun _ hR => Swept.rely h hR

/-- The calls that leave the peers of gobgp alone, after the lists. -/
def PeerCall.leavesPeers : PeerCall → Prop
  | .updateStatus _ | .updateBGPSessionMetrics _ _ _ _ | .deleteBGPPeerMetrics _ _ => True
  | _ => False

theorem updateEach_all (nodeName : String) (status peers : List BgpPeer) :
    (updateEach nodeName status peers).run.All PeerCall.leavesPeers := by
  induction peers with
  | nil => trivial
  | cons peer peers ih =>
    refine all_except_bind trivial fun found => all_except_bind ?_ fun _ =>
      all_except_bind ?_ fun _ => ih
    · rw [writeStatus]
      split
      · exact ⟨trivial, fun _ => trivial⟩
      · trivial
    · rw [updatePeerMetrics]
      rcases hm : peerMetrics nodeName peer found.isNone with e | (- | c)
      · trivial
      · trivial
      · obtain ⟨ip, rfl⟩ | ⟨ip, state, total, rfl⟩ := peerMetrics_some hm
        · exact ⟨trivial, fun _ => trivial⟩
        · exact ⟨trivial, fun _ => trivial⟩

theorem peerExec_leavesPeers {c : PeerCall} {r : PeerReply c} (hc : c.leavesPeers)
    (he : peerExec c s r s') : Fixed specs s s' ∧ s'.table = s.table := by
  cases c with
  | listBgpPeers | listPeer | deletePeer a i => exact hc.elim
  | updateBGPSessionMetrics | deleteBGPPeerMetrics =>
    obtain rfl : s' = s := he
    exact ⟨Fixed.refl, rfl⟩
  | updateStatus p =>
    rcases he with ⟨-, rfl⟩ | ⟨o, hget, rfl⟩
    · exact ⟨Fixed.refl, rfl⟩
    · refine ⟨⟨fun hs m => ?_, rfl, rfl⟩, rfl⟩
      have hm := hs m
      rw [Map.get_set]
      by_cases heq : m = p.name
      · rw [heq, hget] at hm
        rw [if_pos heq, heq, ← hm]
        rfl
      · rw [if_neg heq]
        exact hm

theorem safe_updatePeerStatus (hs : HoldsSpecs specs s) :
    SafeTicker specs (fun r s' => r = .ok () → s'.listed = true → Swept specs s') []
      (updatePeerStatus nodeName).run s := by
  intro s₁ r s₂ hR he
  rcases r with e | peers
  · obtain rfl : s₂ = { s₁ with listed := false } := he
    refine ⟨⟨⟨id, rfl, rfl⟩, fun _ => .inl rfl⟩, fun s₃ hR' _ hlisted => ?_⟩
    rw [hR'.2.1] at hlisted
    cases hlisted
  · obtain ⟨hlists, rfl⟩ := he
    refine ⟨⟨⟨id, rfl, rfl⟩, fun _ => .inl rfl⟩, ?_⟩
    refine Safe.except_bind (fun _ => RelyTicker.refl) ((safe_handleBgpPeerStatus
      fun a => listed_address (hR.1 hs) hlists).mono (fun _ _ _ _ _ _ h => h) fun log r s₃ h => ?_)
    rcases r with e | status
    · exact fun _ _ h => by cases h
    refine (Safe.of_all_inv (I := Swept specs) (fun _ _ hR h => h.rely hR) ?_
      (updateEach_all nodeName status peers) h).mono (fun _ _ _ _ _ _ h => h) fun _ _ _ h _ _ => h
    intro log c r q s s' hc he h
    obtain ⟨hfixed, htable⟩ := peerExec_leavesPeers hc he
    exact ⟨⟨hfixed, fun a => .inl (by rw [htable])⟩, fun a ha => by rw [htable]; exact h a ha⟩

/-- The code of the ticker is safe as a program of the speaker. -/
theorem safe_interp {α : Type} {q : Prog PeerCall PeerReply α} {Q : α → SessionState → Prop}
    {log : List (Event PeerCall PeerReply)} (h : SafeTicker specs Q log q s)
    {log' : List (Event SessionCall SessionReply)} :
    Safe (sessionExec node) (RelyTicker specs) (fun _ _ _ _ => Sweeps specs) (fun _ => Q) log'
      (q.interp fun c => .call (SessionCall.peer c) .ret) s := by
  induction q generalizing s log log' with
  | ret a => exact h
  | call c k ih =>
    intro s₁ r s₂ hR he
    obtain ⟨hsweep, hrest⟩ := h s₁ r s₂ hR he
    exact ⟨hsweep, ih r hrest⟩

theorem safe_tickBody (hs : HoldsSpecs specs s) :
    Safe (sessionExec node) (RelyTicker specs) (fun _ _ _ _ => Sweeps specs)
      (fun _ r s' => r = .ok () → s'.listed = true → Swept specs s') [] (tickBody env) s := by
  refine Safe.bind (fun _ => RelyTicker.refl) ((safe_interp (safe_updatePeerStatus hs)).mono
    (fun _ _ _ _ _ _ h => h) fun log r s₁ h s₂ hR hok hlisted => ?_)
  rcases r with e | u
  · cases hok
  · exact (h rfl (hR.2.1 ▸ hlisted)).rely hR

end Ticker

end Exact

end OpenELB.Bgp
