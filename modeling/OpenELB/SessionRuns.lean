import OpenELB.SessionSteps

/-! # The BGP sessions of a node

Whatever peers gobgp starts with, however the reconciler and the ticker of a speaker interleave
and whatever fails in between, gobgp ends with exactly the peers of the objects that select the
node, once every object has been reconciled and the ticker has come round (`sessions_exact`).
The specifications of the objects have to stay as they are for that: if an object is created
while the ticker is at work, the ticker may delete its peer again (`new_session_lost`). -/
namespace OpenELB.Bgp
open Go Prog Threads

section Exact
variable {env : PeerEnv} {node : Node} {specs : String → Option PeerObject} {s s' : SessionState}
  {n a : String} {o : PeerObject} {p : GoBgpPeer}

/-! ## Both together -/

/-- What holds at all times: the objects that have been reconciled are settled, and once the
ticker has come round there are no other peers. -/
structure Progress (env : PeerEnv) (node : Node) (specs : String → Option PeerObject)
    (s : SessionState) : Prop where
  holds : HoldsSpecs specs s
  settled : ∀ n ∈ s.reconciled, SessionSettled env node specs n s
  swept : s.swept = true → Swept specs s

theorem Progress.decides (hplan : Plan specs) (h : Progress env node specs s)
    (hd : Decides env node specs n s s') :
    Progress env node specs s' ∧ RelyTicker specs s s' := by
  obtain ⟨hfixed, hlisted, htable⟩ := hd
  have hstray : ∀ a, ¬ IsAddress specs a → s'.table.get a = s.table.get a := by
    intro a ha
    rcases htable a with hsame | ⟨o, ho, hat, -⟩
    · exact hsame
    · exact absurd ⟨n, o, ho, hat⟩ ha
  refine ⟨⟨hfixed.holds h.holds, fun m hm o' a ho' hat' => ?_, fun hsw a ha => ?_⟩,
    hfixed.holds, hlisted, hstray⟩
  · rw [hfixed.reconciled] at hm
    rcases htable a with hsame | ⟨o, ho, hat, hself⟩
    · exact hsame.trans (h.settled m hm o' a ho' hat')
    · -- no other object has the address
      obtain rfl := hplan.distinct ho ho' hat hat'
      cases ho.symm.trans ho'
      exact hself
  · rw [hfixed.swept] at hsw
    exact (hstray a ha).trans (h.swept hsw a ha)

theorem Progress.sweeps (h : Progress env node specs s) (hd : Sweeps specs s s') :
    Progress env node specs s' ∧ RelyReconciler specs s s' := by
  obtain ⟨hfixed, htable⟩ := hd
  have hkept : ∀ a, IsAddress specs a → s'.table.get a = s.table.get a :=
    fun a ha => (htable a).resolve_right fun hgone => hgone.1 ha
  refine ⟨⟨hfixed.holds h.holds, fun m hm o a ho hat => ?_, fun hsw a ha => ?_⟩,
    hfixed.holds, hkept⟩
  · rw [hfixed.reconciled] at hm
    exact (hkept a ⟨m, o, ho, hat⟩).trans (h.settled m hm o a ho hat)
  · rw [hfixed.swept] at hsw
    rcases htable a with hsame | ⟨-, hgone⟩
    · exact hsame.trans (h.swept hsw a ha)
    · exact hgone

/-- A step that leaves the peers alone is seen by nobody. -/
theorem relies_of_table (hholds : HoldsSpecs specs s → HoldsSpecs specs s') (hlisted : s'.listed = s.listed)
    (htable : s'.table = s.table) (j : SessionWorker) : relies specs j s s' := by
  cases j with
  | reconciler => exact ⟨hholds, fun _ _ => by rw [htable]⟩
  | ticker => exact ⟨hholds, hlisted, fun _ _ => by rw [htable]⟩

theorem session_relyGuarantee (env : PeerEnv) (node : Node) (hplan : Plan specs) :
    (speaker env node KeepsSpecs).RelyGuarantee (Progress env node specs) (relies specs)
      (fun i op _ _ _ _ => guarantees env node specs i op)
      (fun i op _ => ends env node specs i op) where
  refl i s := relies_of_table id rfl rfl i
  trans i a b c h h' := by
    cases i with
    | reconciler => exact RelyReconciler.trans h h'
    | ticker => exact RelyTicker.trans h h'
  start i op s s' h hst := by
    obtain ⟨rfl, hop⟩ := hst
    refine ⟨h, ?_, fun j _ => relies_of_table id rfl rfl j⟩
    cases op with
    | reconcile n =>
      cases i with
      | reconciler =>
        exact (safe_reconcilePeer hplan h.holds).mono (fun _ _ _ _ _ _ hd => ⟨rfl, hd⟩)
          fun _ _ _ hq => ⟨rfl, hq⟩
      | ticker => cases hop.mpr rfl
    | tick =>
      obtain rfl := hop.mp rfl
      exact (safe_tickBody h.holds).mono (fun _ _ _ _ _ _ hd => ⟨rfl, hd⟩)
        fun _ _ _ hq => ⟨rfl, hq⟩
  call i op log c r q s s' h hg := by
    cases op with
    | reconcile n =>
      obtain ⟨rfl, hd⟩ := hg
      obtain ⟨h', hR⟩ := h.decides hplan hd
      refine ⟨h', fun j hj => ?_⟩
      cases j with
      | reconciler => exact absurd rfl hj
      | ticker => exact hR
    | tick =>
      obtain ⟨rfl, hd⟩ := hg
      obtain ⟨h', hR⟩ := h.sweeps hd
      refine ⟨h', fun j hj => ?_⟩
      cases j with
      | reconciler => exact hR
      | ticker => exact absurd rfl hj
  done i op log r s s' h hq hd := by
    obtain rfl := hd
    rcases op with n | -
    · obtain ⟨rfl, hq⟩ := hq
      rcases r with e | u
      · exact ⟨h, fun j _ => relies_of_table id rfl rfl j⟩
      · refine ⟨⟨h.holds, List.forall_mem_cons.mpr ⟨hq rfl, h.settled⟩, h.swept⟩, fun j _ => ?_⟩
        apply relies_of_table
        exacts [id, rfl, rfl]
    · obtain ⟨rfl, hq⟩ := hq
      rcases r with e | u
      · exact ⟨h, fun j _ => relies_of_table id rfl rfl j⟩
      · refine ⟨⟨h.holds, h.settled, fun hsw => ?_⟩, fun j _ => ?_⟩
        · rcases Bool.or_eq_true_iff.mp hsw with hold | hlisted
          · exact h.swept hold
          · exact hq rfl hlisted
        · apply relies_of_table
          exacts [id, rfl, rfl]
  env _ s s' h he := by
    obtain ⟨objects, rfl, hsame⟩ := he
    have hholds : HoldsSpecs specs s → HoldsSpecs specs { s with objects := objects } :=
      fun hs n => (hsame n).trans (hs n)
    exact ⟨⟨hholds h.holds, h.settled, h.swept⟩, fun j => relies_of_table hholds rfl rfl j⟩

/-- The speaker starts, with any peers in its gobgp. -/
def Starts (specs : String → Option PeerObject) (s : SessionState) : Prop :=
  HoldsSpecs specs s ∧ s.reconciled = [] ∧ s.swept = false

/-- **The sessions of a node are exact.**  The specifications of the objects stay as they are,
and each object has an address of its own.  From any peers in gobgp, however the reconciler and the
ticker interleave and whatever fails: once every object has been reconciled without an error and the
ticker has come round, gobgp has a peer for exactly the objects that select the node, with
what the object says, and it stays so. -/
theorem sessions_exact (hplan : Plan specs)
    {c : Conf SessionWorker SessionOp SessionCall SessionReply (Except Failure Unit) SessionState}
    (hc : (speaker env node KeepsSpecs).Reach (Starts specs) c)
    (hall : ∀ n o, c.state.objects.get n = some o → n ∈ c.state.reconciled)
    (hswept : c.state.swept = true) (a : String) (p : GoBgpPeer) :
    c.state.table.get a = some p ↔ ∃ n o, c.state.objects.get n = some o ∧ o.At a ∧
      Selects env node o.peer ∧ peerRequest env o = .ok p := by
  have hinit : ∀ s, Starts specs s → Progress env node specs s := by
    rintro s ⟨hs, hr, hw⟩
    refine ⟨hs, fun n hn => ?_, fun h => ?_⟩
    · rw [hr] at hn
      exact absurd hn List.not_mem_nil
    · rw [hw] at h
      cases h
  obtain ⟨hprog, -⟩ := (session_relyGuarantee env node hplan).safe hinit hc
  have hspec : ∀ {n o}, c.state.objects.get n = some o → specs n = some o.spec := by
    intro n o hget
    rw [← hprog.holds n, hget, Option.map_some]
  have hwant : ∀ {o : PeerObject}, wanted env node o = some p ↔
      Selects env node o.peer ∧ peerRequest env o = .ok p := by
    intro o
    rw [wanted]
    split
    · rename_i hsel
      rcases peerRequest env o with e | q <;> simp [Except.toOption, hsel]
    · rename_i hsel
      simp [hsel]
  constructor
  · intro hget
    by_cases haddr : IsAddress specs a
    · obtain ⟨n, sp, hsp, hat⟩ := haddr
      rw [← hprog.holds n] at hsp
      obtain ⟨o, ho, rfl⟩ := Option.map_eq_some_iff.mp hsp
      have hself := hprog.settled n (hall n o ho) o.spec a (hspec ho) hat
      rw [hget, wanted_spec] at hself
      exact ⟨n, o, ho, hat, hwant.mp hself.symm⟩
    · rw [hprog.swept hswept a haddr] at hget
      cases hget
  · rintro ⟨n, o, ho, hat, hsel⟩
    rw [hprog.settled n (hall n o ho) o.spec a (hspec ho) hat, wanted_spec]
    exact hwant.mpr hsel

/-! ## Runs -/

/-- Answers of an API server and of a gobgp with which nothing goes wrong, for the calls of the
reconciler. -/
def sessionAnswer (node : Node) :
    (c : SessionCall) → SessionState → Option (SessionReply c × SessionState)
  | .getBgpPeer name, s => (s.objects.get name).map fun o => (.ok o, s)
  | .getNode _, s => some (.ok node, s)
  | .updatePeer p, s => p.conf.map fun conf =>
    if (s.table.get conf.neighborAddress).isSome then
      (.ok (), { s with table := s.table.set conf.neighborAddress p })
    else (.error (.text ""), s)
  | .addPeer p, s => p.conf.map fun conf =>
    if (s.table.get conf.neighborAddress).isSome then (.error (.text ""), s)
    else (.ok (), { s with table := s.table.set conf.neighborAddress p })
  | _, _ => none

theorem sessionExec_of_answer (x : SessionCall) (s : SessionState) (r : SessionReply x)
    (s' : SessionState) (h : sessionAnswer node x s = some (r, s')) : sessionExec node x s r s' := by
  cases x with
  | getBgpPeer name =>
    obtain ⟨o, ho, he⟩ := Option.map_eq_some_iff.mp h
    cases he
    exact ⟨⟨o, ho, rfl⟩, rfl⟩
  | getNode name =>
    cases h
    exact ⟨fun n hn => (Except.ok.inj hn).symm, rfl⟩
  | updatePeer p =>
    obtain ⟨conf, hconf, he⟩ := Option.map_eq_some_iff.mp h
    split at he
    · rename_i hthere
      cases he
      exact .inr ⟨conf, hconf, hthere, rfl, rfl⟩
    · cases he
      exact .inl ⟨⟨_, rfl⟩, rfl⟩
  | addPeer p =>
    obtain ⟨conf, hconf, he⟩ := Option.map_eq_some_iff.mp h
    split at he
    · cases he
      exact .inl ⟨⟨_, rfl⟩, rfl⟩
    · rename_i hthere
      cases he
      exact .inr ⟨conf, hconf, Option.not_isSome_iff_eq_none.mp hthere, rfl, rfl⟩
  | updateBgpPeer _ | initBGPPeerMetrics _ _ | peer _ => cases h

/-- An object for all nodes, which has its finalizer and no status yet. -/
structure Ready (env : PeerEnv) (o : PeerObject) (p : GoBgpPeer) (a : String) : Prop where
  everywhere : o.peer.nodeSelector = none
  stays : o.deletionTimestamp = false
  finalizer : o.finalizers.contains finalizerName = true
  fresh : o.peer.nodesPeerStatus = Map.nil
  address : o.At a
  request : peerRequest env o = .ok p

theorem Ready.reconcileFound_eq (h : Ready env o p a) :
    (reconcileFound env o).run = (establish p).run := by
  have hmatch : matchNode env o.peer = must (.ok true) := by
    rw [matchNode, h.everywhere]
    rfl
  have hfinal : addPeerFinalizer env o = must (.ok o) := by
    rw [addPeerFinalizer, needToAddFinalizer, h.finalizer, Bool.not_true, Bool.and_false,
      if_neg Bool.false_ne_true]
    rfl
  have hmetrics : setPeerMetrics env.nodeName o.peer false = must (.ok ()) := by
    rw [setPeerMetrics, peerMetrics, h.fresh]
    rfl
  rw [reconcileFound, hmatch, must_ok_bind, isDeletionCandidate, h.stays, Bool.false_and,
    if_neg Bool.false_ne_true, hfinal, must_ok_bind, handleBgpPeer, h.request, must_ok_bind,
    Bool.not_true, hmetrics, must_ok_bind, if_neg Bool.false_ne_true]

/-- The reconciler adds the peer of an object, between two steps of the others. -/
theorem Ready.reach {E : SessionState → SessionState → Prop} {init : SessionState → Prop}
    {c : Conf SessionWorker SessionOp SessionCall SessionReply (Except Failure Unit) SessionState}
    (h : Ready env o p a) (hc : (speaker env node E).Reach init c)
    (hidle : c.task .reconciler = none) (hget : c.state.objects.get n = some o)
    (hfree : c.state.table.get a = none) :
    (speaker env node E).Reach init ⟨{ c.state with
      table := c.state.table.set a p, reconciled := n :: c.state.reconciled }, c.task⟩ := by
  obtain ⟨conf, hconf, rfl⟩ := h.address
  have hp : p.conf = some conf := (conf_of_peerRequest h.request).trans hconf
  have hrun : (reconcilePeer env n).run.eval (sessionAnswer node) c.state =
      some (.ok (), { c.state with table := c.state.table.set conf.neighborAddress p }) := by
    have hread : sessionAnswer node (.getBgpPeer n) c.state = some (.ok o, c.state) := by
      rw [sessionAnswer, hget, Option.map_some]
    have hupdate : sessionAnswer node (.updatePeer p) c.state =
        some (.error (.text ""), c.state) := by
      rw [sessionAnswer, hp, Option.map_some, hfree]
      rfl
    have hadd : sessionAnswer node (.addPeer p) c.state =
        some (.ok (), { c.state with table := c.state.table.set conf.neighborAddress p }) := by
      rw [sessionAnswer, hp, Option.map_some, hfree]
      rfl
    rw [reconcilePeer, ask_bind, Prog.eval, hread]
    dsimp only
    rw [h.reconcileFound_eq, establish, ask_bind, Prog.eval, hupdate]
    dsimp only
    rw [ask_bind, Prog.eval, hadd]
    rfl
  have hst : (speaker env node E).start .reconciler (.reconcile n) c.state c.state :=
    ⟨rfl, by simp⟩
  exact hc.perform sessionExec_of_answer hidle hst hrun rfl

/-- What gobgp says of a peer. -/
def reportOf (a : String) : ApiPeer := ⟨a, "", .ok { peerState := { neighborAddress := a } }⟩

theorem reports_single (h : s.table = Map.empty.set a p) : peerExec .listPeer s [reportOf a] s := by
  refine ⟨⟨fun b => ?_, fun g hg => ?_⟩, rfl⟩
  · rw [h, Map.get_set, Map.get_empty]
    by_cases hb : b = a
    · simp [hb, reportOf]
    · simp [hb, reportOf, Ne.symm hb]
  · rw [List.mem_singleton.mp hg]
    exact ⟨_, rfl, rfl⟩

/-- Objects are created. -/
def Creates (s s' : SessionState) : Prop :=
  ∃ o : PeerObject, s.objects.get o.peer.name = none ∧
    s' = { s with objects := s.objects.set o.peer.name o }

/-- **A new session may be lost.**  The ticker reads the list of the objects, an object is
created, the reconciler adds its peer and returns no error, and then the ticker asks gobgp for its
peers and deletes the one that is not in its list.  When both are done the object is there, was
reconciled last, and its peer is missing, though no call has failed that would be tried again. -/
theorem new_session_lost (h : Ready env o p a) :
    ∃ c, (speaker env node Creates).Reach
        (fun s => s.objects = Map.empty ∧ s.table = Map.empty ∧ s.reconciled = []) c ∧
      (∀ i, c.task i = none) ∧ c.state.objects.get o.peer.name = some o ∧
      c.state.reconciled = [o.peer.name] ∧ c.state.swept = true ∧ c.state.table.get a = none := by
  let s₀ : SessionState := ⟨Map.empty, Map.empty, false, [], false⟩
  let s₁ : SessionState := { s₀ with listed := true }
  let s₂ : SessionState := { s₁ with objects := Map.empty.set o.peer.name o }
  let s₃ : SessionState := { s₂ with table := Map.empty.set a p, reconciled := [o.peer.name] }
  let s₄ : SessionState := { s₃ with table := (Map.empty.set a p).delete a }
  let noObjects : SessionReply (.peer .listBgpPeers) := .ok []
  let onePeer : SessionReply (.peer .listPeer) := [reportOf a]
  have hlist : peerExec .listBgpPeers s₀ (.ok []) s₁ := by
    refine ⟨fun b => ⟨?_, ?_⟩, rfl⟩
    · rintro ⟨peer, hpeer, -⟩
      exact absurd hpeer List.not_mem_nil
    · rintro ⟨m, o', ho', -⟩
      rw [Map.get_empty] at ho'
      cases ho'
  have hreport := reports_single (s := s₃) (a := a) (p := p) rfl
  have h₀ : (speaker env node Creates).Reach
      (fun s => s.objects = Map.empty ∧ s.table = Map.empty ∧ s.reconciled = [])
      ⟨s₀, fun _ => none⟩ := .init ⟨rfl, rfl, rfl⟩
  have h₁ := h₀.step (.start .ticker .tick s₀ rfl ⟨rfl, by simp⟩)
  have h₂ := h₁.step (.call .ticker .tick _ (SessionCall.peer .listBgpPeers) _ noObjects s₁ rfl
    hlist)
  have h₃ := h₂.step (.env s₂ ⟨o, Map.get_empty _, rfl⟩)
  have h₄ := h.reach h₃ rfl (Map.get_set_self ..) (Map.get_empty _)
  have h₅ := h₄.step (.call .ticker .tick _ (SessionCall.peer .listPeer) _ onePeer s₃ rfl hreport)
  have h₆ := h₅.step (.call .ticker .tick _ (SessionCall.peer (.deletePeer a "")) _ (.ok ()) s₄ rfl
    rfl)
  have hdone : (speaker env node Creates).done .ticker .tick (.ok ()) s₄ { s₄ with swept := true } :=
    rfl
  have h₇ := h₆.step (.done .ticker .tick _ _ _ rfl hdone)
  have hlost : s₄.table.get a = none := Map.get_delete_self (Map.empty.set a p) a
  refine ⟨_, h₇, fun i => ?_, Map.get_set_self .., rfl, rfl, hlost⟩
  cases i with
  | reconciler => rfl
  | ticker => rfl

/-- An object that gives its families, so that no default is needed. -/
def plainPeer (name address : String) : PeerObject where
  peer := { name := name, conf := some { neighborAddress := address } }
  afiSafis := [{ config := some { family := none, enabled := true } }]
  finalizers := [finalizerName]

theorem ready_plainPeer (name address : String) :
    Ready { nodeName := "node1" } (plainPeer name address)
      ⟨some { neighborAddress := address }, "", (plainPeer name address).afiSafis, ""⟩ address :=
  ⟨rfl, rfl, by simp [plainPeer], rfl, ⟨_, rfl, rfl⟩, rfl⟩

/-- The peer of an object that was created in between. -/
theorem new_session_lost_between : ∃ c,
    (speaker { nodeName := "node1" } { name := "node1" } Creates).Reach
        (fun s => s.objects = Map.empty ∧ s.table = Map.empty ∧ s.reconciled = []) c ∧
      c.state.objects.get "peer1" = some (plainPeer "peer1" "10.0.0.9") ∧
      c.state.table.get "10.0.0.9" = none := by
  obtain ⟨c, hc, -, hget, -, -, hlost⟩ := new_session_lost (ready_plainPeer "peer1" "10.0.0.9")
  exact ⟨c, hc, hget, hlost⟩

/-- A peer is in gobgp whose object is gone.  Another object is reconciled, and the ticker comes
round: its peer is there, and the other one is not. -/
theorem sessions_exact_stale : ∃ (specs : String → Option PeerObject)
      (c : Conf SessionWorker SessionOp SessionCall SessionReply (Except Failure Unit) SessionState)
      (p : GoBgpPeer), Plan specs ∧
    (speaker { nodeName := "node1" } { name := "node1" } KeepsSpecs).Reach (Starts specs) c ∧
    c.state.reconciled = ["peer1"] ∧ c.state.swept = true ∧
    c.state.table.get "10.0.0.9" = some p ∧ c.state.table.get "10.0.0.8" = none := by
  let o := plainPeer "peer1" "10.0.0.9"
  let old : GoBgpPeer := ⟨some { neighborAddress := "10.0.0.8" }, "", [], ""⟩
  let specs : String → Option PeerObject := fun n => if n = "peer1" then some o.spec else none
  let s₀ : SessionState := ⟨Map.empty.set "peer1" o, Map.empty.set "10.0.0.8" old, false, [], false⟩
  have hspecs : ∀ {n o'}, specs n = some o' → n = "peer1" ∧ o' = o.spec := by
    intro n o' h
    obtain ⟨hn, he⟩ := Option.ite_none_right_eq_some.mp h
    exact ⟨hn, (Option.some.inj he).symm⟩
  have hplan : Plan specs := by
    refine ⟨fun h => ?_, fun h => ?_, fun h h' _ _ => ?_⟩
    · obtain ⟨rfl, rfl⟩ := hspecs h
      rfl
    · obtain ⟨rfl, rfl⟩ := hspecs h
      rfl
    · rw [(hspecs h).1, (hspecs h').1]
  have hget : ∀ n, s₀.objects.get n = if n = "peer1" then some o else none := fun n => by
    rw [Map.get_set, Map.get_empty]
  have honly : ∀ {n o'}, s₀.objects.get n = some o' → n = "peer1" ∧ o' = o := by
    intro n o' ho'
    rw [hget] at ho'
    obtain ⟨hn, he⟩ := Option.ite_none_right_eq_some.mp ho'
    exact ⟨hn, (Option.some.inj he).symm⟩
  have h₀ : (speaker { nodeName := "node1" } { name := "node1" } KeepsSpecs).Reach (Starts specs)
      ⟨s₀, fun _ => none⟩ := by
    refine .init ⟨fun n => ?_, rfl, rfl⟩
    rw [hget]
    by_cases hn : n = "peer1" <;> simp [specs, hn]
  let s₁ : SessionState := { s₀ with listed := true }
  let s₂ : SessionState := { s₁ with table := s₀.table.delete "10.0.0.8" }
  let oneObject : SessionReply (.peer .listBgpPeers) := .ok [o.peer]
  let onePeer : SessionReply (.peer .listPeer) := [reportOf "10.0.0.8"]
  have hlist : peerExec .listBgpPeers s₀ (.ok [o.peer]) s₁ := by
    refine ⟨fun b => ⟨?_, ?_⟩, rfl⟩
    · rintro ⟨peer, hpeer, rfl⟩
      rw [List.mem_singleton.mp hpeer]
      exact ⟨"peer1", o, (hget _).trans (if_pos rfl), rfl⟩
    · rintro ⟨n, o', ho', rfl⟩
      obtain ⟨-, rfl⟩ := honly ho'
      exact ⟨o.peer, List.mem_singleton_self _, rfl⟩
  have hreport := reports_single (s := s₁) (a := "10.0.0.8") (p := old) rfl
  have h₁ := h₀.step (.start .ticker .tick s₀ rfl ⟨rfl, by simp⟩)
  have h₂ := h₁.step (.call .ticker .tick _ (SessionCall.peer .listBgpPeers) _ oneObject s₁ rfl hlist)
  have h₃ := h₂.step (.call .ticker .tick _ (SessionCall.peer .listPeer) _ onePeer s₁ rfl hreport)
  have h₄ := h₃.step (.call .ticker .tick _ (SessionCall.peer (.deletePeer "10.0.0.8" "")) _ (.ok ())
    s₂ rfl rfl)
  have hdone : (speaker { nodeName := "node1" } { name := "node1" } KeepsSpecs).done .ticker .tick
    (.ok ()) s₂ { s₂ with swept := true } := rfl
  have h₅ := h₄.step (.done .ticker .tick _ _ _ rfl hdone)
  have hfree : s₂.table.get "10.0.0.9" = none := by
    rw [Map.get_delete, if_neg (by decide), Map.get_set_ne _ _ (by decide), Map.get_empty]
  have hready := ready_plainPeer "peer1" "10.0.0.9"
  have h₆ := hready.reach h₅ rfl ((hget "peer1").trans (if_pos rfl)) hfree
  have hexact := sessions_exact hplan h₆
    (fun n o' ho' => List.mem_singleton.mpr (honly ho').1) rfl
  refine ⟨specs, _, _, hplan, h₆, rfl, rfl, (hexact "10.0.0.9" _).mpr
    ⟨"peer1", o, (hget _).trans (if_pos rfl), ⟨_, rfl, rfl⟩, rfl, hready.request⟩, ?_⟩
  rw [Option.eq_none_iff_forall_ne_some]
  intro q hq
  obtain ⟨n, o', ho', ⟨conf, hconf, hat⟩, -⟩ := (hexact "10.0.0.8" q).mp hq
  obtain ⟨-, rfl⟩ := honly ho'
  cases hconf
  exact absurd hat (by decide)

end Exact

end OpenELB.Bgp
