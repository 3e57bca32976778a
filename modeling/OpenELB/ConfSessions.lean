import OpenELB.SessionSteps
import OpenELB.ProgSteps

/-! # Sessions and the BGP configuration

Every reconcile of the object `BgpConf` stops gobgp, which drops all its peers, and starts it
anew; at its end `reconfigPeers` sets up the peers of the node again.  In between are the
policy file and a write of the object, and the first of them that fails ends the reconcile.

So the sessions that a reconcile leaves are those it has set up again, and only one that returns
no error has come to all of them; a policy that gobgp does not accept leaves the node without
any session, and the next attempt begins with stopping gobgp again (`conf_reconcile_sessions`). -/
namespace OpenELB.Bgp
open Go Prog

/-! ## What the calls do -/

/-- What a caller of `HandleBgpPeer` gets to see; a panic ends the process. -/
def Seen : Except Failure Unit → Except Err Unit → Prop
  | .ok _, r => r = .ok ()
  | .error (.err e), r => r = .error e
  | .error .panic, _ => False

/-- What the calls of the reconciler do to the peers of gobgp.  Stopping BGP drops them, unless
it fails.  `HandleBgpPeer` does what its code does, for any object that the part of it in
the call is of. -/
def restartExec (env : PeerEnv) (node : Node) :
    (c : ConfCall) → SessionState → ConfReply c → SessionState → Prop
  | .bgp .stopBgp, s, r, s' =>
    r = .ok () ∧ s' = { s with table := Map.empty } ∨ (∃ e, r = .error e) ∧ s' = s
  | .handleBgpPeer peer, s, r, s' => ∃ (o : PeerObject) (l : List (Event SessionCall SessionReply))
      (r' : Except Failure Unit), o.peer = peer ∧
        Run (sessionExec node) s (handleBgpPeer env o false).run l r' s' ∧ Seen r' r
  | _, s, _, s' => s' = s

section Handle
variable {env : PeerEnv} {node : Node} {s s' : SessionState} {o : PeerObject} {p : GoBgpPeer}

theorem wp_setPeerMetrics {peer : BgpPeer} {delete : Bool} :
    Wp (sessionExec node) (fun _ s' => s' = s) (setPeerMetrics env.nodeName peer delete).run s := by
  rw [setPeerMetrics]
  rcases hm : peerMetrics env.nodeName peer delete with e | (- | c)
  · rfl
  · rfl
  · exact fun r s' he => peerExec_metrics hm he

theorem wp_establish : Wp (sessionExec node)
    (either (fun _ s' => ∃ conf, p.conf = some conf ∧
      s' = { s with table := s.table.set conf.neighborAddress p }) fun _ s' => s' = s)
    (establish p).run s := by
  intro r₁ s₁ he₁
  rcases he₁ with ⟨⟨e₁, rfl⟩, rfl⟩ | ⟨conf, hconf, -, rfl, rfl⟩
  · intro r₂ s₂ he₂
    rcases he₂ with ⟨⟨e₂, rfl⟩, rfl⟩ | ⟨conf, hconf, -, rfl, rfl⟩
    · rfl
    · exact ⟨conf, hconf, rfl⟩
  · exact ⟨conf, hconf, rfl⟩

/-- `HandleBgpPeer` sets up the peer, or fails and changes nothing. -/
theorem wp_handleBgpPeer : Wp (sessionExec node)
    (either (fun _ s' => ∃ conf p, o.peer.conf = some conf ∧
      s' = { s with table := s.table.set conf.neighborAddress p }) fun _ s' => s' = s)
    (handleBgpPeer env o false).run s := by
  rw [handleBgpPeer]
  rcases hp : peerRequest env o with e | p
  · rfl
  rw [must_ok_bind, wp_except_bind]
  refine wp_setPeerMetrics.mono fun r s₁ hs₁ => ?_
  rw [hs₁]
  rcases r with e | u
  · rfl
  · refine wp_establish.mono fun r s₂ h => ?_
    rcases r with e | u
    · exact h
    · obtain ⟨conf, hconf, hs₂⟩ := h
      exact ⟨conf, p, (conf_of_peerRequest hp).symm.trans hconf, hs₂⟩

theorem restartExec_handleBgpPeer {peer : BgpPeer} {r : Except Err Unit}
    (h : restartExec env node (.handleBgpPeer peer) s r s') :
    (r = .ok () ∧ ∃ conf p, peer.conf = some conf ∧
        s' = { s with table := s.table.set conf.neighborAddress p }) ∨
      (∃ e, r = .error e) ∧ s' = s := by
  obtain ⟨o, l, r', rfl, hrun, hseen⟩ := h
  have hdone := wp_handleBgpPeer.of_run hrun
  rcases r' with (- | e) | u
  · exact hseen.elim
  · exact .inr ⟨⟨e, hseen⟩, hdone⟩
  · exact .inl ⟨hseen, hdone⟩

end Handle

/-! ## The calls so far -/

/-- The state, and the calls so far. -/
abbrev Restart := SessionState × List (Event ConfCall ConfReply)

/-- gobgp was stopped. -/
def StoppedIn (l : List (Event ConfCall ConfReply)) : Prop :=
  (⟨.bgp .stopBgp, .ok ()⟩ : Event ConfCall ConfReply) ∈ l

/-- gobgp was started. -/
def StartedIn (l : List (Event ConfCall ConfReply)) : Prop :=
  ∃ as routerId, (⟨.bgp (.startBgp as routerId), .ok ()⟩ : Event ConfCall ConfReply) ∈ l

/-- The peer was set up. -/
def HandledIn (l : List (Event ConfCall ConfReply)) (peer : BgpPeer) : Prop :=
  (⟨.handleBgpPeer peer, .ok ()⟩ : Event ConfCall ConfReply) ∈ l

/-- gobgp did not accept the configuration, or the policy. -/
def RefusedIn (l : List (Event ConfCall ConfReply)) (e : Err) : Prop :=
  (∃ as routerId, (⟨.bgp (.startBgp as routerId), .error e⟩ : Event ConfCall ConfReply) ∈ l) ∨
    ∃ policyConf, (⟨.setPolicies policyConf, .error e⟩ : Event ConfCall ConfReply) ∈ l

/-- The address of the neighbour. -/
def BgpPeer.At (peer : BgpPeer) (a : String) : Prop :=
  ∃ conf, peer.conf = some conf ∧ conf.neighborAddress = a

/-- The peers of gobgp are those that were set up, and those from before if it was not
stopped. -/
def SessionsOf (s₀ : SessionState) (x : Restart) : Prop :=
  ∀ a, (x.1.table.get a).isSome ↔
    (∃ peer, HandledIn x.2 peer ∧ peer.At a) ∨ (s₀.table.get a).isSome ∧ ¬ StoppedIn x.2

/-- Calls other than those that give gobgp something to accept. -/
def ConfCall.early : ConfCall → Prop
  | .bgp (.startBgp _ _) | .setPolicies _ | .handleBgpPeer _ => False
  | _ => True

section Calls
variable {env : PeerEnv} {node : Node} {s₀ : SessionState} {x x' : Restart}
  {l : List (Event ConfCall ConfReply)} {c : ConfCall} {r : ConfReply c} {peer : BgpPeer} {e : Err}

theorem SessionsOf.of_same (h : SessionsOf s₀ x) (htable : x'.1.table = x.1.table)
    (hhandled : ∀ peer, HandledIn x'.2 peer ↔ HandledIn x.2 peer)
    (hstopped : StoppedIn x'.2 ↔ StoppedIn x.2) : SessionsOf s₀ x' := by
  intro a
  rw [htable, hstopped]
  simp only [hhandled]
  exact h a

/-- No peer was set up yet, and gobgp accepted what it was given. -/
structure Begun (s₀ : SessionState) (x : Restart) : Prop where
  tracks : SessionsOf s₀ x
  unhandled : ∀ peer, ¬ HandledIn x.2 peer
  accepted : ∀ e, ¬ RefusedIn x.2 e

theorem HandledIn.early (hc : c.early) : HandledIn (l ++ [⟨c, r⟩]) peer ↔ HandledIn l peer := by
  refine mem_logged_of_ne ?_
  rintro rfl
  exact hc

theorem RefusedIn.early (hc : c.early) : RefusedIn (l ++ [⟨c, r⟩]) e ↔ RefusedIn l e := by
  refine or_congr ?_ ?_
  · refine exists_congr fun as => exists_congr fun routerId => mem_logged_of_ne ?_
    rintro rfl
    exact hc
  · refine exists_congr fun policyConf => mem_logged_of_ne ?_
    rintro rfl
    exact hc

theorem StartedIn.early (hc : c.early) : StartedIn (l ++ [⟨c, r⟩]) ↔ StartedIn l := by
  refine exists_congr fun as => exists_congr fun routerId => mem_logged_of_ne ?_
  rintro rfl
  exact hc

theorem restartExec_of_ne {s s' : SessionState} (hstop : c ≠ .bgp .stopBgp)
    (hpeer : ∀ peer, c ≠ .handleBgpPeer peer) (h : restartExec env node c s r s') : s' = s := by
  cases c with
  | bgp c =>
    cases c with
    | stopBgp => exact absurd rfl hstop
    | _ => exact h
  | handleBgpPeer peer => exact absurd rfl (hpeer peer)
  | _ => exact h

/-- A call that neither stops gobgp nor sets up a peer. -/
theorem SessionsOf.of_ne (h : SessionsOf s₀ x) (hstop : c ≠ .bgp .stopBgp)
    (hpeer : ∀ peer, c ≠ .handleBgpPeer peer)
    (he : logged (restartExec env node) c x r x') : SessionsOf s₀ x' := by
  refine h.of_same (by rw [restartExec_of_ne hstop hpeer he.1]) (fun peer => ?_) ?_
  · rw [he.2]
    exact mem_logged_of_ne fun hcall => hpeer peer hcall.symm
  · rw [he.2]
    exact mem_logged_of_ne fun hcall => hstop hcall.symm

theorem Begun.early (h : Begun s₀ x) (hc : c.early)
    (he : logged (restartExec env node) c x r x') : Begun s₀ x' := by
  have hunhandled : ∀ peer, ¬ HandledIn x'.2 peer := by
    intro peer hpeer
    rw [he.2] at hpeer
    exact h.unhandled peer ((HandledIn.early hc).mp hpeer)
  refine ⟨?_, hunhandled, fun e hrefused => ?_⟩
  · by_cases hstop : c = .bgp .stopBgp
    · subst hstop
      rcases he.1 with ⟨rfl, htable⟩ | ⟨⟨e, rfl⟩, hsame⟩
      · -- nothing is left, and nothing was set up
        have hstopped : StoppedIn x'.2 := by
          rw [he.2]
          exact List.mem_append_right _ List.mem_cons_self
        intro a
        rw [htable, Map.get_empty]
        constructor
        · rintro ⟨⟩
        · rintro (⟨peer, hpeer, -⟩ | ⟨-, hnot⟩)
          · exact absurd hpeer (hunhandled peer)
          · exact absurd hstopped hnot
      · refine h.tracks.of_same (by rw [hsame]) (fun peer => ?_) ?_
        · exact iff_of_false (hunhandled peer) (h.unhandled peer)
        · rw [he.2, StoppedIn, List.mem_append, List.mem_singleton]
          refine or_iff_left fun heq => ?_
          cases heq
    · refine h.tracks.of_ne hstop ?_ he
      rintro peer rfl
      exact hc
  · rw [he.2] at hrefused
    exact h.accepted e ((RefusedIn.early hc).mp hrefused)

/-- A failed attempt that has not come to the peers. -/
structure Aborted (s₀ : SessionState) (e : Err) (x : Restart) : Prop where
  tracks : SessionsOf s₀ x
  unhandled : ∀ peer, ¬ HandledIn x.2 peer
  refused : ∀ e', RefusedIn x.2 e' → e' = e

theorem Begun.aborted (h : Begun s₀ x) (e : Err) : Aborted s₀ e x :=
  ⟨h.tracks, h.unhandled, fun e' hrefused => absurd hrefused (h.accepted e')⟩

/-- What gobgp is given, it accepts, or the attempt fails with its error. -/
theorem Begun.offer {a : Except Err Unit} (h : Begun s₀ x) (hstop : c ≠ .bgp .stopBgp)
    (hpeer : ∀ peer, c ≠ .handleBgpPeer peer) (he : logged (restartExec env node) c x r x')
    (hrefused : ∀ e, RefusedIn x'.2 e → RefusedIn x.2 e ∨ a = .error e) :
    either (fun _ => Begun s₀) (Aborted s₀) a x' := by
  have hunhandled : ∀ peer, ¬ HandledIn x'.2 peer := by
    intro peer hmem
    rw [he.2] at hmem
    exact h.unhandled peer ((mem_logged_of_ne fun hcall => hpeer peer hcall.symm).mp hmem)
  have hans : ∀ e, RefusedIn x'.2 e → a = .error e := fun e hr =>
    (hrefused e hr).resolve_left (h.accepted e)
  rcases a with e | u
  · exact ⟨h.tracks.of_ne hstop hpeer he, hunhandled, fun e' hr => by cases hans e' hr; rfl⟩
  · exact ⟨h.tracks.of_ne hstop hpeer he, hunhandled, fun e' hr => by cases hans e' hr⟩

theorem refusedIn_startBgp {as : Nat} {routerId : String} {a : Except Err Unit}
    (h : RefusedIn (l ++ [⟨.bgp (.startBgp as routerId), a⟩]) e) :
    RefusedIn l e ∨ a = .error e := by
  rcases h with ⟨as', routerId', hmem⟩ | ⟨policyConf, hmem⟩
  · rcases List.mem_append.mp hmem with hmem | hmem
    · exact .inl (.inl ⟨as', routerId', hmem⟩)
    · cases List.mem_singleton.mp hmem
      exact .inr rfl
  · exact .inl (.inr ⟨policyConf, (mem_logged_of_ne (by rintro ⟨⟩)).mp hmem⟩)

theorem refusedIn_setPolicies {policyConf : String} {a : Except Err Unit}
    (h : RefusedIn (l ++ [⟨.setPolicies policyConf, a⟩]) e) : RefusedIn l e ∨ a = .error e := by
  rcases h with ⟨as, routerId, hmem⟩ | ⟨policyConf', hmem⟩
  · exact .inl (.inl ⟨as, routerId, (mem_logged_of_ne (by rintro ⟨⟩)).mp hmem⟩)
  · rcases List.mem_append.mp hmem with hmem | hmem
    · exact .inl (.inr ⟨policyConf', hmem⟩)
    · cases List.mem_singleton.mp hmem
      exact .inr rfl

end Calls

/-! ## The parts of a reconcile -/

section Parts
variable {env : PeerEnv} {node : Node} {s₀ : SessionState} {x : Restart} {α : Type}

theorem wp_early {p : ConfCode α} (hp : p.run.All ConfCall.early) (h : Begun s₀ x) :
    Wp (logged (restartExec env node)) (either (fun _ => Begun s₀) (Aborted s₀)) p.run x := by
  have hall : Wp (logged (restartExec env node)) (fun _ x' => Begun s₀ x') p.run x :=
    Wp.of_all hp (fun _ _ _ _ hc he hx => hx.early hc he) h
  refine hall.mono fun r x' hx' => ?_
  rcases r with e | a
  · exact hx'.aborted e
  · exact hx'

theorem wp_updatePolicy {cm : Option ConfigMap} (h : Begun s₀ x) :
    Wp (logged (restartExec env node)) (either (fun _ => Begun s₀) (Aborted s₀))
      (updatePolicy cm).run x := by
  rcases cm with - | cm
  · exact h
  rw [updatePolicy]
  split
  · exact h
  · intro a x' he
    refine h.offer (by rintro ⟨⟩) (by rintro _ ⟨⟩) he fun e hr => ?_
    rw [he.2] at hr
    exact refusedIn_setPolicies hr

theorem wp_handleBgpGlobalConfig {global : BgpConf} {rack : String} {cm : Option ConfigMap}
    (h : Begun s₀ x) :
    Wp (logged (restartExec env node)) (either (fun _ => Begun s₀) (Aborted s₀))
      (handleBgpGlobalConfig global rack false cm).run x := by
  intro _ x₁ he₁ _ x₂ he₂ a x₃ he₃
  have h₁ : Begun s₀ x₁ := h.early (c := .bgp (.setRack rack)) trivial he₁
  have h₂ : Begun s₀ x₂ := h₁.early (c := .bgp .stopBgp) trivial he₂
  have hstarted : either (fun _ => Begun s₀) (Aborted s₀) a x₃ := by
    refine h₂.offer (by rintro ⟨⟩) (by rintro _ ⟨⟩) he₃ fun e hr => ?_
    rw [he₃.2] at hr
    exact refusedIn_startBgp hr
  rcases a with e | u
  · exact hstarted
  · exact wp_updatePolicy hstarted

/-- Peers are being set up. -/
structure Restoring (s₀ : SessionState) (x : Restart) : Prop where
  tracks : SessionsOf s₀ x
  accepted : ∀ e, ¬ RefusedIn x.2 e

theorem Begun.restoring (h : Begun s₀ x) : Restoring s₀ x := ⟨h.tracks, h.accepted⟩

theorem handledIn_handleBgpPeer {l : List (Event ConfCall ConfReply)} {peer peer' : BgpPeer}
    {a : Except Err Unit} :
    HandledIn (l ++ [⟨.handleBgpPeer peer, a⟩]) peer' ↔
      HandledIn l peer' ∨ peer' = peer ∧ a = .ok () := by
  rw [HandledIn, List.mem_append, List.mem_singleton]
  refine or_congr_right ⟨fun h => ?_, ?_⟩
  · cases h
    exact ⟨rfl, rfl⟩
  · rintro ⟨rfl, rfl⟩
    rfl

/-- Setting up one peer. -/
theorem Restoring.handleBgpPeer {x' : Restart} {peer : BgpPeer} {a : Except Err Unit}
    (h : Restoring s₀ x) (he : logged (restartExec env node) (.handleBgpPeer peer) x a x') :
    Restoring s₀ x' := by
  refine ⟨fun b => ?_, fun e hr => ?_⟩
  · have hstopped : StoppedIn x'.2 ↔ StoppedIn x.2 := by
      rw [he.2]
      exact mem_logged_of_ne (by rintro ⟨⟩)
    have hhandled : ∀ peer', HandledIn x'.2 peer' ↔ HandledIn x.2 peer' ∨ peer' = peer ∧ a = .ok () := by
      intro peer'
      rw [he.2]
      exact handledIn_handleBgpPeer
    simp only [hstopped, hhandled]
    rcases restartExec_handleBgpPeer he.1 with ⟨rfl, conf, p, hconf, htable⟩ | ⟨⟨e, rfl⟩, hsame⟩
    · rw [htable]
      by_cases hb : conf.neighborAddress = b
      · have hset : (x.1.table.set conf.neighborAddress p).get b = some p := by
          rw [← hb]
          exact Map.get_set_self ..
        rw [hset]
        exact iff_of_true rfl (.inl ⟨peer, .inr ⟨rfl, rfl⟩, conf, hconf, hb⟩)
      · have hset : (x.1.table.set conf.neighborAddress p).get b = x.1.table.get b :=
          Map.get_set_ne _ _ fun heq => hb heq.symm
        rw [hset, h.tracks b]
        refine or_congr_left ⟨?_, ?_⟩
        · rintro ⟨peer', hpeer', hat⟩
          exact ⟨peer', .inl hpeer', hat⟩
        · rintro ⟨peer', hpeer' | ⟨rfl, -⟩, hat⟩
          · exact ⟨peer', hpeer', hat⟩
          · obtain ⟨conf', hconf', hb'⟩ := hat
            cases hconf.symm.trans hconf'
            exact absurd hb' hb
    · rw [hsame, h.tracks b]
      simp
  · refine h.accepted e ?_
    rw [he.2] at hr
    rcases hr with ⟨as, routerId, hmem⟩ | ⟨policyConf, hmem⟩
    · exact .inl ⟨as, routerId, (mem_logged_of_ne (by rintro ⟨⟩)).mp hmem⟩
    · exact .inr ⟨policyConf, (mem_logged_of_ne (by rintro ⟨⟩)).mp hmem⟩

theorem wp_addPeers {cenv : ConfEnv} {host : Node} {peers : List BgpPeer} (h : Restoring s₀ x) :
    Wp (logged (restartExec env node))
      (either (fun _ x' => Restoring s₀ x' ∧ (∀ ev ∈ x.2, ev ∈ x'.2) ∧
        ∀ peer, HandledIn x'.2 peer ↔
          HandledIn x.2 peer ∨ peer ∈ peers ∧ peerMatchNode cenv peer host = .ok true)
        fun _ x' => Restoring s₀ x')
      (addPeers cenv host peers).run x := by
  induction peers generalizing x with
  | nil => exact ⟨h, fun ev hev => hev, fun peer => by simp⟩
  | cons peer peers ih =>
    rw [addPeers]
    rcases hmatch : peerMatchNode cenv peer host with e | (- | -)
    · exact h
    · -- the node is not selected
      refine (ih h).mono fun r x' hx' => ?_
      rcases r with e | u
      · exact hx'
      · refine ⟨hx'.1, hx'.2.1, fun peer' => (hx'.2.2 peer').trans (or_congr_right ?_)⟩
        rw [List.mem_cons]
        constructor
        · exact fun hp => ⟨.inr hp.1, hp.2⟩
        · rintro ⟨rfl | hmem, hsel⟩
          · rw [hmatch] at hsel
            cases hsel
          · exact ⟨hmem, hsel⟩
    · intro a x₁ he
      have h₁ : Restoring s₀ x₁ := h.handleBgpPeer he
      rcases a with e | u
      · exact h₁
      refine (ih h₁).mono fun r x' hx' => ?_
      rcases r with e | u
      · exact hx'
      · refine ⟨hx'.1, fun ev hev => hx'.2.1 ev ?_, fun peer' => (hx'.2.2 peer').trans ?_⟩
        · rw [he.2]
          exact List.mem_append_left _ hev
        · rw [he.2, handledIn_handleBgpPeer, List.mem_cons, or_assoc]
          refine or_congr_right ⟨?_, ?_⟩
          · rintro (⟨rfl, -⟩ | ⟨hmem, hsel⟩)
            · exact ⟨.inl rfl, hmatch⟩
            · exact ⟨.inr hmem, hsel⟩
          · rintro ⟨rfl | hmem, hsel⟩
            · exact .inl ⟨rfl, rfl⟩
            · exact .inr ⟨hmem, hsel⟩

end Parts

/-! ## A whole reconcile -/

/-- The peers that were listed and select the node are set up, and no others. -/
def RestoredIn (env : ConfEnv) (l : List (Event ConfCall ConfReply)) : Prop :=
  ∃ (peers : List BgpPeer) (host : Node),
    (⟨.listBgpPeers, .ok peers⟩ : Event ConfCall ConfReply) ∈ l ∧
    (⟨.getNode env.nodeName, .ok host⟩ : Event ConfCall ConfReply) ∈ l ∧
    ∀ peer, HandledIn l peer ↔ peer ∈ peers ∧ peerMatchNode env peer host = .ok true

/-- What a reconcile leaves when it returns. -/
structure RestartEnds (env : ConfEnv) (s₀ : SessionState) (r : Except Err Unit) (x : Restart) :
    Prop where
  tracks : SessionsOf s₀ x
  refused : ∀ e, RefusedIn x.2 e → r = .error e ∧ ∀ peer, ¬ HandledIn x.2 peer
  restored : StartedIn x.2 → r = .ok () → RestoredIn env x.2

section Whole
variable {env : PeerEnv} {node : Node} {cenv : ConfEnv} {s₀ : SessionState} {x : Restart}

theorem Aborted.ends {e : Err} (h : Aborted s₀ e x) : RestartEnds cenv s₀ (.error e) x := by
  refine ⟨h.tracks, fun e' hr => ?_, fun _ hok => ?_⟩
  · rw [h.refused e' hr]
    exact ⟨rfl, h.unhandled⟩
  · cases hok

theorem Restoring.ends {r : Except Err Unit} (h : Restoring s₀ x)
    (hrestored : r = .ok () → RestoredIn cenv x.2) : RestartEnds cenv s₀ r x :=
  ⟨h.tracks, fun e hr => absurd hr (h.accepted e), fun _ => hrestored⟩

theorem wp_begun_bind {α : Type} {p : ConfCode α} {f : α → ConfCode Unit}
    (hp : Wp (logged (restartExec env node)) (either (fun _ => Begun s₀) (Aborted s₀)) p.run x)
    (hf : ∀ a x', Begun s₀ x' →
      Wp (logged (restartExec env node)) (RestartEnds cenv s₀) (f a).run x') :
    Wp (logged (restartExec env node)) (RestartEnds cenv s₀) (p >>= f).run x := by
  rw [wp_except_bind]
  refine hp.mono fun r x' hx' => ?_
  rcases r with e | a
  · exact hx'.ends
  · exact hf a x' hx'

theorem wp_reconfigPeers (h : Begun s₀ x) :
    Wp (logged (restartExec env node)) (RestartEnds cenv s₀) (reconfigPeers cenv).run x := by
  intro r₁ x₁ he₁
  have h₁ : Begun s₀ x₁ := h.early (c := .listBgpPeers) trivial he₁
  rcases r₁ with e | peers
  · exact (h₁.aborted _).ends
  intro r₂ x₂ he₂
  have h₂ : Begun s₀ x₂ := h₁.early (c := .getNode cenv.nodeName) trivial he₂
  rcases r₂ with e | host
  · exact (h₂.aborted _).ends
  refine (wp_addPeers h₂.restoring).mono fun r x' hx' => ?_
  rcases r with e | u
  · exact hx'.ends fun hok => by cases hok
  · obtain ⟨hrestoring, hlog, hhandled⟩ := hx'
    refine hrestoring.ends fun _ => ⟨peers, host, hlog _ ?_, hlog _ ?_, fun peer => ?_⟩
    · rw [he₂.2, he₁.2]
      simp
    · rw [he₂.2]
      simp
    · rw [hhandled peer]
      exact or_iff_right (h₂.unhandled peer)

theorem wp_configure {conf : BgpConf} (h : Begun s₀ x) (hstarted : ¬ StartedIn x.2) :
    Wp (logged (restartExec env node)) (RestartEnds cenv s₀) (configure cenv conf).run x := by
  rw [configure]
  split
  · -- gobgp is stopped, and not started again
    have hearly : (attempt (handleBgpGlobalConfig conf "" true none)).run.All ConfCall.early :=
      all_attempt ⟨trivial, fun _ => ⟨trivial, fun _ => trivial⟩⟩
    refine (Wp.of_all (I := fun x => Begun s₀ x ∧ ¬ StartedIn x.2)
      (all_except_bind hearly fun _ => ?_) ?_ ⟨h, hstarted⟩).mono ?_
    · exact ⟨trivial, fun _ => all_except_bind trivial fun _ => trivial⟩
    · rintro c x r x' hc he ⟨hx, hnot⟩
      refine ⟨hx.early hc he, ?_⟩
      rw [he.2, StartedIn.early hc]
      exact hnot
    · rintro r x' ⟨hx', hnot⟩
      exact ⟨hx'.tracks, fun e hr => absurd hr (hx'.accepted e), fun hst => absurd hst hnot⟩
  · refine wp_begun_bind (wp_early ?_ h) fun clone x₁ h₁ => ?_
    · rw [addConfFinalizer]
      split
      · exact ⟨trivial, fun _ => trivial⟩
      · trivial
    intro r₂ x₂ he₂
    have h₂ : Begun s₀ x₂ := h₁.early (c := .getNode cenv.nodeName) trivial he₂
    refine wp_begun_bind (p := orError r₂) (wp_early trivial h₂) fun host x₂ h₂ => ?_
    refine wp_begun_bind (p := getPolicyConfigMap cenv (nodeConf clone.spec host).2)
      (wp_early ?_ h₂) fun cm x₃ h₃ => ?_
    · rw [getPolicyConfigMap]
      split
      · trivial
      · refine ⟨trivial, fun r => ?_⟩
        rcases r with (_ | _ | _) | cm <;> trivial
    refine wp_begun_bind (wp_handleBgpGlobalConfig h₃) fun _ x₄ h₄ => ?_
    intro time x₅ he₅ r₆ x₆ he₆
    have h₅ : Begun s₀ x₅ := h₄.early (c := .now) trivial he₅
    have h₆ : Begun s₀ x₆ := h₅.early (c := .updateBgpConf _) trivial he₆
    rcases r₆ with e | stored
    · exact (h₆.aborted _).ends
    · exact wp_reconfigPeers h₆

theorem wp_reconcileBgpConf {name : String} :
    Wp (logged (restartExec env node)) (RestartEnds cenv s₀) (reconcileBgpConf cenv name).run
      (s₀, []) := by
  intro r x he
  have hstart : Begun s₀ (s₀, []) := by
    refine ⟨fun a => ?_, fun peer => List.not_mem_nil, ?_⟩
    · simp [HandledIn, StoppedIn]
    · rintro e (⟨as, routerId, hmem⟩ | ⟨policyConf, hmem⟩)
      · exact List.not_mem_nil hmem
      · exact List.not_mem_nil hmem
  have h : Begun s₀ x := hstart.early (c := .getBgpConf name) trivial he
  have hstarted : ¬ StartedIn x.2 := by
    rw [he.2, StartedIn.early (c := .getBgpConf name) trivial]
    rintro ⟨as, routerId, hmem⟩
    exact List.not_mem_nil hmem
  rcases r with (- | - | -) | conf
  · exact ⟨h.tracks, fun e hr => absurd hr (h.accepted e), fun hst => absurd hst hstarted⟩
  · exact (h.aborted _).ends
  · exact (h.aborted _).ends
  · exact wp_configure h hstarted

/-- **Sessions after a reconcile of the configuration**: the peers of gobgp are then those that
this reconcile has set up, and those from before only if gobgp could not be stopped.  If gobgp
refuses the configuration or the policy, that error is returned and no peer was set up; if it
was started and no error is returned, those that were listed and select the node were. -/
theorem conf_reconcile_sessions (name : String) {s' : SessionState}
    {l : List (Event ConfCall ConfReply)} {r : Except Err Unit}
    (hrun : Run (restartExec env node) s₀ (reconcileBgpConf cenv name).run l r s') :
    (∀ a, (s'.table.get a).isSome ↔
      (∃ peer, HandledIn l peer ∧ peer.At a) ∨ (s₀.table.get a).isSome ∧ ¬ StoppedIn l) ∧
    (∀ e, RefusedIn l e → r = .error e ∧ ∀ peer, ¬ HandledIn l peer) ∧
    (StartedIn l → r = .ok () → RestoredIn cenv l) := by
  have hdone : RestartEnds cenv s₀ r (s', l) := wp_reconcileBgpConf.of_run (hrun.logged [])
  exact ⟨hdone.tracks, hdone.refused, hdone.restored⟩

end Whole

/-- A configuration with a policy file. -/
def policyBgpConf : BgpConf where
  name := "default"
  finalizers := [finalizerName]
  spec := { as := 50000, routerId := "10.0.0.1", policy := "policy" }

/-- The policy file. -/
def policyFile : ConfigMap where
  data := Map.empty.set openELBBgpName "policy"

/-- A node with one session. -/
def oneSession : SessionState where
  objects := Map.empty
  table := Map.empty.set "10.0.0.9" ⟨some { neighborAddress := "10.0.0.9" }, "", [], ""⟩

/-- The policy is refused, and the session is gone. -/
theorem conf_reconcile_sessions_refused :
    ∃ (s' : SessionState) (l : List (Event ConfCall ConfReply)) (e : Err),
      Run (restartExec { nodeName := "node1" } { name := "node1" }) oneSession
        (reconcileBgpConf { nodeName := "node1" } "default").run l (.error e) s' ∧
      RefusedIn l e ∧ (oneSession.table.get "10.0.0.9").isSome ∧
      ¬ (s'.table.get "10.0.0.9").isSome := by
  let e : Err := .text "policy"
  have hpolicy : (updatePolicy (some policyFile)).run =
      .call (.setPolicies "policy") fun r => .ret r := by
    rw [updatePolicy, policyFile, Map.get_set_self]
    rfl
  have hlast : Run (restartExec { nodeName := "node1" } { name := "node1" })
      { oneSession with table := Map.empty } (updatePolicy (some policyFile)).run
      [⟨.setPolicies "policy", .error e⟩] (.error e) { oneSession with table := Map.empty } := by
    rw [hpolicy]
    exact .call rfl .ret
  let l : List (Event ConfCall ConfReply) :=
    [⟨.getBgpConf "default", .ok policyBgpConf⟩, ⟨.getNode "node1", .ok { name := "node1" }⟩,
      ⟨.getConfigMap ⟨"openelb-system", "policy"⟩, .ok policyFile⟩, ⟨.bgp (.setRack ""), ()⟩,
      ⟨.bgp .stopBgp, .ok ()⟩, ⟨.bgp (.startBgp 50000 "10.0.0.1"), .ok ()⟩,
      ⟨.setPolicies "policy", .error e⟩]
  have hrun : Run (restartExec { nodeName := "node1" } { name := "node1" }) oneSession
      (reconcileBgpConf { nodeName := "node1" } "default").run l (.error e)
      { oneSession with table := Map.empty } :=
    .call rfl (.call rfl (.call rfl (.call rfl (.call (.inl ⟨rfl, rfl⟩) (.call rfl
      (hlast.bind .ret))))))
  obtain ⟨htable, hrefused, -⟩ := conf_reconcile_sessions "default" hrun
  have hmem : RefusedIn l e := .inr ⟨"policy", by simp [l]⟩
  refine ⟨_, l, e, hrun, hmem, by simp [oneSession], ?_⟩
  rw [htable]
  rintro (⟨peer, hpeer, -⟩ | ⟨-, hnot⟩)
  · exact (hrefused e hmem).2 peer hpeer
  · exact hnot (by simp [StoppedIn, l])

end OpenELB.Bgp
