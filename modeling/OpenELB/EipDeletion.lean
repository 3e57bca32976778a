import OpenELB.SpeakerSteps
import OpenELB.Evaluation
import OpenELB.Records
import OpenELB.Threads

/-! # Deleting an Eip that is announced

Two processes follow an Eip.  The IPAM controller holds a finalizer: it sees the
deletion, removes the finalizer, and the object is gone.  The speaker holds none.  It
withdraws the Eip when it reads it marked for deletion while it has it on record; when
it reads nothing it does nothing, and an Eip that is marked but not on record it
announces like a new one.

So what is left when the Eip is gone depends on the last `Reconcile` of the speaker
that found it.  Nothing is left if that one returned nil, found the Eip marked, had it on
record, and had announced nothing but what the record lists; and that is the only way in
which one that returned nil leaves nothing (`withdrawn_iff`).  When the finalizer is removed
before the speaker reads the marked object, the Eip stays on record and announced for good
(`deletion_missed`). -/
namespace OpenELB.Deletion
open Go Prog Threads

/-! ## The two processes -/

/-- A read that found the Eip: the object, and the speaker's state at that time. -/
structure Finding where
  eip : Eip
  before : SpeakerState

/-- The API server, what is left of the controller's `Reconcile`, and the speaker.  The
last two fields record what the running `Reconcile` of the speaker has found, and what those
before it have found and returned, the latest first. -/
structure World where
  cluster : Cluster
  controller : Option (Code Unit) := none
  speaker : SpeakerState := {}
  found : Option Finding := none
  results : List (Option Finding × Except Err Unit) := []

/-- The last `Reconcile` that found the Eip. -/
def World.last (w : World) : Option (Finding × Except Err Unit) :=
  w.results.findSome? fun x => x.1.map fun f => (f, x.2)

/-- Reads see what is stored, and everything may fail. -/
def faults : Faults := { readFail := true, writeFail := true }

/-- What the speaker may be answered: the Eip that is stored, and anything else about
services, endpoints and nodes. -/
def Reads (s : Cluster) : (c : SpeakerCall) → SpeakerReply c → Prop
  | .getEip name, r => ∃ v, VStore.Reads faults s.eips name v ∧ r = v.map Version.obj
  | _, _ => True

/-- A read that finds the Eip is recorded. -/
def World.note (w : World) : (c : SpeakerCall) → SpeakerReply c → Option Finding
  | .getEip _, .ok e => some ⟨e, w.speaker⟩
  | _, _ => w.found

/-- What happens between two calls of the speaker: a user edits an Eip, some client
sends a request, or the controller starts to reconcile the Eip, makes its next call, or
is done. -/
inductive Outside (name : String) (w : World) : World → Prop
  | edit {s : Cluster} : EipEdit w.cluster s → Outside name w { w with cluster := s }
  | request {c : Call} {r : Reply c} {s : Cluster} : exec faults c w.cluster r s →
      Outside name w { w with cluster := s }
  | start : w.controller = none → Outside name w { w with controller := some (reconcileEip name) }
  | call {c : Call} {k : Reply c → Code Unit} {r : Reply c} {s : Cluster} :
      w.controller = some (.call c k) → exec faults c w.cluster r s →
      Outside name w { w with cluster := s, controller := some (k r) }
  | done {o : Outcome Unit} : w.controller = some (.ret o) →
      Outside name w { w with controller := none }

/-- The speaker's worker, among all that. -/
def system (speakers : List String) (name : String) :
    System Unit Unit SpeakerCall SpeakerReply (Except Err Unit) World where
  body _ := (reconcileSpeakerEip speakers ⟨"", name⟩).run
  exec c w r w' := ∃ sp, speakerExec (Reads w.cluster) true c w.speaker r sp ∧
    w' = { w with speaker := sp, found := w.note c r }
  start _ _ w w' := w' = w
  done _ _ r w w' := w' = { w with found := none, results := (w.found, r) :: w.results }
  env _ w w' := Outside name w w'

/-- At first the speaker holds nothing, and nothing runs. -/
def Fresh (w : World) : Prop := ∃ s, w = { cluster := s }

/-- The speaker has no entry for the Eip, and announces nothing. -/
def Withdrawn (name : String) (w : World) : Prop :=
  w.speaker.pools.get name = none ∧ ∀ p ip, w.speaker.announced p ip = none

/-- The Eip was found marked for deletion, with an entry that lists everything the
speaker announced. -/
def CaughtDeleting (name : String) (f : Finding) : Prop :=
  f.eip.deletionTimestamp = true ∧ ∃ oldData, f.before.pools.get name = some oldData ∧
    ∀ p ip, (f.before.announced p ip).isSome →
      p = oldData.getProtocol ∧ (oldData.status.used.get ip).isSome

/-! ## What the speaker does with an Eip it found -/

/-- Calls that read no Eip. -/
def ReadsNoEip : SpeakerCall → Prop
  | .getEip _ => False
  | _ => True

theorem readsNoEip_of_isRead {c : SpeakerCall} (h : c.isRead) : ReadsNoEip c := by
  cases c <;> trivial

theorem setBalancers_all (protocol : String) (usage : Map String String) (ips : List String) :
    (setBalancers protocol usage ips).run.All ReadsNoEip := by
  induction ips with
  | nil => trivial
  | cons ip ips ih =>
    rw [setBalancers]
    refine all_except_bind ?_ fun nodes => ?_
    · refine all_except_bind ((serviceNodeSets_all _).mono fun c => readsNoEip_of_isRead) ?_
      exact fun nodeSets => ⟨trivial, fun _ => trivial⟩
    · split
      · exact ih
      · exact ⟨trivial, fun r => all_except_bind trivial fun _ => ih⟩

theorem setBalancerWithEIP_all (e : Eip) : (setBalancerWithEIP e).run.All ReadsNoEip := by
  refine all_except_bind trivial fun rg => ⟨trivial, fun r => all_except_bind trivial fun _ => ?_⟩
  exact ⟨trivial, fun ips => setBalancers_all _ _ ips⟩

theorem delBalancers_all (protocol : String) (ips : List String) :
    (delBalancers protocol ips).run.All ReadsNoEip := by
  induction ips with
  | nil => trivial
  | cons ip ips ih => exact ⟨trivial, fun r => all_except_bind trivial fun _ => ih⟩

theorem delBalancer_all (protocol : String) (usage : Map String String) :
    (delBalancer protocol usage).run.All ReadsNoEip :=
  ⟨trivial, fun ips => delBalancers_all _ ips⟩

theorem delBalancerWithEIP_all (e : Eip) : (delBalancerWithEIP e).run.All ReadsNoEip := by
  refine all_except_bind (delBalancer_all _ _) fun _ => ?_
  exact all_except_bind trivial fun rg => ⟨trivial, fun r => trivial⟩

theorem handleEIP_all (speakers : List String) (e : Eip) :
    (handleEIP speakers e).run.All ReadsNoEip := by
  have hset : (setBalancerWithEIP e >>= fun _ => send (.setPool e.name e)).run.All ReadsNoEip :=
    all_except_bind (setBalancerWithEIP_all e) fun _ => ⟨trivial, fun _ => trivial⟩
  rw [handleEIP]
  split
  · trivial
  refine ⟨trivial, fun entry => ?_⟩
  cases entry with
  | none => exact hset
  | some oldData =>
    show (handleKnownEIP oldData e).run.All ReadsNoEip
    rw [handleKnownEIP]
    split
    · exact all_except_bind (delBalancerWithEIP_all oldData) fun _ => ⟨trivial, fun _ => trivial⟩
    split
    · exact all_except_bind (delBalancerWithEIP_all oldData) fun _ => ⟨trivial, fun _ => hset⟩
    split
    · refine all_except_bind (delBalancer_all _ _) fun _ => ?_
      exact all_except_bind ⟨trivial, fun ips => setBalancers_all _ _ ips⟩
        fun _ => ⟨trivial, fun _ => trivial⟩
    · trivial

/-- What handling the Eip that was found leaves, if it returned nil: a marked Eip with an
entry is withdrawn, and any other has an entry afterwards. -/
def Aftermath (name : String) (f : Finding) (r : Except Err Unit) (sp : SpeakerState) : Prop :=
  r = .ok () →
    (f.eip.deletionTimestamp = true ∧ ∃ oldData, f.before.pools.get name = some oldData ∧
      sp = { f.before.withdraw oldData.getProtocol oldData.status.used with
        pools := f.before.pools.delete name }) ∨
    ¬ (f.eip.deletionTimestamp = true ∧ (f.before.pools.get name).isSome) ∧
      (sp.pools.get name).isSome

section Handling
variable {reads : (c : SpeakerCall) → SpeakerReply c → Prop} {fails : Bool} {s : SpeakerState}
  {e : Eip}

/-- Where the code ends by putting the Eip on record, it is there. -/
theorem wp_record {x : SpeakerCode Unit} :
    Wp (speakerExec reads fails) (either (fun _ s' => (s'.pools.get e.name).isSome) fun _ _ => True)
      (x >>= fun _ => send (.setPool e.name e)).run s := by
  refine wp_except_bind.mpr (wp_true.mono fun r s₁ _ => ?_)
  cases r with
  | error _ => trivial
  | ok _ =>
    rintro _ s₂ rfl
    show ((s₁.pools.set e.name e).get e.name).isSome
    rw [Map.get_set_self]
    rfl

/-- **`HandleEIP`, whatever it is told of services, endpoints and nodes.** -/
theorem wp_handleEIP_aftermath {speakers : List String} :
    Wp (speakerExec reads fails) (Aftermath e.name ⟨e, s⟩) (handleEIP speakers e).run s := by
  have herr : ∀ {err : Err} {sp : SpeakerState}, Aftermath e.name ⟨e, s⟩ (.error err) sp :=
    fun h => nomatch h
  -- on every path but one the Eip is put on record, or stays there
  have hset : ∀ {x : SpeakerCode Unit} {s₁ : SpeakerState},
      ¬ (e.deletionTimestamp = true ∧ (s.pools.get e.name).isSome) →
      Wp (speakerExec reads fails) (Aftermath e.name ⟨e, s⟩)
        (x >>= fun _ => send (.setPool e.name e)).run s₁ := by
    intro x s₁ hnot
    refine wp_record.mono fun r s₂ hr => ?_
    cases r with
    | error _ => exact herr
    | ok _ => exact fun _ => Or.inr ⟨hnot, hr⟩
  rw [handleEIP]
  split
  · exact herr
  simp only [ask_bind, wp_call]
  rintro entry s₁ ⟨rfl, rfl⟩
  cases hrec : s₁.pools.get e.name with
  | none => exact hset (by rw [hrec]; exact fun h => nomatch h.2)
  | some oldData =>
    show Wp _ _ (handleKnownEIP oldData e).run s₁
    rw [handleKnownEIP]
    split
    · rename_i hdel
      refine wp_except_bind.mpr (wp_delBalancerWithEIP.mono fun r s₂ hr => ?_)
      cases r with
      | error _ => exact herr
      | ok _ =>
        rintro _ s₃ rfl
        obtain ⟨-, rfl⟩ := hr
        exact fun _ => Or.inl ⟨hdel, oldData, hrec, rfl⟩
    rename_i hlive
    have hnot : ¬ (e.deletionTimestamp = true ∧ (s₁.pools.get e.name).isSome) :=
      fun h => hlive h.1
    split
    · refine wp_except_bind.mpr (wp_delBalancerWithEIP.mono fun r s₂ hr => ?_)
      cases r with
      | error _ => exact herr
      | ok _ =>
        rintro _ s₃ rfl
        exact hset hnot
    split
    · refine wp_except_bind.mpr (wp_delBalancer.mono fun r s₂ hr => ?_)
      cases r with
      | error _ => exact herr
      | ok _ => exact hset hnot
    · refine fun _ => Or.inr ⟨hnot, ?_⟩
      rw [hrec]
      rfl

end Handling

/-! ## Over a whole run -/

/-- What the speaker holds, by what its last `Reconcile` that found the Eip has done. -/
def Accounted (name : String) (w : World) : Prop :=
  match w.last with
  | none => w.speaker = {}
  | some (f, r) => Aftermath name f r w.speaker

/-- What the others do not change. -/
structure Rely (w w' : World) : Prop where
  speaker : w'.speaker = w.speaker
  found : w'.found = w.found
  results : w'.results = w.results

theorem Rely.refl (w : World) : Rely w w := ⟨rfl, rfl, rfl⟩

theorem Rely.trans {w w' w'' : World} (h : Rely w w') (h' : Rely w' w'') : Rely w w'' :=
  ⟨h'.speaker.trans h.speaker, h'.found.trans h.found, h'.results.trans h.results⟩

theorem Rely.accounted {name : String} {w w' : World} (h : Rely w w') (hw : Accounted name w) :
    Accounted name w' := by
  rw [Accounted, World.last, h.results, h.speaker]
  exact hw

theorem Outside.rely {name : String} {w w' : World} (h : Outside name w w') : Rely w w' := by
  cases h <;> exact ⟨rfl, rfl, rfl⟩

/-- What holds when a `Reconcile` returns: it found no Eip and did nothing, or it has
handled the one it found. -/
def Returns (name : String) (r : Except Err Unit) (w : World) : Prop :=
  w.found = none ∧ Accounted name w ∨ ∃ f, w.found = some f ∧ Aftermath name f r w.speaker

theorem note_of_readsNoEip {w : World} {c : SpeakerCall} {r : SpeakerReply c}
    (hc : ReadsNoEip c) : w.note c r = w.found := by
  cases c <;> first | rfl | cases hc

section Runs
variable {speakers : List String} {name : String} {w w' : World}

theorem Rely.returns {r : Except Err Unit} (h : Rely w w') (hw : Returns name r w) :
    Returns name r w' := by
  rcases hw with ⟨hf, ha⟩ | ⟨f, hf, ha⟩
  · exact Or.inl ⟨h.found.trans hf, h.accounted ha⟩
  · exact Or.inr ⟨f, h.found.trans hf, h.speaker ▸ ha⟩

theorem body_eq (speakers : List String) (name : String) :
    (system speakers name).body () =
      .call (.getEip name) fun r => (handleRead speakers r).run := by
  have hreload : reloadLayer2Speaker ⟨"", name⟩ = false := by
    simp [reloadLayer2Speaker, layer2ReloadEIPNamespace]
  show (reconcileSpeakerEip speakers ⟨"", name⟩).run = _
  rw [reconcileSpeakerEip, hreload, if_neg Bool.false_ne_true]
  rfl

/-- The speaker's worker is safe. -/
abbrev SafeWork (speakers : List String) (name : String)
    (log : List (Event SpeakerCall SpeakerReply))
    (p : Prog SpeakerCall SpeakerReply (Except Err Unit)) (w : World) : Prop :=
  Safe (system speakers name).exec Rely (fun _ _ _ _ _ _ => True) (fun _ r w => Returns name r w)
    log p w

theorem safe_reconcile (hf : w.found = none) (ha : Accounted name w) :
    SafeWork speakers name [] ((system speakers name).body ()) w := by
  rw [body_eq]
  rintro w₁ r w₂ hR ⟨sp, ⟨⟨v, hv, rfl⟩, rfl⟩, rfl⟩
  refine ⟨trivial, ?_⟩
  have hidle : ∀ {w₃ : World} {r' : Except Err Unit}, Rely w₁ w₃ → Returns name r' w₃ :=
    fun h => (hR.trans h).returns (Or.inl ⟨hf, ha⟩)
  cases v with
  | error err =>
    have hnote : Rely w₁ { w₁ with speaker := w₁.speaker, found := w₁.found } := Rely.refl w₁
    cases err with
    | notFound => exact fun w₃ hR' => hidle (hnote.trans hR')
    | conflict => exact fun w₃ hR' => hidle (hnote.trans hR')
    | other msg => exact fun w₃ hR' => hidle (hnote.trans hR')
  | ok v =>
    -- from here on the speaker's state is the speaker's own
    have hname : v.obj.name = name := hv.mem_log.2
    have hwp : Wp (among Eq (speakerExec (fun _ _ => True) true))
        (Aftermath name ⟨v.obj, w₁.speaker⟩) (handleEIP speakers v.obj).run w₁.speaker := by
      rw [among_eq, ← hname]
      exact wp_handleEIP_aftermath
    refine (Wp.safe World.speaker (fun w => w.found = some ⟨v.obj, w₁.speaker⟩)
      (t := { w₁ with found := some ⟨v.obj, w₁.speaker⟩ }) (handleEIP_all speakers v.obj) ?_ ?_ ?_
      hwp rfl).mono (fun _ _ _ _ _ _ _ => trivial) ?_
    · exact fun a b h hI => ⟨h.speaker.symm, h.found.trans hI⟩
    · rintro c a r b hc ⟨sp, he, rfl⟩ hI
      exact ⟨speakerExec_mono (fun _ _ => trivial) he, (note_of_readsNoEip hc).trans hI⟩
    · rintro a s _ h rfl
      exact h
    · exact fun _ r w₃ h => Or.inr ⟨_, h.2, h.1⟩

/-- The invariant of a run: an idle speaker is accounted for, and a worker is safe. -/
structure Fine (speakers : List String) (name : String)
    (c : Conf Unit Unit SpeakerCall SpeakerReply (Except Err Unit) World) : Prop where
  idle : c.task () = none → c.state.found = none ∧ Accounted name c.state
  busy : ∀ t, c.task () = some t → SafeWork speakers name t.log t.rest c.state

/-- **One step keeps the speaker accounted for.** -/
theorem fine_step {c d : Conf Unit Unit SpeakerCall SpeakerReply (Except Err Unit) World}
    (hs : (system speakers name).Step c d) (hc : Fine speakers name c) :
    Fine speakers name d := by
  have hself : ∀ (i : Unit)
      (o : Option (Task Unit SpeakerCall SpeakerReply (Except Err Unit))) {t},
      Function.update c.task i o () = t → o = t := by
    intro i o t h
    rwa [Function.update_self] at h
  cases hs with
  | start i op w hi hst =>
    cases hst
    obtain ⟨hf, ha⟩ := hc.idle hi
    refine ⟨fun h => ?_, fun t ht => ?_⟩
    · cases hself i _ h
    · cases hself i _ ht
      exact safe_reconcile hf ha
  | call i op log x k r w hi he =>
    refine ⟨fun h => ?_, fun t ht => ?_⟩
    · cases hself i _ h
    · cases hself i _ ht
      exact (hc.busy _ hi c.state r w (Rely.refl _) he).2
  | done i op log r w hi hd =>
    cases hd
    refine ⟨fun _ => ⟨rfl, ?_⟩, fun t ht => ?_⟩
    · rcases hc.busy _ hi c.state (Rely.refl _) with ⟨hf, ha⟩ | ⟨f, hf, ha⟩
      · rw [Accounted, World.last, List.findSome?_cons, hf]
        exact ha
      · rw [Accounted, World.last, List.findSome?_cons, hf]
        exact ha
    · cases hself i _ ht
  | env w he =>
    have hR : Rely c.state w := Outside.rely he
    refine ⟨fun h => ?_, fun t ht => ?_⟩
    · obtain ⟨hf, ha⟩ := hc.idle h
      exact ⟨hR.found.trans hf, hR.accounted ha⟩
    · exact (hc.busy t ht).rely (fun _ _ _ => Rely.trans) hR

/-- **Every state that is reached is accounted for.** -/
theorem fine_of_reach {c : Conf Unit Unit SpeakerCall SpeakerReply (Except Err Unit) World}
    (hc : (system speakers name).Reach Fresh c) : Fine speakers name c := by
  induction hc with
  | init hw =>
    obtain ⟨s, rfl⟩ := hw
    exact ⟨fun _ => ⟨rfl, rfl⟩, fun t ht => nomatch ht⟩
  | step _ hs ih => exact fine_step hs ih

/-- What the last `Reconcile` that found the Eip has left, if it returned nil. -/
theorem withdrawn_iff_of_ok {c : Conf Unit Unit SpeakerCall SpeakerReply (Except Err Unit) World}
    (hc : (system speakers name).Reach Fresh c) (hidle : c.task () = none)
    (hok : ∀ f r, c.state.last = some (f, r) → r = .ok ()) :
    Withdrawn name c.state ↔ ∀ f r, c.state.last = some (f, r) → CaughtDeleting name f := by
  have ha := ((fine_of_reach hc).idle hidle).2
  rw [Accounted] at ha
  cases hlast : c.state.last with
  | none =>
    rw [hlast] at ha
    have hfresh : c.state.speaker = {} := ha
    refine ⟨fun _ f r h => (nomatch h), fun _ => ?_⟩
    rw [Withdrawn, hfresh]
    exact ⟨Map.get_empty name, fun _ _ => rfl⟩
  | some fr =>
    obtain ⟨f, r⟩ := fr
    rw [hlast] at ha
    have hafter : Aftermath name f r c.state.speaker := ha
    rcases hafter (hok f r hlast) with ⟨hdel, old, hold, hsp⟩ | ⟨hnot, hentry⟩
    · have hgone : Withdrawn name c.state ↔ ∀ p ip, (f.before.announced p ip).isSome →
          p = old.getProtocol ∧ (old.status.used.get ip).isSome := by
        rw [Withdrawn, hsp]
        simp only [Map.get_delete_self, true_and, SpeakerState.withdraw, ite_eq_left_iff]
        refine forall_congr' fun p => forall_congr' fun ip => ?_
        rw [← Option.not_isSome_iff_eq_none]
        exact not_imp_not
      rw [hgone]
      constructor
      · rintro h _ _ ⟨⟩
        exact ⟨hdel, old, hold, h⟩
      · intro h
        obtain ⟨-, old', hold', hall⟩ := h f r rfl
        rw [hold] at hold'
        cases hold'
        exact hall
    · constructor
      · intro h
        rw [h.1] at hentry
        cases hentry
      · intro h
        obtain ⟨hdel, old, hold, -⟩ := h f r rfl
        exact absurd ⟨hdel, by rw [hold]; rfl⟩ hnot

/-- **What is left of an Eip.**  When no `Reconcile` of the speaker is running, the Eip is off
the record and nothing is announced if the last one that found the Eip returned nil and found
it marked for deletion, on record, and with nothing else announced; and if that one returned
nil, only then.  That is so whatever users, the controller and others do in between, and in
particular once the Eip is gone. -/
theorem withdrawn_iff {c : Conf Unit Unit SpeakerCall SpeakerReply (Except Err Unit) World}
    (hc : (system speakers name).Reach Fresh c) (hidle : c.task () = none) :
    (∀ f r, c.state.last = some (f, r) → r = .ok () ∧ CaughtDeleting name f) ↔
      Withdrawn name c.state ∧ ∀ f r, c.state.last = some (f, r) → r = .ok () := by
  constructor
  · intro h
    have hok := fun f r hlast => (h f r hlast).1
    exact ⟨(withdrawn_iff_of_ok hc hidle hok).mpr fun f r hlast => (h f r hlast).2, hok⟩
  · rintro ⟨hgone, hok⟩ f r hlast
    exact ⟨hok f r hlast, (withdrawn_iff_of_ok hc hidle hok).mp hgone f r hlast⟩

end Runs

/-! ## Runs of one Eip -/

/-- The answers to the speaker: the Eip that is stored, and for the rest a cluster of two
nodes. -/
def answerSpeaker : (c : SpeakerCall) → World → Option (SpeakerReply c × World)
  | .getEip name, w =>
    let r := (readAnswer w.cluster.eips name).map Version.obj
    some (r, { w with found := w.note (.getEip name) r })
  | c, w =>
    (twoHosts.run edgeOrder noneFails c w.speaker).map fun x => (x.1, { w with speaker := x.2 })

theorem answerSpeaker_of_readsNoEip {c : SpeakerCall} (hc : ReadsNoEip c) (w : World) :
    answerSpeaker c w =
      (twoHosts.run edgeOrder noneFails c w.speaker).map fun x =>
        (x.1, { w with speaker := x.2 }) := by
  cases c <;> first | rfl | cases hc

theorem exec_of_answerSpeaker {speakers : List String} {name : String} (c : SpeakerCall)
    (w : World) (r : SpeakerReply c) (w' : World) (h : answerSpeaker c w = some (r, w')) :
    (system speakers name).exec c w r w' := by
  by_cases hc : ReadsNoEip c
  · rw [answerSpeaker_of_readsNoEip hc] at h
    obtain ⟨⟨r', sp⟩, hx, he⟩ := Option.map_eq_some_iff.mp h
    cases he
    refine ⟨sp, speakerExec_mono ?_ (ClusterView.exec_of_run noneFails_imp c _ _ _ hx), ?_⟩
    · intro r _
      cases c <;> trivial
    · rw [note_of_readsNoEip hc]
  · cases c with
    | getEip n =>
      cases h
      exact ⟨w.speaker, ⟨⟨_, reads_readAnswer .., rfl⟩, rfl⟩, rfl⟩
    | _ => exact absurd trivial hc

/-- Code that reads no Eip is run on the speaker's state alone. -/
theorem eval_answerSpeaker {α : Type} {p : Prog SpeakerCall SpeakerReply α}
    (hp : p.All ReadsNoEip) (w : World) :
    p.eval answerSpeaker w = (p.eval (twoHosts.run edgeOrder noneFails) w.speaker).map fun x =>
      (x.1, { w with speaker := x.2 }) := by
  induction p generalizing w with
  | ret a => rfl
  | call c k ih =>
    rw [Prog.eval, Prog.eval, answerSpeaker_of_readsNoEip hp.1]
    cases hx : twoHosts.run edgeOrder noneFails c w.speaker with
    | none => rfl
    | some x => exact ih x.1 (hp.2 x.1) _

/-- The answers to the controller, in a cluster without services. -/
def answerController : (c : Call) → Cluster → Option (Reply c × Cluster)
  | .listServices _ _, s => if s.services.cur.Ranges [] then some (.ok [], s) else none
  | c, s => answer inOrder c s

theorem exec_of_answerController (c : Call) (s : Cluster) (r : Reply c) (s' : Cluster)
    (h : answerController c s = some (r, s')) : exec faults c s r s' := by
  cases c with
  | listServices label value =>
    simp only [answerController] at h
    split at h
    · rename_i hr
      cases h
      exact ⟨rfl, .ok [], ⟨[], hr, rfl⟩, rfl⟩
    · cases h
  | _ => exact exec_of_inOrder _ _ _ _ h

/-- A `Reconcile` that finds the Eip. -/
def World.handled (w : World) (e : Eip) (r : Except Err Unit) : World :=
  { w with
    speaker := twoHosts.after edgeOrder noneFails ["layer2"] w.speaker e
    found := none
    results := (some ⟨e, w.speaker⟩, r) :: w.results }

/-- A `Reconcile` that finds nothing. -/
def World.idled (w : World) : World :=
  { w with found := none, results := (none, .ok ()) :: w.results }

section Reaching
variable {init : World → Prop} {w : World} {name : String}

theorem reach_handled {e : Eip} {r : Except Err Unit}
    (hc : (system ["layer2"] name).Reach init ⟨w, fun _ => none⟩)
    (he : w.cluster.eip name = some e)
    (hr : twoHosts.returns edgeOrder noneFails ["layer2"] w.speaker e = some r) :
    (system ["layer2"] name).Reach init ⟨w.handled e r, fun _ => none⟩ := by
  obtain ⟨v, hv, rfl⟩ := Option.map_eq_some_iff.mp he
  obtain ⟨⟨r', sp⟩, hx, rfl⟩ := Option.map_eq_some_iff.mp hr
  have hafter : twoHosts.after edgeOrder noneFails ["layer2"] w.speaker v.obj = sp := by
    rw [ClusterView.after, hx]
    rfl
  have heval : ((system ["layer2"] name).body ()).eval answerSpeaker w =
      some (r', { w with speaker := sp, found := some ⟨v.obj, w.speaker⟩ }) := by
    rw [body_eq, Prog.eval, answerSpeaker, readAnswer, hv]
    show Prog.eval answerSpeaker (handleEIP ["layer2"] v.obj).run
      { w with found := some ⟨v.obj, w.speaker⟩ } = _
    rw [eval_answerSpeaker (handleEIP_all _ _), hx]
    rfl
  refine hc.perform (i := ()) exec_of_answerSpeaker rfl rfl heval ?_
  rw [World.handled, hafter]
  rfl

theorem reach_idled (hc : (system ["layer2"] name).Reach init ⟨w, fun _ => none⟩)
    (he : w.cluster.eip name = none) (hf : w.found = none) :
    (system ["layer2"] name).Reach init ⟨w.idled, fun _ => none⟩ := by
  have hv : w.cluster.eips.get name = none := Option.map_eq_none_iff.mp he
  have heval : ((system ["layer2"] name).body ()).eval answerSpeaker w = some (.ok (), w) := by
    rw [body_eq, Prog.eval, answerSpeaker, readAnswer, hv]
    rfl
  refine hc.perform (i := ()) exec_of_answerSpeaker rfl rfl heval ?_
  show w.idled = { w with found := none, results := (w.found, .ok ()) :: w.results }
  rw [hf]
  rfl

/-- The controller goes through what is left of its `Reconcile`. -/
theorem reach_controller {p : Code Unit} {o : Outcome Unit} {s : Cluster}
    (hc : (system ["layer2"] name).Reach init ⟨w, fun _ => none⟩) (hp : w.controller = some p)
    (h : Prog.eval answerController p w.cluster = some (o, s)) :
    (system ["layer2"] name).Reach init
      ⟨{ w with cluster := s, controller := none }, fun _ => none⟩ := by
  induction p generalizing w with
  | ret o' =>
    cases h
    exact hc.step (.env _ (.done hp))
  | call c k ih =>
    rw [Prog.eval] at h
    split at h
    · rename_i r s₁ hr
      have henv : Outside name w { w with cluster := s₁, controller := some (k r) } :=
        .call hp (exec_of_answerController c _ r s₁ hr)
      have hrest := ih r (hc.step (.env _ henv)) rfl h
      exact hrest
    · cases h

end Reaching

/-- The Eip, with one address in use. -/
def heldEip : Eip := { edgeEip [("192.0.2.1", "ns/a")] with finalizers := [ipamFinalizerName] }

/-- At first the Eip is there, and no service carries its label. -/
def atFirst : World := { cluster := clusterOf [heldEip] [] }

/-- A user deletes the Eip. -/
def World.deleted (w : World) : World :=
  { w with cluster := { w.cluster with eips := w.cluster.eips.modify "edge" Eip.applyDelete } }

/-- The cluster after the controller has seen the deletion. -/
def World.released (w : World) : World :=
  { w with cluster :=
      ((Prog.eval answerController (reconcileEip "edge") w.cluster).map (·.2)).getD w.cluster }

theorem reach_released {init : World → Prop} {w : World} {o : Outcome Unit}
    (hc : (system ["layer2"] "edge").Reach init ⟨w, fun _ => none⟩) (hw : w.controller = none)
    (ho : (Prog.eval answerController (reconcileEip "edge") w.cluster).map (·.1) = some o) :
    (system ["layer2"] "edge").Reach init ⟨w.released, fun _ => none⟩ := by
  obtain ⟨⟨o', s⟩, hx, rfl⟩ := Option.map_eq_some_iff.mp ho
  have hrun := reach_controller (hc.step (.env _ (.start hw))) rfl hx
  have hs : w.released = { w with cluster := s, controller := none } := by
    rw [World.released, hx, ← hw]
    rfl
  rw [hs]
  exact hrun

/-- The speaker reads the Eip in time: it withdraws it, and the controller lets it go. -/
theorem withdrawn_in_time : ∃ c, (system ["layer2"] "edge").Reach Fresh c ∧ c.task () = none ∧
    c.state.cluster.eip "edge" = none ∧ c.state.results.head?.map (·.2) = some (.ok ()) ∧
    Withdrawn "edge" c.state := by
  have h₀ : (system ["layer2"] "edge").Reach Fresh ⟨atFirst, fun _ => none⟩ := .init ⟨_, rfl⟩
  have hret : twoHosts.returns edgeOrder noneFails ["layer2"] {} heldEip = some (.ok ()) := by
    decide +kernel
  have h₁ := reach_handled h₀ (by decide +kernel) hret
  have h₂ := h₁.step (.env (atFirst.handled heldEip (.ok ())).deleted (.edit (.delete "edge")))
  have h₃ := reach_handled h₂ (e := { heldEip with deletionTimestamp := true }) (r := .ok ())
    (by decide +kernel) (by decide +kernel)
  have h₄ := reach_released h₃ rfl (o := .ok ()) (by decide +kernel)
  have h₅ := reach_idled h₄ (by decide +kernel) rfl
  refine ⟨_, h₅, rfl, by decide +kernel, rfl, ((withdrawn_iff h₅ rfl).mp ?_).1⟩
  rintro f r ⟨⟩
  refine ⟨rfl, rfl, heldEip, by decide +kernel, ?_⟩
  -- what the first `Reconcile` announced is in the `Used` it put on record
  obtain ⟨l, hrun⟩ := @ClusterView.run_after _ _ _ true noneFails_imp _ _ _ _ hret
  rcases wp_handleEIP.of_run hrun with ⟨-, -, hadd⟩ | ⟨old, hold, -⟩
  · intro p ip hip
    replace hip : ((twoHosts.after edgeOrder noneFails ["layer2"] {} heldEip).announced
      p ip).isSome := hip
    rw [hadd] at hip
    by_cases hp : p = heldEip.getProtocol
    · refine ⟨hp, ?_⟩
      cases hused : heldEip.status.used.get ip with
      | none => simp [SpeakerState.added, SpeakerState.announce, ClusterView.table, hused] at hip
      | some svcs => rfl
    · simp [SpeakerState.added, SpeakerState.announce, hp] at hip
  · rw [Map.get_empty] at hold
    cases hold

/-- **A deletion that the speaker misses.**  The speaker announces the Eip, a user deletes
it, and the controller removes its finalizer before the speaker reads it again.  The
`Reconcile` that follows finds nothing and returns nil; the address is announced for
good. -/
theorem deletion_missed : ∃ c, (system ["layer2"] "edge").Reach Fresh c ∧ c.task () = none ∧
    c.state.cluster.eip "edge" = none ∧ c.state.results.head?.map (·.2) = some (.ok ()) ∧
    (c.state.speaker.pools.get "edge").isSome ∧
    (c.state.speaker.announced "layer2" "192.0.2.1").isSome := by
  have h₀ : (system ["layer2"] "edge").Reach Fresh ⟨atFirst, fun _ => none⟩ := .init ⟨_, rfl⟩
  have h₁ := reach_handled h₀ (e := heldEip) (r := .ok ()) (by decide +kernel) (by decide +kernel)
  have h₂ := h₁.step (.env (atFirst.handled heldEip (.ok ())).deleted (.edit (.delete "edge")))
  have h₃ := reach_released h₂ rfl (o := .ok ()) (by decide +kernel)
  have h₄ := reach_idled h₃ (by decide +kernel) rfl
  exact ⟨_, h₄, rfl, by decide +kernel, rfl, by decide +kernel, by decide +kernel⟩

end OpenELB.Deletion
