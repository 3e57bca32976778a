import OpenELB.ProgLogic
import OpenELB.Threads
import OpenELB.VipFile

/-! # keepalived and its file

The methods of the vip speaker change its tables, write the configuration file in place and
send SIGHUP to keepalived, which reads the file some time after that.  `Start` writes the
file once and then runs keepalived, and runs it again whenever it has ended.  The reconcilers of
services and of Eips call the methods from a goroutine each, `Start` runs in a third, and there
is no lock.

A change of the tables is one step here.  The file is written piece by piece, each writer at
its own place in it and with what the tables say by then: so what a write leaves that overlaps with
another or with a change is left open, and so is what keepalived reads while the file is
being written.

When a method sends its signal the file may be that of older tables, or of nobody.  But if
the file is right when a signal is sent or keepalived is run, and nothing was changed or written
since, keepalived, unless it has yet to react, runs with the file of the tables as they are;
and a method that returns nil leaves it so if nobody else has changed or written anything since it
began to write (`keepalived_current`).

A pid file from an earlier keepalived is not modelled: `Reload` waits until one was started. -/
namespace OpenELB
open Go Prog Threads

/-! ## Code -/

/-- The goroutines: those of `LBReconciler` and `EIPReconciler`, and that of `Start`. -/
inductive VipWorker where
  | lb
  | eip
  | starter
  deriving DecidableEq

/-- What the methods ask for, and who does.  The changes of the tables, before the file is
written, are one call each. -/
inductive VipCall where
  | record (worker : VipWorker) (vip : String) (nodes : List Node)
  | remove (worker : VipWorker) (vip : String)
  | configure (worker : VipWorker) (host : Host) (config : Config) (deleted : Bool)
  | mkdirAll
  | create (worker : VipWorker)
  | execute (worker : VipWorker)
  /-- The pid file is there. -/
  | awaitPid
  | sighup

/-- The types of the answers. -/
abbrev VipReply : VipCall → Type
  | .remove _ _ => Bool
  | .awaitPid => Unit
  | _ => Except String Unit

/-- Code of the speaker, which may return an error. -/
abbrev VipCode := ExceptT String (Prog VipCall VipReply)

/-- `WriteCfg`. -/
def writeCfg (worker : VipWorker) : VipCode Unit := do
  must (← ask VipCall.mkdirAll)
  must (← ask (VipCall.create worker))
  let r : Except String Unit ← ask (VipCall.execute worker)
  must (r.mapError ("unexpected error creating keepalived.cfg: " ++ ·))

/-- `Reload`. -/
def reload : VipCode Unit := do
  ask VipCall.awaitPid
  let r : Except String Unit ← ask VipCall.sighup
  must (r.mapError ("error reloading keepalived: " ++ ·))

/-- What the goroutines do. -/
inductive VipOp where
  | setBalancer (vip : String) (nodes : List Node)
  | delBalancer (vip : String)
  | configureWithEIP (host : Host) (config : Config) (deleted : Bool)
  | start

/-- The code of an operation; of `Start` it is the part before keepalived is run. -/
def VipOp.code (worker : VipWorker) : VipOp → VipCode Unit
  | .setBalancer vip nodes => do
    must (← ask (VipCall.record worker vip nodes))
    writeCfg worker
    reload
  | .delBalancer vip => do
    let listed : Bool ← ask (VipCall.remove worker vip)
    if listed then do
      writeCfg worker
      reload
    else pure ()
  | .configureWithEIP host config deleted => do
    must (← ask (VipCall.configure worker host config deleted))
  | .start => writeCfg worker

/-! ## The node -/

/-- The speaker, its file and keepalived. -/
structure VipNode where
  tables : KeepAlived
  file : Option String := none
  /-- Who has created the file and is writing it. -/
  writing : VipWorker → Bool := fun _ => false
  /-- Since the goroutine last created the file, another has changed the tables or written the
  file, or was doing so already. -/
  disturbed : VipWorker → Bool := fun _ => false
  /-- `Start` has written its file. -/
  started : Bool := false
  /-- keepalived was run, and the text that the one that is running has read. -/
  launched : Bool := false
  running : Option String := none
  /-- It has been sent a signal and has not read the file since. -/
  pending : Bool := false
  /-- The tables were changed, or the file was touched, and it was not written undisturbed since. -/
  dirty : Bool := true
  /-- The same, or no signal was sent and no keepalived was run since. -/
  owed : Bool := true

namespace VipNode

/-- A goroutine changes something. -/
def stir (s : VipNode) (w : VipWorker) : VipNode :=
  { s with
    disturbed := fun v => s.disturbed v || decide (v ≠ w)
    dirty := true
    owed := true }

/-- The tables are changed.  The file depends on the instances. -/
def change (s : VipNode) (w : VipWorker) (k : KeepAlived) : VipNode :=
  if k.instances = s.tables.instances then { s with tables := k }
  else { s.stir w with tables := k }

/-- Another goroutine is writing the file. -/
def crowded (s : VipNode) (w : VipWorker) : Bool :=
  [VipWorker.lb, .eip, .starter].any fun v => decide (v ≠ w) && s.writing v

/-- The file is created, or truncated. -/
def created (s : VipNode) (w : VipWorker) : VipNode :=
  { s.stir w with
    file := some ""
    writing := Function.update s.writing w true
    disturbed := Function.update (s.stir w).disturbed w (s.crowded w) }

/-- The template has been executed, and this is what is in the file. -/
def executed (s : VipNode) (w : VipWorker) (text : String) (dirty : Bool) : VipNode :=
  { s.stir w with
    file := some text
    writing := Function.update s.writing w false
    dirty := dirty }

/-- The address has an instance. -/
def listed (s : VipNode) (vip : String) : Bool :=
  match s.tables.vips.get vip with
  | none => false
  | some n => (s.tables.instances.get n).isSome

end VipNode

/-- What the calls do.  The file system may fail at any point, and the signal may find no
process. -/
def vipExec (nodeName : String) (T : Set (List Node)) :
    (c : VipCall) → VipNode → VipReply c → VipNode → Prop
  | .record w vip nodes, s, r, s' => ∃ order, s.tables.configs.Ranges order ∧ nodes ∈ T ∧
      r = (s.tables.setBalancer nodeName order (.ok ()) vip nodes).1 ∧
      s' = s.change w (s.tables.setBalancer nodeName order (.ok ()) vip nodes).2
  | .remove w vip, s, r, s' =>
      r = s.listed vip ∧ s' = s.change w (s.tables.delBalancer (.ok ()) vip).2
  | .configure w host config deleted, s, r, s' =>
      r = (s.tables.configureWithEIP host config deleted).1 ∧
      s' = s.change w (s.tables.configureWithEIP host config deleted).2
  | .mkdirAll, s, _, s' => s' = s
  | .create w, s, r, s' =>
      (∃ e, r = .error e) ∧ s' = s ∨ r = .ok () ∧ s' = s.created w
  | .execute w, s, r, s' =>
      (∃ e text, r = .error e ∧ s' = s.executed w text true) ∨
      ∃ text, (s.disturbed w = false → text = cfgText nodeName s.tables.instances) ∧
        r = .ok () ∧ s' = s.executed w text (s.disturbed w)
  | .awaitPid, s, _, s' => s.launched = true ∧ s' = s
  | .sighup, s, r, s' =>
      (∃ e, r = .error e) ∧ s' = s ∨
      r = .ok () ∧ s' = { s with pending := s.running.isSome, owed := s.dirty }

/-- What a reader finds in the file. -/
def VipNode.Reads (s : VipNode) (text : String) : Prop :=
  (∀ w, s.writing w = false) → s.file = some text

/-- What becomes of keepalived: it is run and reads the file, it ends, or it reads the file after
a signal. -/
inductive VipEnv : VipNode → VipNode → Prop
  | launch {s : VipNode} {text : String} : s.started = true → s.running = none → s.Reads text →
      VipEnv s { s with launched := true, running := some text, pending := false, owed := s.dirty }
  | crash {s : VipNode} : VipEnv s { s with running := none, pending := false }
  | load {s : VipNode} {old text : String} : s.running = some old → s.pending = true →
      s.Reads text → VipEnv s { s with running := some text, pending := false }

/-- The goroutines of the speaker, and keepalived. -/
def vipSystem (nodeName : String) (T : Set (List Node)) :
    System VipWorker (VipWorker × VipOp) VipCall VipReply (Except String Unit) VipNode where
  body op := (op.2.code op.1).run
  exec := vipExec nodeName T
  start i op s s' := op.1 = i ∧ (op.2 = .start ↔ i = .starter) ∧
    (i = .starter → s.started = false) ∧ s' = s
  done i _ r s s' := s' =
    if i = .starter ∧ r = .ok () then { s with started := true } else s
  env _ := VipEnv

/-! ## Invariant -/

section Invariant
variable {nodeName : String} {T : Set (List Node)} {s s' : VipNode} {w : VipWorker}

theorem VipNode.crowded_eq_false : s.crowded w = false ↔ ∀ v, v ≠ w → s.writing v = false := by
  constructor
  · intro h v hv
    simp only [VipNode.crowded, List.any_eq_false, Bool.and_eq_true, decide_eq_true_eq, not_and,
      Bool.not_eq_true] at h
    cases v with
    | lb => exact h .lb (by simp) hv
    | eip => exact h .eip (by simp) hv
    | starter => exact h .starter (by simp) hv
  · intro h
    simp only [VipNode.crowded, List.any_eq_false, Bool.and_eq_true, decide_eq_true_eq, not_and,
      Bool.not_eq_true]
    exact fun v _ => h v

/-- What holds of the node between any two steps. -/
structure VipInv (nodeName : String) (T : Set (List Node)) (s : VipNode) : Prop where
  reach : VipReach nodeName T s.tables
  clean : s.dirty = false →
    s.file = some (cfgText nodeName s.tables.instances) ∧ ∀ w, s.writing w = false
  alone : ∀ w, s.writing w = true → s.disturbed w = false → ∀ v, v ≠ w → s.writing v = false
  owed : s.owed = false → s.dirty = false
  loaded : s.owed = false → ∀ t, s.running = some t → s.file = some t ∨ s.pending = true

/-- What the others leave of the state for a goroutine: as long as it is not disturbed, the
file stays right and nothing is owed. -/
def vipRelies (w : VipWorker) (s s' : VipNode) : Prop :=
  s'.writing w = s.writing w ∧ (s'.disturbed w = false → s.disturbed w = false ∧
    (s.dirty = false → s'.dirty = false) ∧ (s.owed = false → s'.owed = false))

theorem vipRelies_refl (w : VipWorker) (s : VipNode) : vipRelies w s s :=
  ⟨rfl, fun h => ⟨h, id, id⟩⟩

theorem vipRelies_trans (w : VipWorker) {a b c : VipNode} (h : vipRelies w a b)
    (h' : vipRelies w b c) : vipRelies w a c := by
  refine ⟨h'.1.trans h.1, fun hc => ?_⟩
  obtain ⟨hb, hdirty', howed'⟩ := h'.2 hc
  obtain ⟨ha, hdirty, howed⟩ := h.2 hb
  exact ⟨ha, fun h => hdirty' (hdirty h), fun h => howed' (howed h)⟩

/-- Whoever is disturbed relies on nothing but its place in the code. -/
theorem vipRelies_of_disturbed (hw : s'.writing w = s.writing w) (h : s'.disturbed w = true) :
    vipRelies w s s' :=
  ⟨hw, fun hnot => by rw [h] at hnot; contradiction⟩

/-- What a call of a goroutine does for the others. -/
def VipGuarantee (nodeName : String) (T : Set (List Node)) (i : VipWorker) (s s' : VipNode) : Prop :=
  VipInv nodeName T s → VipInv nodeName T s' ∧ ∀ j, j ≠ i → vipRelies j s s'

theorem VipGuarantee.same {i : VipWorker} (h : s' = s) : VipGuarantee nodeName T i s s' := by
  subst h
  exact fun hinv => ⟨hinv, fun j _ => vipRelies_refl j s'⟩

theorem VipNode.disturbed_stir {v : VipWorker} (hv : v ≠ w) : (s.stir w).disturbed v = true := by
  simp [VipNode.stir, hv]

/-- A change of the tables. -/
theorem guarantee_change {k : KeepAlived} {r : Except String Unit}
    (hstep : VipStep nodeName T s.tables r k) :
    VipGuarantee nodeName T w s (s.change w k) := by
  intro h
  rw [VipNode.change]
  split
  · rename_i hsame
    refine ⟨⟨h.reach.step hstep, fun hd => ?_, h.alone, h.owed, h.loaded⟩, fun j _ => ?_⟩
    · refine ⟨?_, (h.clean hd).2⟩
      rw [hsame]
      exact (h.clean hd).1
    · exact ⟨rfl, fun hj => ⟨hj, id, id⟩⟩
  · refine ⟨⟨h.reach.step hstep, fun hd => ?_, fun v hv hnot => ?_, fun ho => ?_, fun ho => ?_⟩,
      fun j hj => vipRelies_of_disturbed rfl (VipNode.disturbed_stir hj)⟩
    · cases hd
    · exact h.alone v hv (Bool.or_eq_false_iff.mp hnot).1
    · cases ho
    · cases ho

/-- The file is created. -/
theorem guarantee_created : VipGuarantee nodeName T w s (s.created w) := by
  intro h
  refine ⟨⟨h.reach, fun hd => ?_, fun v hv hnot u hu => ?_, fun ho => ?_, fun ho => ?_⟩,
    fun j hj => ?_⟩
  · cases hd
  · -- who is not disturbed by this is the one that creates the file
    by_cases hvw : v = w
    · subst hvw
      have hfree : s.crowded v = false := by simpa [VipNode.created] using hnot
      simp only [VipNode.created, Function.update_of_ne hu]
      exact VipNode.crowded_eq_false.mp hfree u hu
    · simp only [VipNode.created, Function.update_of_ne hvw, VipNode.disturbed_stir hvw] at hnot
      contradiction
  · cases ho
  · cases ho
  · refine vipRelies_of_disturbed ?_ ?_
    · simp only [VipNode.created, Function.update_of_ne hj]
    · simp only [VipNode.created, Function.update_of_ne hj, VipNode.disturbed_stir hj]

/-- The template is executed.  Who was not disturbed is the only writer. -/
theorem guarantee_executed {text : String} {dirty : Bool} (hw : s.writing w = true)
    (htext : dirty = false →
      s.disturbed w = false ∧ text = cfgText nodeName s.tables.instances) :
    VipGuarantee nodeName T w s (s.executed w text dirty) := by
  intro h
  refine ⟨⟨h.reach, fun hd => ?_, fun v hv hnot => ?_, fun ho => ?_, fun ho => ?_⟩,
    fun j hj => ?_⟩
  · obtain ⟨hnot, rfl⟩ := htext hd
    refine ⟨rfl, fun v => ?_⟩
    by_cases hvw : v = w
    · subst hvw
      simp only [VipNode.executed, Function.update_self]
    · simp only [VipNode.executed, Function.update_of_ne hvw]
      exact h.alone w hw hnot v hvw
  · have hvw : v ≠ w := by
      rintro rfl
      simp only [VipNode.executed, Function.update_self, Bool.false_eq_true] at hv
    have hdist : (s.executed w text dirty).disturbed v = true := VipNode.disturbed_stir hvw
    rw [hdist] at hnot
    contradiction
  · cases ho
  · cases ho
  · refine vipRelies_of_disturbed ?_ (VipNode.disturbed_stir hj)
    simp only [VipNode.executed, Function.update_of_ne hj]

/-- The signal is sent. -/
theorem guarantee_sighup :
    VipGuarantee nodeName T w s { s with pending := s.running.isSome, owed := s.dirty } := by
  intro h
  refine ⟨⟨h.reach, h.clean, h.alone, id, fun _ t ht => .inr ?_⟩,
    fun j _ => ⟨rfl, fun hj => ⟨hj, id, h.owed⟩⟩⟩
  have hrun : s.running = some t := ht
  show s.running.isSome = true
  rw [hrun]
  rfl

/-! ## The methods -/

/-- Safe code of the goroutine. -/
def VipSafe (nodeName : String) (T : Set (List Node)) (i : VipWorker)
    (Q : List (Event VipCall VipReply) → Except String Unit → VipNode → Prop)
    (log : List (Event VipCall VipReply)) (p : Prog VipCall VipReply (Except String Unit))
    (s : VipNode) : Prop :=
  Safe (vipExec nodeName T) (vipRelies i) (fun _ _ _ _ => VipGuarantee nodeName T i) Q log p s

variable {log : List (Event VipCall VipReply)}

/-- A file that was written undisturbed is right as long as that lasts. -/
theorem safe_writeCfg :
    VipSafe nodeName T w (fun _ => either (fun _ s => s.disturbed w = false → s.dirty = false)
      fun _ _ => True) log (writeCfg w).run s := by
  intro s₁ r₁ s₁' _ he₁
  refine ⟨.same he₁, ?_⟩
  rcases r₁ with e | u
  · exact fun _ _ => trivial
  intro s₂ r₂ s₂' _ he₂
  rcases he₂ with ⟨⟨e, rfl⟩, hs₂⟩ | ⟨rfl, rfl⟩
  · exact ⟨.same hs₂, fun _ _ => trivial⟩
  refine ⟨guarantee_created, ?_⟩
  intro s₃ r₃ s₃' hR₃ he₃
  have hwriting : s₃.writing w = true := by
    rw [hR₃.1]
    exact Function.update_self ..
  rcases he₃ with ⟨e, text, rfl, rfl⟩ | ⟨text, htext, rfl, rfl⟩
  · refine ⟨guarantee_executed hwriting fun hd => ?_, fun _ _ => trivial⟩
    cases hd
  · refine ⟨guarantee_executed hwriting fun hd => ⟨hd, htext hd⟩, fun s₄ hR hnot => ?_⟩
    obtain ⟨hnot', hdirty, -⟩ := hR.2 hnot
    refine hdirty (?_ : s₃.disturbed w = false)
    exact (Bool.or_eq_false_iff.mp hnot').1

theorem safe_reload (hclean : s.disturbed w = false → s.dirty = false) :
    VipSafe nodeName T w (fun _ => either (fun _ s => s.disturbed w = false → s.owed = false)
      fun _ _ => True) log reload.run s := by
  intro s₁ r₁ s₁' hR₁ he₁
  refine ⟨.same he₁.2, ?_⟩
  intro s₂ r₂ s₂' hR₂ he₂
  rcases he₂ with ⟨⟨e, rfl⟩, hs₂⟩ | ⟨rfl, rfl⟩
  · exact ⟨.same hs₂, fun _ _ => trivial⟩
  · refine ⟨guarantee_sighup, fun s₃ hR hnot => ?_⟩
    obtain ⟨hnot₂, -, howed⟩ := hR.2 hnot
    obtain ⟨hnot₁, hdirty₂, -⟩ := hR₂.2 hnot₂
    rw [he₁.2] at hnot₁ hdirty₂
    obtain ⟨hnot₀, hdirty₁, -⟩ := hR₁.2 hnot₁
    exact howed (hdirty₂ (hdirty₁ (hclean hnot₀)))

/-- The file is written, and the signal sent. -/
theorem safe_publish :
    VipSafe nodeName T w (fun _ r s => r = .ok () → s.disturbed w = false → s.owed = false) log
      (writeCfg w >>= fun _ => reload).run s := by
  refine Safe.except_bind (vipRelies_refl w) ?_
  refine safe_writeCfg.mono (fun _ _ _ _ _ _ h => h) fun log r s hr => ?_
  rcases r with e | u
  · exact fun _ _ he => by cases he
  · refine (safe_reload hr).mono (fun _ _ _ _ _ _ h => h) fun log r s hr he => ?_
    rw [he] at hr
    exact hr

/-- What an operation leaves when it returns. -/
def vipEnds (op : VipWorker × VipOp) (log : List (Event VipCall VipReply))
    (r : Except String Unit) (s : VipNode) : Prop :=
  match op.2 with
  | .setBalancer _ _ => r = .ok () → s.disturbed op.1 = false → s.owed = false
  | .delBalancer vip => r = .ok () →
      (⟨.remove op.1 vip, false⟩ : Event VipCall VipReply) ∈ log ∨
        (s.disturbed op.1 = false → s.owed = false)
  | .configureWithEIP _ _ _ | .start => True

theorem safe_setBalancer (vip : String) (nodes : List Node) :
    VipSafe nodeName T w (vipEnds (w, .setBalancer vip nodes)) log
      ((VipOp.setBalancer vip nodes).code w).run s := by
  intro s₁ r₁ s₁' _ he₁
  obtain ⟨order, horder, hnodes, rfl, rfl⟩ := he₁
  refine ⟨guarantee_change (.setBalancer order (.ok ()) vip nodes horder hnodes), ?_⟩
  rcases (s₁.tables.setBalancer nodeName order (.ok ()) vip nodes).1 with e | u
  · exact fun _ _ he => by cases he
  · exact safe_publish

theorem safe_delBalancer (vip : String) :
    VipSafe nodeName T w (vipEnds (w, .delBalancer vip)) log
      ((VipOp.delBalancer vip).code w).run s := by
  intro s₁ r₁ s₁' _ he₁
  obtain ⟨hr₁, rfl⟩ := he₁
  refine ⟨guarantee_change (.delBalancer (.ok ()) vip), ?_⟩
  cases r₁ with
  | false => exact fun _ _ _ => .inl (List.mem_append_right _ List.mem_cons_self)
  | true => exact safe_publish.mono (fun _ _ _ _ _ _ h => h) fun _ _ _ h he => .inr (h he)

theorem safe_configureWithEIP (host : Host) (config : Config) (deleted : Bool) :
    VipSafe nodeName T w (vipEnds (w, .configureWithEIP host config deleted)) log
      ((VipOp.configureWithEIP host config deleted).code w).run s := by
  intro s₁ r₁ s₁' _ he₁
  obtain ⟨rfl, rfl⟩ := he₁
  exact ⟨guarantee_change (.configureWithEIP host config deleted), fun _ _ => trivial⟩

/-! ## Runs -/

/-- A file that is right is read as it is. -/
theorem VipInv.reads (h : VipInv nodeName T s) {text : String} (hr : s.Reads text)
    (hd : s.dirty = false) : s.file = some text :=
  hr (h.clean hd).2

/-- A step of keepalived. -/
theorem VipInv.env (h : VipInv nodeName T s) (he : VipEnv s s') :
    VipInv nodeName T s' ∧ ∀ j, vipRelies j s s' := by
  cases he with
  | launch _ _ hr =>
    refine ⟨⟨h.reach, h.clean, h.alone, id, fun ho t ht => .inl ?_⟩,
      fun j => ⟨rfl, fun hj => ⟨hj, id, h.owed⟩⟩⟩
    obtain rfl := Option.some_inj.mp ht
    exact h.reads hr ho
  | crash =>
    refine ⟨⟨h.reach, h.clean, h.alone, h.owed, fun _ t ht => ?_⟩,
      fun j => ⟨rfl, fun hj => ⟨hj, id, id⟩⟩⟩
    cases ht
  | load _ _ hr =>
    refine ⟨⟨h.reach, h.clean, h.alone, h.owed, fun ho t ht => .inl ?_⟩,
      fun j => ⟨rfl, fun hj => ⟨hj, id, id⟩⟩⟩
    obtain rfl := Option.some_inj.mp ht
    exact h.reads hr (h.owed ho)

theorem vip_relyGuarantee (nodeName : String) (T : Set (List Node)) :
    (vipSystem nodeName T).RelyGuarantee (VipInv nodeName T) vipRelies
      (fun i _ _ _ _ _ => VipGuarantee nodeName T i) (fun _ => vipEnds) where
  refl := vipRelies_refl
  trans i _ _ _ := vipRelies_trans i
  start i op s s' h hst := by
    obtain ⟨w, op⟩ := op
    obtain ⟨rfl, -, -, rfl⟩ := hst
    refine ⟨h, ?_, fun j _ => vipRelies_refl j _⟩
    cases op with
    | setBalancer vip nodes => exact safe_setBalancer vip nodes
    | delBalancer vip => exact safe_delBalancer vip
    | configureWithEIP host config deleted => exact safe_configureWithEIP host config deleted
    | start => exact safe_writeCfg.mono (fun _ _ _ _ _ _ h => h) fun _ _ _ _ => trivial
  call i op log c r q s s' h hg := hg h
  done i op log r s s' h _ hd := by
    obtain rfl := hd
    split
    · exact ⟨⟨h.reach, h.clean, h.alone, h.owed, h.loaded⟩,
        fun j _ => ⟨rfl, fun hj => ⟨hj, id, id⟩⟩⟩
    · exact ⟨h, fun j _ => vipRelies_refl j s⟩
  env _ s s' h he := h.env he

/-- A speaker before its first call. -/
def VipFirst (s : VipNode) : Prop := ∃ k, newKeepAlived = some k ∧ s = { tables := k }

theorem vipInv_of_reach
    {c : Conf VipWorker (VipWorker × VipOp) VipCall VipReply (Except String Unit) VipNode}
    (hc : (vipSystem nodeName T).Reach VipFirst c) :
    VipInv nodeName T c.state ∧ ∀ i t, c.task i = some t →
      VipSafe nodeName T i (vipEnds t.op) t.log t.rest c.state := by
  refine (vip_relyGuarantee nodeName T).safe ?_ hc
  rintro s ⟨k, hk, rfl⟩
  refine ⟨.new hk, fun h => ?_, fun w h => ?_, fun h => ?_, fun _ t ht => ?_⟩
  · cases h
  · cases h
  · cases h
  · cases ht

/-- **keepalived runs what the speaker says.**  However the methods that the two reconcilers call,
`Start`, the ends and starts of keepalived and its reading interleave, and whatever fails:

* If the file was right when a signal was last sent or keepalived was last run, nothing was changed
  or written since, and keepalived has reacted, it runs with the file of the present tables.
* A `SetBalancer` that returns nil leaves nothing else owed, and so does a `DelBalancer` that
  returns nil and found something to remove, unless another goroutine has changed the tables or
  written the file since it began to write. -/
theorem keepalived_current
    {c : Conf VipWorker (VipWorker × VipOp) VipCall VipReply (Except String Unit) VipNode}
    (hc : (vipSystem nodeName T).Reach VipFirst c) :
    (∀ t, c.state.running = some t → c.state.owed = false → c.state.pending = false →
      t = cfgText nodeName c.state.tables.instances) ∧
    (∀ w op log, c.task w = some ⟨(w, op), log, .ret (.ok ())⟩ →
      (∃ vip nodes, op = .setBalancer vip nodes) ∨
        (∃ vip, op = .delBalancer vip ∧
          (⟨.remove w vip, false⟩ : Event VipCall VipReply) ∉ log) →
      c.state.disturbed w = false → c.state.owed = false) ∧
    VipReach nodeName T c.state.tables := by
  obtain ⟨hinv, hsafe⟩ := vipInv_of_reach hc
  refine ⟨fun t ht howed hpending => ?_, fun w op log htask hop hnot => ?_, hinv.reach⟩
  · have hfresh := (hinv.clean (hinv.owed howed)).1
    rcases hinv.loaded howed t ht with hfile | hp
    · exact Option.some_inj.mp (hfile.symm.trans hfresh)
    · rw [hpending] at hp
      cases hp
  · have hends := hsafe w _ htask c.state (vipRelies_refl w _)
    rcases hop with ⟨vip, nodes, rfl⟩ | ⟨vip, rfl, hfound⟩
    · exact hends rfl hnot
    · exact (hends rfl).resolve_left hfound hnot

end Invariant

/-- Answers with which nothing fails. -/
def vipAnswer : (c : VipCall) → VipNode → Option (VipReply c × VipNode)
  | .record w vip nodes, s =>
    if s.tables.configs.Ranges ["pool"] then
      some ((s.tables.setBalancer "node1" ["pool"] (.ok ()) vip nodes).1,
        s.change w (s.tables.setBalancer "node1" ["pool"] (.ok ()) vip nodes).2)
    else none
  | .remove w vip, s => some (s.listed vip, s.change w (s.tables.delBalancer (.ok ()) vip).2)
  | .configure w host config deleted, s =>
    some ((s.tables.configureWithEIP host config deleted).1,
      s.change w (s.tables.configureWithEIP host config deleted).2)
  | .mkdirAll, s => some (.ok (), s)
  | .create w, s => some (.ok (), s.created w)
  | .execute w, s => some (.ok (),
      s.executed w (cfgText "node1" s.tables.instances) (s.disturbed w))
  | .awaitPid, s => if s.launched then some ((), s) else none
  | .sighup, s => some (.ok (), { s with pending := s.running.isSome, owed := s.dirty })

theorem vipExec_of_answer (x : VipCall) (s : VipNode) (r : VipReply x) (s' : VipNode)
    (h : vipAnswer x s = some (r, s')) : vipExec "node1" Set.univ x s r s' := by
  cases x with
  | record w vip nodes =>
    rw [vipAnswer] at h
    split at h
    · rename_i horder
      cases h
      exact ⟨["pool"], horder, trivial, rfl, rfl⟩
    · cases h
  | remove w vip =>
    cases h
    exact ⟨rfl, rfl⟩
  | configure w host config deleted =>
    cases h
    exact ⟨rfl, rfl⟩
  | mkdirAll =>
    cases h
    rfl
  | create w =>
    cases h
    exact .inr ⟨rfl, rfl⟩
  | execute w =>
    cases h
    exact .inr ⟨_, fun _ => rfl, rfl, rfl⟩
  | awaitPid =>
    rw [vipAnswer] at h
    split at h
    · rename_i hl
      cases h
      exact ⟨hl, rfl⟩
    · cases h
  | sighup =>
    cases h
    exact .inr ⟨rfl, rfl⟩

/-- The node after an operation. -/
def VipNode.afterOp (s : VipNode) (w : VipWorker) (op : VipOp) : VipNode :=
  (op.code w).run.after vipAnswer s

/-- The pool is configured and `Start` has written its file. -/
def startedVip (k : KeepAlived) : VipNode :=
  let s : VipNode := { tables := k }
  let s := (s.afterOp .eip (.configureWithEIP vipHost vipConfig false)).afterOp .starter .start
  { s with started := true }

/-- keepalived is run with the file. -/
def launchedVip (k : KeepAlived) : VipNode :=
  let s := startedVip k
  { s with
    launched := true
    running := some (cfgText "node1" s.tables.instances)
    pending := false
    owed := s.dirty }

/-- Then an address is given to the node, and keepalived has read the file. -/
def announcedVip (k : KeepAlived) : VipNode :=
  let s := (launchedVip k).afterOp .lb (.setBalancer "192.0.2.1" [{ name := "node1" }])
  { s with running := some (cfgText "node1" s.tables.instances), pending := false }

/-- An address that was given to the node is announced. -/
theorem keepalived_current_announced :
    ∃ (c : Conf VipWorker (VipWorker × VipOp) VipCall VipReply (Except String Unit) VipNode)
      (t : String),
      (vipSystem "node1" Set.univ).Reach VipFirst c ∧ c.state.running = some t ∧
      t = cfgText "node1" c.state.tables.instances ∧
      (enabledInstances c.state.tables.instances).map (fun e => e.2.svcips) = [["192.0.2.1"]] := by
  have hrun : (newKeepAlived.map fun k => decide (
      ((VipOp.configureWithEIP vipHost vipConfig false).code .eip).run.returns vipAnswer
        { tables := k } = some (.ok ()) ∧
      (VipNode.afterOp { tables := k } .eip (.configureWithEIP vipHost vipConfig false)).started =
        false ∧
      (VipOp.start.code .starter).run.returns vipAnswer
        (VipNode.afterOp { tables := k } .eip (.configureWithEIP vipHost vipConfig false)) =
          some (.ok ()) ∧
      (startedVip k).running = none ∧ (startedVip k).dirty = false ∧
      ((VipOp.setBalancer "192.0.2.1" [{ name := "node1" }]).code .lb).run.returns vipAnswer
        (launchedVip k) = some (.ok ()))) = some true ∧
    (newKeepAlived.map fun k => decide (
      ((launchedVip k).afterOp .lb (.setBalancer "192.0.2.1" [{ name := "node1" }])).running.isSome ∧
      ((launchedVip k).afterOp .lb (.setBalancer "192.0.2.1" [{ name := "node1" }])).pending = true ∧
      ((launchedVip k).afterOp .lb (.setBalancer "192.0.2.1" [{ name := "node1" }])).dirty = false ∧
      (announcedVip k).owed = false ∧
      (enabledInstances (announcedVip k).tables.instances).map (fun e => e.2.svcips) =
        [["192.0.2.1"]])) = some true := by
    decide +kernel
  obtain ⟨k, hk, he⟩ := Option.map_eq_some_iff.mp hrun.1
  obtain ⟨hret₁, hnot, hret₂, hnone, hclean, hret₃⟩ := of_decide_eq_true he
  have he' := hrun.2
  rw [hk] at he'
  obtain ⟨hrunning, hpending, hclean', howed, hips⟩ := of_decide_eq_true (Option.some_inj.mp he')
  have hdone : ∀ (w : VipWorker) (op : VipOp) (s : VipNode), w ≠ .starter →
      (vipSystem "node1" Set.univ).done w (w, op) (.ok ()) s s := by
    intro w op s hw
    simp [vipSystem, hw]
  have hstart : ∀ (w : VipWorker) (op : VipOp) (s : VipNode), w ≠ .starter → op ≠ .start →
      (vipSystem "node1" Set.univ).start w (w, op) s s :=
    fun w op s hw hop => ⟨rfl, iff_of_false hop hw, fun h => absurd h hw, rfl⟩
  -- what is read from a file that is right
  have hreads : ∀ {c : Conf VipWorker (VipWorker × VipOp) VipCall VipReply (Except String Unit)
      VipNode}, (vipSystem "node1" Set.univ).Reach VipFirst c → c.state.dirty = false →
      c.state.Reads (cfgText "node1" c.state.tables.instances) := by
    intro c hc hd
    exact fun _ => ((vipInv_of_reach hc).1.clean hd).1
  have h₀ : (vipSystem "node1" Set.univ).Reach VipFirst ⟨{ tables := k }, fun _ => none⟩ :=
    .init ⟨k, hk, rfl⟩
  have h₁ := h₀.perform vipExec_of_answer rfl
    (hstart .eip (.configureWithEIP vipHost vipConfig false) _ (by decide) (by simp))
    (eval_of_returns hret₁) (hdone .eip _ _ (by decide))
  have h₂ := h₁.perform vipExec_of_answer rfl
    (show (vipSystem "node1" Set.univ).start .starter (.starter, .start) _ _ from
      ⟨rfl, iff_of_true rfl rfl, fun _ => hnot, rfl⟩) (eval_of_returns hret₂) rfl
  have h₃ := h₂.step (.env _ (.launch rfl hnone (hreads h₂ hclean)))
  have h₄ := h₃.perform vipExec_of_answer rfl
    (hstart .lb (.setBalancer "192.0.2.1" [{ name := "node1" }]) _ (by decide) (by simp))
    (eval_of_returns hret₃) (hdone .lb _ _ (by decide))
  obtain ⟨t₀, ht₀⟩ := Option.isSome_iff_exists.mp hrunning
  have h₅ := h₄.step (.env _ (.load ht₀ hpending (hreads h₄ hclean')))
  exact ⟨_, _, h₅, rfl, (keepalived_current h₅).1 _ rfl howed rfl, hips⟩

end OpenELB
