import OpenELB.BgpConf
import OpenELB.ProgSteps

/-! # The status of the BGP configuration

The status of the object `BgpConf` with the name "default" has an entry for every node: the
router id and the AS number that gobgp runs with there.  The speakers of all nodes write to
it, each for its own node.  When it starts, a speaker erases the whole status
(`CleanBgpConfStatus`), and every few seconds it reads the object, asks its gobgp and writes
the object back if its entry has changed (`updateConfStatus`).  Reads come from a cache and
may be old, writes are conditional on the version that was read.

A write that goes through therefore erases all entries, or changes the entry of the node
that makes it and no other, to what its gobgp has just said; and no entry was said by
anybody but the gobgp of its node (`conf_status_owned`). -/
namespace OpenELB.Bgp
open Go Prog Threads

/-- `NodeConfStatus`. -/
structure NodeConfStatus where
  routerId : String := ""
  as : Nat := 0
  deriving DecidableEq

/-- `BgpConf`, with its status. -/
structure ConfObject where
  conf : BgpConf
  nodesConfStatus : Map String NodeConfStatus := Map.nil
  deriving DecidableEq

/-- The name it is stored under. -/
def ConfObject.name (o : ConfObject) : String := o.conf.name

/-! ## The code -/

/-- What the code asks of the API server and of the gobgp of a node. -/
inductive StatusCall where
  | getBgpConf (name : String)
  /-- `GetBgp`, for the global configuration. -/
  | getBgp (nodeName : String)
  /-- `Status().Update`. -/
  | updateStatus (v : Version ConfObject)

/-- The types of the answers. -/
abbrev StatusReply : StatusCall → Type
  | .getBgpConf _ | .updateStatus _ => Except ApiErr (Version ConfObject)
  | .getBgp _ => Except String NodeConfStatus

/-- The entry of the own node in what `GetBgpConfStatus` returns. -/
def confStatusOf : Except String NodeConfStatus → NodeConfStatus
  | .error _ => { routerId := "", as := 0 }
  | .ok global => global

/-- `CleanBgpConfStatus`. -/
def cleanBgpConfStatus : Prog StatusCall StatusReply (Except ApiErr Unit) :=
  .call (.getBgpConf "default") fun
    | .error .notFound => .ret (.ok ())
    | .error e => .ret (.error e)
    | .ok inst =>
      if inst.obj.nodesConfStatus = Map.nil then .ret (.ok ())
      else .call (.updateStatus ⟨inst.rv, { inst.obj with nodesConfStatus := Map.nil }⟩) fun
        | .error e => .ret (.error e)
        | .ok _ => .ret (.ok ())

/-- The status with the entry of a node. -/
def withConfStatus (status : Map String NodeConfStatus) (nodeName : String) (st : NodeConfStatus) :
    Map String NodeConfStatus :=
  (if status.isNil then Map.empty else status).set nodeName st

/-- `updateConfStatus`, on the node of the given name.  It returns nothing. -/
def updateConfStatus (nodeName : String) : Prog StatusCall StatusReply (Except ApiErr Unit) :=
  .call (.getBgpConf "default") fun
    | .error _ => .ret (.ok ())
    | .ok inst => .call (.getBgp nodeName) fun result =>
      let status := withConfStatus inst.obj.nodesConfStatus nodeName (confStatusOf result)
      if status = inst.obj.nodesConfStatus then .ret (.ok ())
      else .call (.updateStatus ⟨inst.rv, { inst.obj with nodesConfStatus := status }⟩) fun _ =>
        .ret (.ok ())

/-! ## The nodes -/

/-- The objects, the gobgp of every node, and what each gobgp has said; one that fails counts as
having said nothing but zeros. -/
structure StatusState where
  store : VStore ConfObject.name
  gobgp : String → Except String NodeConfStatus
  said : List (String × NodeConfStatus)

/-- What the status part of an update makes of the stored object; an empty map is not
stored. -/
def setStatus (v : Version ConfObject) (o : ConfObject) : Option ConfObject :=
  some { o with nodesConfStatus := v.obj.nodesConfStatus.omitEmpty }

/-- The answers of the API server and of gobgp. -/
def statusExec (f : Faults) : (c : StatusCall) → StatusState → StatusReply c → StatusState → Prop
  | .getBgpConf name, s, r, s' => s.store.Reads f name r ∧ s' = s
  | .getBgp nodeName, s, r, s' =>
    r = s.gobgp nodeName ∧ s' = { s with said := (nodeName, confStatusOf r) :: s.said }
  | .updateStatus v, s, r, s' =>
    ∃ store, s.store.Writes f v (setStatus v) r store ∧ s' = { s with store := store }

/-- What else happens: gobgp is configured anew on some nodes, an object is created, which has
no status then, or its other parts are changed, or it is deleted. -/
inductive StatusEnv : StatusState → StatusState → Prop
  | gobgp (s : StatusState) (g : String → Except String NodeConfStatus) :
      StatusEnv s { s with gobgp := g }
  | create (s : StatusState) (conf : BgpConf) : s.store.get conf.name = none →
      StatusEnv s { s with store := s.store.put { conf := conf } }
  | edit (s : StatusState) (name : String) (change : BgpConf → Option BgpConf) :
      (∀ c c', change c = some c' → c'.name = c.name) →
      StatusEnv s { s with store := s.store.modify name fun o =>
        (change o.conf).map fun c => { o with conf := c } }

/-- What a speaker does. -/
inductive StatusOp where
  | clean
  | update (nodeName : String)

/-- The speakers of all nodes. -/
def confSpeakers (f : Faults) :
    System String StatusOp StatusCall StatusReply (Except ApiErr Unit) StatusState where
  body
    | .clean => cleanBgpConfStatus
    | .update nodeName => updateConfStatus nodeName
  exec := statusExec f
  start i op s s' := s' = s ∧ (op = .clean ∨ op = .update i)
  done _ _ _ s s' := s' = s
  env _ := StatusEnv

/-- The configurations that the speakers get to, from a cluster without the object. -/
abbrev StatusReach (f : Faults) :=
  (confSpeakers f).Reach fun s => s.store = VStore.empty ∧ s.said = []

/-! ## Which version is written -/

theorem clean_leads_updateStatus {log : List (Event StatusCall StatusReply)} {v : Version ConfObject}
    {κ : StatusReply (.updateStatus v) → Prog StatusCall StatusReply (Except ApiErr Unit)}
    (h : Leads cleanBgpConfStatus log (.call (.updateStatus v) κ)) :
    ∃ inst, ⟨.getBgpConf "default", .ok inst⟩ ∈ log ∧
      v = ⟨inst.rv, { inst.obj with nodesConfStatus := Map.nil }⟩ := by
  obtain ⟨r, l, rfl, h₁⟩ := h.of_ne (by simp)
  rcases r with (_ | _ | _) | inst
  · exact h₁.not_ret.elim
  · exact h₁.not_ret.elim
  · exact h₁.not_ret.elim
  refine ⟨inst, List.mem_cons_self, ?_⟩
  by_cases hnil : inst.obj.nodesConfStatus = Map.nil
  · simp only [if_pos hnil] at h₁
    exact h₁.not_ret.elim
  simp only [if_neg hnil] at h₁
  rcases leads_call_iff.mp h₁ with ⟨-, he⟩ | ⟨r, l', rfl, h₂⟩
  · exact StatusCall.updateStatus.inj (Option.some.inj (congrArg nextCall he))
  · rcases r with e | w
    · exact h₂.not_ret.elim
    · exact h₂.not_ret.elim

theorem update_leads_updateStatus {nodeName : String} {log : List (Event StatusCall StatusReply)}
    {v : Version ConfObject}
    {κ : StatusReply (.updateStatus v) → Prog StatusCall StatusReply (Except ApiErr Unit)}
    (h : Leads (updateConfStatus nodeName) log (.call (.updateStatus v) κ)) :
    ∃ inst result, ⟨.getBgpConf "default", .ok inst⟩ ∈ log ∧ ⟨.getBgp nodeName, result⟩ ∈ log ∧
      v = ⟨inst.rv, { inst.obj with
        nodesConfStatus := withConfStatus inst.obj.nodesConfStatus nodeName (confStatusOf result) }⟩ := by
  obtain ⟨r, l, rfl, h₁⟩ := h.of_ne (by simp)
  rcases r with e | inst
  · exact h₁.not_ret.elim
  obtain ⟨result, l', rfl, h₂⟩ := h₁.of_ne (by simp)
  refine ⟨inst, result, List.mem_cons_self, List.mem_cons_of_mem _ List.mem_cons_self, ?_⟩
  by_cases hsame : withConfStatus inst.obj.nodesConfStatus nodeName (confStatusOf result) =
      inst.obj.nodesConfStatus
  · simp only [if_pos hsame] at h₂
    exact h₂.not_ret.elim
  simp only [if_neg hsame] at h₂
  rcases leads_call_iff.mp h₂ with ⟨-, he⟩ | ⟨r, l'', rfl, h₃⟩
  · exact StatusCall.updateStatus.inj (Option.some.inj (congrArg nextCall he))
  · exact h₃.not_ret.elim

/-! ## What is known of a call -/

section Runs
variable {f : Faults} {c d : Conf String StatusOp StatusCall StatusReply (Except ApiErr Unit) StatusState}

theorem setStatus_name (v : Version ConfObject) (a b : ConfObject) (h : setStatus v a = some b) :
    b.name = a.name := by
  obtain rfl := Option.some.inj h
  rfl

/-- No version is forgotten, and nothing that was said. -/
theorem status_step_later (hs : (confSpeakers f).Step c d) :
    c.state.store.Later d.state.store ∧ ∀ x ∈ c.state.said, x ∈ d.state.said := by
  cases hs with
  | start i op s hi hst =>
    obtain ⟨rfl, -⟩ := hst
    exact ⟨.refl _, fun _ h => h⟩
  | call i op log x κ r s hi he =>
    cases x with
    | getBgpConf name =>
      obtain ⟨-, rfl⟩ := he
      exact ⟨.refl _, fun _ h => h⟩
    | getBgp nodeName =>
      obtain ⟨-, rfl⟩ := he
      exact ⟨.refl _, fun _ h => List.mem_cons_of_mem _ h⟩
    | updateStatus v =>
      obtain ⟨store, hw, rfl⟩ := he
      exact ⟨hw.later, fun _ h => h⟩
  | done i op log a s hi hd =>
    obtain rfl := hd
    exact ⟨.refl _, fun _ h => h⟩
  | env s he =>
    cases he with
    | gobgp g => exact ⟨.refl _, fun _ h => h⟩
    | create conf _ => exact ⟨VStore.later_put _ _, fun _ h => h⟩
    | edit name change _ => exact ⟨VStore.later_modify _ _ _, fun _ h => h⟩

/-- An object that was read is a version of the store, and what gobgp said was said. -/
def Known (s : StatusState) (ev : Event StatusCall StatusReply) : Prop :=
  (∀ name inst, ev = ⟨.getBgpConf name, .ok inst⟩ → inst ∈ s.store.log ∧ inst.obj.name = name) ∧
    ∀ nodeName result, ev = ⟨.getBgp nodeName, result⟩ → (nodeName, confStatusOf result) ∈ s.said

theorem known_of_reach (hc : StatusReach f c) {i : String}
    {t : Task StatusOp StatusCall StatusReply (Except ApiErr Unit)} (ht : c.task i = some t) :
    ∀ ev ∈ t.log, Known c.state ev := by
  refine hc.events ?_ ?_ ht
  · intro x s r s' he
    cases x with
    | getBgpConf name =>
      obtain ⟨hread, rfl⟩ := he
      refine ⟨fun name' inst heq => ?_, fun nodeName result heq => ?_⟩
      · cases heq
        exact hread.mem_log
      · exact absurd (Event.mk.inj heq).1 (by simp)
    | getBgp nodeName =>
      obtain ⟨-, rfl⟩ := he
      refine ⟨fun name' inst heq => ?_, fun nodeName' result heq => ?_⟩
      · exact absurd (Event.mk.inj heq).1 (by simp)
      · cases heq
        exact List.mem_cons_self
    | updateStatus v =>
      refine ⟨fun name' inst heq => ?_, fun nodeName' result heq => ?_⟩
      · exact absurd (Event.mk.inj heq).1 (by simp)
      · exact absurd (Event.mk.inj heq).1 (by simp)
  · intro c d hs ev hev
    obtain ⟨hlater, hsaid⟩ := status_step_later hs
    refine ⟨fun name inst heq => ?_, fun nodeName result heq => hsaid _ (hev.2 nodeName result heq)⟩
    obtain ⟨hlog, hname⟩ := hev.1 name inst heq
    exact ⟨hlater _ hlog, hname⟩

/-- What a write of the speaker of a node makes of the stored object: the status is erased, or
the entry of the node is what its gobgp said to the speaker just before; nothing else
changes. -/
def OwnWrite (nodeName : String) (op : StatusOp) (log : List (Event StatusCall StatusReply))
    (o o' : ConfObject) : Prop :=
  o'.conf = o.conf ∧
    (op = .clean ∧ (∀ m, o'.nodesConfStatus.get m = none) ∨
      op = .update nodeName ∧ ∃ result, ⟨.getBgp nodeName, result⟩ ∈ log ∧
        ∀ m, o'.nodesConfStatus.get m =
          if m = nodeName then some (confStatusOf result) else o.nodesConfStatus.get m)

theorem get_withConfStatus (status : Map String NodeConfStatus) (nodeName m : String)
    (st : NodeConfStatus) :
    (withConfStatus status nodeName st).get m = if m = nodeName then some st else status.get m := by
  rw [withConfStatus, Map.get_set]
  by_cases hm : m = nodeName
  · rw [if_pos hm, if_pos hm]
  · rw [if_neg hm, if_neg hm]
    by_cases hnil : status.isNil = true
    · obtain rfl : status = Map.nil := Option.isNone_iff_eq_none.mp hnil
      rw [if_pos hnil, Map.get_empty, Map.get_nil]
    · rw [if_neg hnil]

/-- **One write**: it does nothing, or replaces the object it was made for by its own write. -/
theorem updateStatus_exact (hc : StatusReach f c) {i : String} {op : StatusOp}
    {log : List (Event StatusCall StatusReply)} {v : Version ConfObject}
    {κ : StatusReply (.updateStatus v) → Prog StatusCall StatusReply (Except ApiErr Unit)}
    {r : StatusReply (.updateStatus v)} {s : StatusState}
    (hi : c.task i = some ⟨op, log, .call (.updateStatus v) κ⟩)
    (he : statusExec f (.updateStatus v) c.state r s) :
    s = c.state ∨ ∃ w w', c.state.store.get "default" = some w ∧ s.store.get "default" = some w' ∧
      s.said = c.state.said ∧ OwnWrite i op log w.obj w'.obj := by
  have hknown := known_of_reach hc hi
  have hop : op = .clean ∨ op = .update i :=
    System.Reach.started (S := confSpeakers f) (fun _ _ _ _ hst => hst.2) hc hi
  -- the version sent is one that was read, with another status
  obtain ⟨inst, hread, hrv, hconf, hwrite⟩ : ∃ inst, ⟨.getBgpConf "default", .ok inst⟩ ∈ log ∧
      v.rv = inst.rv ∧ v.obj.conf = inst.obj.conf ∧
      OwnWrite i op log inst.obj { inst.obj with nodesConfStatus := v.obj.nodesConfStatus.omitEmpty } := by
    rcases hop with rfl | rfl
    · obtain ⟨inst, hread, rfl⟩ := clean_leads_updateStatus (hc.leads hi)
      exact ⟨inst, hread, rfl, rfl, rfl, .inl ⟨rfl, fun m => by simp⟩⟩
    · obtain ⟨inst, result, hread, hsaid, rfl⟩ := update_leads_updateStatus (hc.leads hi)
      refine ⟨inst, hread, rfl, rfl, rfl, .inr ⟨rfl, result, hsaid, fun m => ?_⟩⟩
      rw [Map.get_omitEmpty, get_withConfStatus]
  obtain ⟨hlog, hname⟩ := (hknown _ hread).1 _ _ rfl
  have hkey : v.obj.name = "default" := by
    rw [ConfObject.name, hconf]
    exact hname
  obtain ⟨store, hw, rfl⟩ := he
  rcases hw.cases (setStatus_name v) with ⟨rfl, -⟩ | ⟨w, happ, -⟩
  · exact .inl rfl
  · -- it was carried out, so what was read is what is stored
    obtain rfl := happ.eq_read hlog hrv
    obtain ⟨w', hw', hobj⟩ := Option.map_eq_some_iff.mp happ.obj
    rw [hkey] at hw'
    refine .inr ⟨w, w', hkey ▸ happ.found, hw', rfl, ?_⟩
    rw [hobj]
    exact hwrite

/-- **The invariant of a whole run**: every entry was said by the gobgp of its node. -/
theorem entries_said (hc : StatusReach f c) {v : Version ConfObject} {m : String} {st : NodeConfStatus}
    (hv : c.state.store.get "default" = some v) (hst : v.obj.nodesConfStatus.get m = some st) :
    (m, st) ∈ c.state.said := by
  induction hc generalizing v with
  | init hs =>
    rw [hs.1, VStore.get_empty] at hv
    contradiction
  | @step c d hc hs ih =>
    have hlater := (status_step_later hs).2
    cases hs with
    | start i op s hi hst' =>
      obtain ⟨rfl, -⟩ := hst'
      exact ih hv hst
    | call i op log x κ r s hi he =>
      cases x with
      | getBgpConf name =>
        obtain ⟨-, rfl⟩ := he
        exact ih hv hst
      | getBgp nodeName =>
        obtain ⟨-, rfl⟩ := he
        exact hlater _ (ih hv hst)
      | updateStatus u =>
        rcases updateStatus_exact hc hi he with rfl | ⟨w, w', hw, hw', hsaid, -, hown⟩
        · exact ih hv hst
        obtain rfl := Option.some.inj (hw'.symm.trans hv)
        rcases hown with ⟨-, hnone⟩ | ⟨-, result, hres, hget⟩
        · rw [hnone m] at hst
          contradiction
        · rw [hget m] at hst
          by_cases hm : m = i
          · rw [if_pos hm] at hst
            obtain rfl := Option.some.inj hst
            rw [hm]
            exact hlater _ ((known_of_reach hc hi _ hres).2 _ _ rfl)
          · rw [if_neg hm] at hst
            exact hlater _ (ih hw hst)
    | done i op log a s hi hd =>
      obtain rfl := hd
      exact ih hv hst
    | env s he =>
      cases he with
      | gobgp g => exact ih hv hst
      | create conf hnone =>
        rw [VStore.get_put] at hv
        by_cases hname : "default" = ConfObject.name { conf := conf }
        · rw [if_pos hname] at hv
          obtain rfl := Option.some.inj hv
          rw [Map.get_nil] at hst
          contradiction
        · rw [if_neg hname] at hv
          exact ih hv hst
      | edit name change hchange =>
        have hkey : ∀ a b : ConfObject, ((change a.conf).map fun c => { a with conf := c }) = some b →
            b.name = a.name := by
          intro a b hab
          obtain ⟨c', hc', rfl⟩ := Option.map_eq_some_iff.mp hab
          exact hchange _ _ hc'
        by_cases hname : "default" = name
        · subst hname
          have hobj := VStore.obj_modify (s := c.state.store) (k := "default") hkey
          rw [hv] at hobj
          -- the status is that of the object before
          rcases hold : c.state.store.get "default" with - | w <;> rw [hold] at hobj
          · contradiction
          · obtain ⟨c', -, he⟩ := Option.map_eq_some_iff.mp hobj.symm
            refine ih hold ?_
            rw [← he] at hst
            exact hst
        · rw [VStore.get_modify_ne hkey hname] at hv
          exact ih hv hst

/-- **Every node owns its entry.**  However the speakers of the nodes interleave, with reads
that may be old and writes that may fail:

* Every entry of the status was said by the gobgp of its node.
* A write does nothing, or it replaces the object that is stored by one which differs in its
  status only: either all entries are erased, by a speaker that starts, or the entry of
  the writing node is what its gobgp has said since the object was read, and all other
  entries are those that were stored. -/
theorem conf_status_owned (hc : StatusReach f c) :
    (∀ v m st, c.state.store.get "default" = some v → v.obj.nodesConfStatus.get m = some st →
      (m, st) ∈ c.state.said) ∧
    (∀ i op log v κ r s, c.task i = some ⟨op, log, .call (.updateStatus v) κ⟩ →
      statusExec f (.updateStatus v) c.state r s →
      s = c.state ∨ ∃ w w', c.state.store.get "default" = some w ∧
        s.store.get "default" = some w' ∧ s.said = c.state.said ∧ OwnWrite i op log w.obj w'.obj) :=
  ⟨fun _ _ _ hv hst => entries_said hc hv hst,
    fun _ _ _ _ _ _ _ hi he => updateStatus_exact hc hi he⟩

/-- Answers of an API server that reads the latest version. -/
def statusAnswer : (c : StatusCall) → StatusState → Option (StatusReply c × StatusState)
  | .getBgpConf name, s => (s.store.get name).map fun v => (.ok v, s)
  | .getBgp nodeName, s =>
    some (s.gobgp nodeName, { s with said := (nodeName, confStatusOf (s.gobgp nodeName)) :: s.said })
  | .updateStatus v, s =>
    some ((s.store.write v (setStatus v)).1, { s with store := (s.store.write v (setStatus v)).2 })

theorem statusExec_of_answer (x : StatusCall) (s : StatusState) (r : StatusReply x) (s' : StatusState)
    (h : statusAnswer x s = some (r, s')) : statusExec {} x s r s' := by
  cases x with
  | getBgpConf name =>
    obtain ⟨v, hv, he⟩ := Option.map_eq_some_iff.mp h
    cases he
    exact ⟨hv, rfl⟩
  | getBgp nodeName =>
    cases h
    exact ⟨rfl, rfl⟩
  | updateStatus v =>
    cases h
    exact ⟨_, .inl rfl, rfl⟩

/-- The object is created, and one node puts its entry into it. -/
theorem conf_status_owned_entry : ∃ (c : Conf String StatusOp StatusCall StatusReply
    (Except ApiErr Unit) StatusState) (v : Version ConfObject),
    StatusReach {} c ∧ c.state.store.get "default" = some v ∧
      v.obj.nodesConfStatus.get "node1" = some ⟨"10.0.0.1", 65000⟩ ∧
      ("node1", ⟨"10.0.0.1", 65000⟩) ∈ c.state.said := by
  let s : StatusState := ⟨VStore.empty.put { conf := { name := "default" } },
    fun _ => .ok ⟨"10.0.0.1", 65000⟩, []⟩
  have hrun : (updateConfStatus "node1").returns statusAnswer s = some (.ok ()) ∧
      (((updateConfStatus "node1").after statusAnswer s).store.get "default").map
        (·.obj.nodesConfStatus.get "node1") = some (some ⟨"10.0.0.1", 65000⟩) := by decide +kernel
  obtain ⟨v, hv, hentry⟩ := Option.map_eq_some_iff.mp hrun.2
  have h₀ : StatusReach {} ⟨⟨VStore.empty, s.gobgp, []⟩, fun _ => none⟩ := .init ⟨rfl, rfl⟩
  have h₁ := h₀.step (.env s (.create _ { name := "default" } rfl))
  have hstart : (confSpeakers {}).start "node1" (.update "node1") s s := ⟨rfl, .inr rfl⟩
  have h₂ := h₁.perform statusExec_of_answer rfl hstart (eval_of_returns hrun.1) rfl
  exact ⟨_, v, h₂, hv, hentry, (conf_status_owned h₂).1 v _ _ hv hentry⟩

end Runs

end OpenELB.Bgp
