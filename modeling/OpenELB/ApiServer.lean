import OpenELB.Objects
import OpenELB.Prog

/-! # The API server, and code that calls it

`Call` lists the requests the controllers send, `Reply` what they are answered
with, and `exec` what the server may answer and do.  Two more things the code
does are calls as well, because Go does not fix their result: the order in which
a map is ranged over, and the order in which `sort.Slice` leaves elements that
compare equal.

`Code α` is code that makes these calls and returns an `α`, an error or panics.
Events and log lines are left out. -/
namespace OpenELB
open Go

/-! ## Requests -/

/-- What the code asks its surroundings for. -/
inductive Call where
  | getEip (name : String)
  | listEips
  | updateEip (v : Version Eip)
  | updateEipStatus (v : Version Eip)
  | getService (k : NamespacedName)
  | listServices (label value : String)
  | updateService (v : Version Service)
  | updateServiceStatus (v : Version Service)
  | getNamespace (name : String)
  | listNodes
  | updateNode (v : Version Node)
  | getWorkload (k : WorkloadKind × NamespacedName)
  | createWorkload (w : Workload)
  | updateWorkload (w : Workload)
  | deleteWorkload (k : WorkloadKind × NamespacedName)
  | listPods (ns label value phase : String)
  | getConfigMap (k : NamespacedName)
  /-- The order in which `range m` visits the keys. -/
  | rangeUsed (m : Map String String)
  /-- What `sort.Slice` makes of a list of Eips. -/
  | sortEips (l : List Eip)
  deriving DecidableEq

/-- The types of the answers. -/
abbrev Reply : Call → Type
  | .getEip _ | .updateEip _ | .updateEipStatus _ => Except ApiErr (Version Eip)
  | .listEips => Except ApiErr (List (Version Eip))
  | .getService _ | .updateService _ | .updateServiceStatus _ => Except ApiErr (Version Service)
  | .listServices _ _ => Except ApiErr (List (Version Service))
  | .getNamespace _ => Except ApiErr Namespace
  | .listNodes => Except ApiErr (List (Version Node))
  | .updateNode _ => Except ApiErr (Version Node)
  | .getWorkload _ => Except ApiErr (Version Workload)
  | .createWorkload _ | .updateWorkload _ | .deleteWorkload _ => Except ApiErr Unit
  | .listPods _ _ _ _ => Except ApiErr (List Pod)
  | .getConfigMap _ => Except ApiErr (Map String String)
  | .rangeUsed _ => List String
  | .sortEips _ => List Eip

/-! ## Code -/

/-- Code that calls the API server and returns an `α`, an error, or panics. -/
def Code (α : Type) : Type := Prog Call Reply (Outcome α)

namespace Code
variable {α β : Type}

/-- How code goes on after a result: an error or a panic ends it. -/
def next (f : α → Code β) : Outcome α → Code β
  | .ok a => f a
  | .err e => Prog.ret (.err e)
  | .panic => Prog.ret .panic

instance : Monad Code where
  pure a := Prog.ret (.ok a)
  bind p f := Prog.bind p (next f)

/-- Return an error. -/
def fail (e : Err) : Code α := Prog.ret (.err e)

/-- Panic. -/
def crash : Code α := Prog.ret .panic

/-- Make a call. -/
def api (c : Call) : Code (Reply c) := Prog.call c fun r => Prog.ret (.ok r)

/-- Return the error of a call, if it has one. -/
def must : Except ApiErr α → Code α
  | .ok a => pure a
  | .error e => fail (.api e)

/-- Run code whose error the caller looks at. -/
def attempt (p : Code α) : Code (Except Err α) :=
  Prog.bind p fun
    | .ok a => Prog.ret (.ok (.ok a))
    | .err e => Prog.ret (.ok (.error e))
    | .panic => Prog.ret .panic

@[simp] theorem pure_bind (a : α) (f : α → Code β) : (pure a >>= f : Code β) = f a := rfl

@[simp] theorem fail_bind (e : Err) (f : α → Code β) : (fail e >>= f : Code β) = fail e := rfl

@[simp] theorem crash_bind (f : α → Code β) : (crash >>= f : Code β) = crash := rfl

@[simp] theorem api_bind (c : Call) (f : Reply c → Code β) :
    (api c >>= f : Code β) = Prog.call c f := rfl

@[simp] theorem must_ok (a : α) : must (.ok a) = pure a := rfl

@[simp] theorem must_error (e : ApiErr) : (must (.error e) : Code α) = fail (.api e) := rfl

theorem bind_assoc {γ : Type} (p : Code α) (f : α → Code β) (g : β → Code γ) :
    ((p >>= f : Code β) >>= g : Code γ) = (p >>= fun a => (f a >>= g : Code γ) : Code γ) := by
  refine (Prog.bind_assoc p (next f) (next g)).trans (congrArg (Prog.bind p) (funext fun o => ?_))
  cases o <;> rfl

/-! ### Calls that code can make -/

theorem all_bind {P : Call → Prop} {p : Code α} {f : α → Code β} (hp : Prog.All P p)
    (hf : ∀ a, Prog.All P (f a)) : Prog.All P (p >>= f : Code β) := by
  refine Prog.All.bind hp fun o => ?_
  cases o with
  | ok a => exact hf a
  | err e => trivial
  | panic => trivial

theorem all_api {P : Call → Prop} {c : Call} {f : Reply c → Code β} (hc : P c)
    (hf : ∀ r, Prog.All P (f r)) : Prog.All P (api c >>= f : Code β) := ⟨hc, hf⟩

theorem all_must {P : Call → Prop} (r : Except ApiErr α) : Prog.All P (must r) := by
  cases r <;> trivial

theorem all_attempt {P : Call → Prop} {p : Code α} (hp : Prog.All P p) :
    Prog.All P (attempt p) := by
  refine Prog.All.bind hp fun o => ?_
  cases o <;> trivial

/-! ### Safety of code -/

section Safe
variable {σ : Type} {step : (c : Call) → σ → Reply c → σ → Prop} {R : σ → σ → Prop}
  {G : List (Prog.Event Call Reply) → (c : Call) → Reply c → Prog Call Reply (Outcome β) →
    σ → σ → Prop}
  {Q : List (Prog.Event Call Reply) → Outcome β → σ → Prop} {log : List (Prog.Event Call Reply)}
  {s : σ}

theorem safe_pure {b : β} (h : ∀ s', R s s' → Q log (.ok b) s') :
    Prog.Safe step R G Q log (pure b : Code β) s := h

theorem safe_fail {e : Err} (h : ∀ s', R s s' → Q log (.err e) s') :
    Prog.Safe step R G Q log (fail e : Code β) s := h

theorem safe_crash (h : ∀ s', R s s' → Q log .panic s') :
    Prog.Safe step R G Q log (crash : Code β) s := h

/-- One call, then the rest. -/
theorem safe_api {c : Call} {f : Reply c → Code β}
    (h : ∀ s' r s'', R s s' → step c s' r s'' →
      G log c r (f r) s' s'' ∧ Prog.Safe step R G Q (log ++ [⟨c, r⟩]) (f r) s'') :
    Prog.Safe step R G Q log (api c >>= f : Code β) s := h

/-- Code and what follows it, if the guarantee does not look at what is left. -/
theorem safe_bind {p : Code α} {f : α → Code β} (hrefl : ∀ a, R a a)
    {G : List (Prog.Event Call Reply) → (c : Call) → Reply c → σ → σ → Prop}
    (hp : Prog.Safe step R (fun log c r _ => G log c r)
      (fun log o s => match o with
        | .ok a => Prog.Safe step R (fun log c r _ => G log c r) Q log (f a) s
        | .err e => ∀ s', R s s' → Q log (.err e) s'
        | .panic => ∀ s', R s s' → Q log .panic s') log p s) :
    Prog.Safe step R (fun log c r _ => G log c r) Q log (p >>= f : Code β) s := by
  refine Prog.Safe.bind hrefl (hp.mono (fun _ _ _ _ _ _ h => h) ?_)
  intro log o s h
  cases o with
  | ok a => exact h
  | err e => exact h
  | panic => exact h

/-- Code whose error the rest looks at. -/
theorem safe_attempt {p : Code α} {f : Except Err α → Code β} (hrefl : ∀ a, R a a)
    {G : List (Prog.Event Call Reply) → (c : Call) → Reply c → σ → σ → Prop}
    (hp : Prog.Safe step R (fun log c r _ => G log c r)
      (fun log o s => match o with
        | .ok a => Prog.Safe step R (fun log c r _ => G log c r) Q log (f (.ok a)) s
        | .err e => Prog.Safe step R (fun log c r _ => G log c r) Q log (f (.error e)) s
        | .panic => ∀ s', R s s' → Q log .panic s') log p s) :
    Prog.Safe step R (fun log c r _ => G log c r) Q log (attempt p >>= f : Code β) s := by
  rw [show (attempt p >>= f : Code β) = _ from Prog.bind_assoc p _ (next f)]
  refine Prog.Safe.bind hrefl (hp.mono (fun _ _ _ _ _ _ h => h) ?_)
  intro log o s h
  cases o with
  | ok a => exact h
  | err e => exact h
  | panic => exact h

end Safe

/-! ### Runs -/

section Runs
variable {σ : Type} {step : (c : Call) → σ → Reply c → σ → Prop} {s s' : σ} {p : Code α}
  {f : α → Code β} {l : List (Prog.Event Call Reply)}

@[simp] theorem run_pure_iff {a : α} {o : Outcome α} :
    Prog.Run step s (pure a : Code α) l o s' ↔ l = [] ∧ o = .ok a ∧ s' = s := Prog.run_ret_iff

@[simp] theorem run_fail_iff {e : Err} {o : Outcome α} :
    Prog.Run step s (fail e : Code α) l o s' ↔ l = [] ∧ o = .err e ∧ s' = s := Prog.run_ret_iff

@[simp] theorem run_crash_iff {o : Outcome α} :
    Prog.Run step s (crash : Code α) l o s' ↔ l = [] ∧ o = .panic ∧ s' = s := Prog.run_ret_iff

theorem run_api {c : Call} {f : Reply c → Code β} {o : Outcome β}
    (h : Prog.Run step s (api c >>= f : Code β) l o s') :
    ∃ r s₁ l', step c s r s₁ ∧ Prog.Run step s₁ (f r) l' o s' ∧ l = ⟨c, r⟩ :: l' :=
  Prog.run_call_iff.mp h

/-- A call that is answered, and what comes after it. -/
theorem run_of_api {c : Call} {f : Reply c → Code β} {o : Outcome β} {r : Reply c} {s₁ : σ}
    (hc : step c s r s₁) (h : Prog.Run step s₁ (f r) l o s') :
    Prog.Run step s (api c >>= f : Code β) (⟨c, r⟩ :: l) o s' :=
  Prog.Run.call hc h

/-- The same of a run without a state. -/
theorem trace_of_api {P : (c : Call) → Reply c → Prop} {c : Call} {f : Reply c → Code β}
    {o : Outcome β} {r : Reply c} (hc : P c r) (h : Prog.Trace P (f r) l o) :
    Prog.Trace P (api c >>= f : Code β) (⟨c, r⟩ :: l) o :=
  Prog.Run.call hc h

/-- Code that returns, and what comes after it. -/
theorem run_of_bind {o : Outcome β} {a : α} {l' : List (Prog.Event Call Reply)} {s₁ : σ}
    (hp : Prog.Run step s p l (.ok a) s₁) (h : Prog.Run step s₁ (f a) l' o s') :
    Prog.Run step s (p >>= f : Code β) (l ++ l') o s' :=
  Prog.Run.bind hp h

/-- A run of code that goes on with a result: the first part returned it, or ended
the whole. -/
theorem run_bind {o : Outcome β} (h : Prog.Run step s (p >>= f : Code β) l o s') :
    (∃ a l₁ l₂ s₁, Prog.Run step s p l₁ (.ok a) s₁ ∧ Prog.Run step s₁ (f a) l₂ o s' ∧
        l = l₁ ++ l₂) ∨
      (∃ e, o = .err e ∧ Prog.Run step s p l (.err e) s') ∨
      (o = .panic ∧ Prog.Run step s p l .panic s') := by
  obtain ⟨l₁, l₂, o₁, s₁, h₁, h₂, rfl⟩ := Prog.run_bind_iff.mp h
  cases o₁ with
  | ok a => exact .inl ⟨a, l₁, l₂, s₁, h₁, h₂, rfl⟩
  | err e =>
    obtain ⟨rfl, rfl, rfl⟩ := Prog.run_ret_iff.mp h₂
    exact .inr (.inl ⟨e, rfl, by simpa using h₁⟩)
  | panic =>
    obtain ⟨rfl, rfl, rfl⟩ := Prog.run_ret_iff.mp h₂
    exact .inr (.inr ⟨rfl, by simpa using h₁⟩)

/-- Only the last part of code that returns can have returned. -/
theorem run_bind_ok {b : β} (h : Prog.Run step s (p >>= f : Code β) l (.ok b) s') :
    ∃ a l₁ l₂ s₁, Prog.Run step s p l₁ (.ok a) s₁ ∧ Prog.Run step s₁ (f a) l₂ (.ok b) s' ∧
      l = l₁ ++ l₂ := by
  rcases run_bind h with h | ⟨e, he, -⟩ | ⟨he, -⟩
  · exact h
  · cases he
  · cases he

/-- Code whose error is looked at has returned, returned an error, or panicked. -/
theorem run_attempt {o : Outcome (Except Err α)} (h : Prog.Run step s (attempt p) l o s') :
    (∃ a, o = .ok (.ok a) ∧ Prog.Run step s p l (.ok a) s') ∨
      (∃ e, o = .ok (.error e) ∧ Prog.Run step s p l (.err e) s') ∨
      (o = .panic ∧ Prog.Run step s p l .panic s') := by
  obtain ⟨l₁, l₂, o₁, s₁, h₁, h₂, rfl⟩ := Prog.run_bind_iff.mp h
  cases o₁ with
  | ok a =>
    obtain ⟨rfl, rfl, rfl⟩ := Prog.run_ret_iff.mp h₂
    exact .inl ⟨a, rfl, by simpa using h₁⟩
  | err e =>
    obtain ⟨rfl, rfl, rfl⟩ := Prog.run_ret_iff.mp h₂
    exact .inr (.inl ⟨e, rfl, by simpa using h₁⟩)
  | panic =>
    obtain ⟨rfl, rfl, rfl⟩ := Prog.run_ret_iff.mp h₂
    exact .inr (.inr ⟨rfl, by simpa using h₁⟩)

theorem run_attempt_ok {r : Except Err α} (h : Prog.Run step s (attempt p) l (.ok r) s') :
    (∃ a, r = .ok a ∧ Prog.Run step s p l (.ok a) s') ∨
      ∃ e, r = .error e ∧ Prog.Run step s p l (.err e) s' := by
  rcases run_attempt h with ⟨a, ho, hr⟩ | ⟨e, ho, hr⟩ | ⟨ho, -⟩
  · cases ho
    exact .inl ⟨a, rfl, hr⟩
  · cases ho
    exact .inr ⟨e, rfl, hr⟩
  · cases ho

theorem run_of_attempt {a : α} (h : Prog.Run step s p l (.ok a) s') :
    Prog.Run step s (attempt p) l (.ok (.ok a)) s' := by
  rw [← List.append_nil l]
  exact Prog.run_bind_iff.mpr ⟨l, [], _, s', h, Prog.Run.ret, rfl⟩

end Runs
end Code

/-! ## The state of the cluster -/

/-- What is stored. -/
structure Cluster where
  eips : VStore Eip.name
  services : VStore Service.key
  namespaces : Map String Namespace
  nodes : VStore Node.name
  workloads : VStore Workload.key
  pods : List Pod
  configMaps : Map NamespacedName (Map String String)

/-- A cluster without objects. -/
def Cluster.empty : Cluster where
  eips := VStore.empty
  services := VStore.empty
  namespaces := Map.empty
  nodes := VStore.empty
  workloads := VStore.empty
  pods := []
  configMaps := Map.empty

/-! ## What a write changes

Eips and services have a status subresource: an update keeps the stored status.  A
status update of an Eip, which is a custom resource, changes nothing else; one of a
service keeps the stored spec, and writes the metadata it was sent.  No write changes
the deletion timestamp, and an object that is being deleted goes away with its last
finalizer.  Empty maps and slices are not encoded, so they are stored as nil. -/

/-- The slice as it comes back from the server. -/
def encodeSlice {α : Type} : Option (List α) → Option (List α)
  | some [] => none
  | l => l

@[simp] theorem encodeSlice_getD {α : Type} (l : Option (List α)) :
    (encodeSlice l).getD [] = l.getD [] := by
  rcases l with _ | _ | _ <;> rfl

/-- `Update` of an Eip. -/
def Eip.applyUpdate (new stored : Eip) : Option Eip :=
  if stored.deletionTimestamp ∧ new.finalizers = [] then none
  else some { stored with
    finalizers := new.finalizers
    annotations := new.annotations.omitEmpty
    spec := { new.spec with namespaceSelector := new.spec.namespaceSelector.omitEmpty } }

/-- `Status().Update` of an Eip. -/
def Eip.applyStatus (new stored : Eip) : Option Eip :=
  some { stored with status := { new.status with used := new.status.used.omitEmpty } }

/-- `Update` of a service. -/
def Service.applyUpdate (new stored : Service) : Option Service :=
  if stored.deletionTimestamp ∧ new.finalizers = [] then none
  else some { stored with
    finalizers := new.finalizers
    labels := new.labels.omitEmpty
    annotations := new.annotations.omitEmpty
    type := new.type
    loadBalancerIP := new.loadBalancerIP
    ipFamilies := new.ipFamilies
    clusterIP := new.clusterIP
    ports := new.ports
    externalTrafficPolicy := new.externalTrafficPolicy }

/-- `Status().Update` of a service. -/
def Service.applyStatus (new stored : Service) : Option Service :=
  if stored.deletionTimestamp ∧ new.finalizers = [] then none
  else some { stored with
    finalizers := new.finalizers
    labels := new.labels.omitEmpty
    annotations := new.annotations.omitEmpty
    ingress := encodeSlice new.ingress }

/-- `Update` of a node. -/
def Node.applyUpdate (new stored : Node) : Option Node :=
  some { stored with labels := new.labels.omitEmpty }

/-! ## The order of Eips -/

/-- The order `getDefaultEIP` sorts by: Eips with free addresses first, then the
smaller priority number. -/
def Eip.less (a b : Eip) : Bool :=
  if a.status.occupied ≠ b.status.occupied then !a.status.occupied
  else a.spec.priority < b.spec.priority

/-- `l'` is a result of `sort.Slice` on `l`. -/
def EipsSorted (l l' : List Eip) : Prop :=
  l'.Perm l ∧ l'.Pairwise fun a b => ¬ b.less a

instance (l l' : List Eip) : Decidable (EipsSorted l l') := inferInstanceAs (Decidable (_ ∧ _))

/-! ## What the server may answer and do -/

/-- Deletion of an Eip: with finalizers it is only marked. -/
def Eip.applyDelete (stored : Eip) : Option Eip :=
  if stored.finalizers = [] then none else some { stored with deletionTimestamp := true }

/-- Deletion of a service. -/
def Service.applyDelete (stored : Service) : Option Service :=
  if stored.finalizers = [] then none else some { stored with deletionTimestamp := true }

/-- A write without a condition: it is done, or it fails. -/
def WritesUnit {σ : Type} (f : Faults) (s : σ) (done : Except ApiErr σ) (r : Except ApiErr Unit)
    (s' : σ) : Prop :=
  match done with
  | .error e => s' = s ∧ r = .error e
  | .ok s₁ => (r = .ok () ∧ s' = s₁) ∨ f.writeFail ∧ ∃ e, r = .error e ∧ (s' = s ∨ s' = s₁)

/-- In state `s`, the call may be answered with `r` and leave the state `s'`. -/
def exec (f : Faults) : (c : Call) → Cluster → Reply c → Cluster → Prop
  | .getEip name, s, r, s' => s' = s ∧ VStore.Reads f s.eips name r
  | .listEips, s, r, s' => s' = s ∧ VStore.ReadsAll f s.eips r
  | .updateEip v, s, r, s' =>
    ∃ eips, VStore.Writes f s.eips v v.obj.applyUpdate r eips ∧ s' = { s with eips := eips }
  | .updateEipStatus v, s, r, s' =>
    ∃ eips, VStore.Writes f s.eips v v.obj.applyStatus r eips ∧ s' = { s with eips := eips }
  | .getService k, s, r, s' => s' = s ∧ VStore.Reads f s.services k r
  | .listServices label value, s, r, s' =>
    s' = s ∧ ∃ l, VStore.ReadsAll f s.services l ∧
      r = l.map fun l => l.filter fun v => v.obj.labels.get label = some value
  | .updateService v, s, r, s' =>
    ∃ services, VStore.Writes f s.services v v.obj.applyUpdate r services ∧
      s' = { s with services := services }
  | .updateServiceStatus v, s, r, s' =>
    ∃ services, VStore.Writes f s.services v v.obj.applyStatus r services ∧
      s' = { s with services := services }
  | .getNamespace name, s, r, s' =>
    s' = s ∧ match r with
      | .ok ns => s.namespaces.get name = some ns ∨ f.stale
      | .error .notFound => s.namespaces.get name = none ∨ f.stale
      | .error _ => f.readFail
  | .listNodes, s, r, s' => s' = s ∧ VStore.ReadsAll f s.nodes r
  | .updateNode v, s, r, s' =>
    ∃ nodes, VStore.Writes f s.nodes v v.obj.applyUpdate r nodes ∧ s' = { s with nodes := nodes }
  | .getWorkload k, s, r, s' => s' = s ∧ VStore.Reads f s.workloads k r
  | .createWorkload w, s, r, s' =>
    WritesUnit f s
      (if (s.workloads.get w.key).isSome then .error (.other "already exists")
        else .ok { s with workloads := s.workloads.put w }) r s'
  | .updateWorkload w, s, r, s' =>
    WritesUnit f s
      (if (s.workloads.get w.key).isNone then .error .notFound
        else .ok { s with workloads := s.workloads.put w }) r s'
  | .deleteWorkload k, s, r, s' =>
    WritesUnit f s
      (if (s.workloads.get k).isNone then .error .notFound
        else .ok { s with workloads := s.workloads.remove k }) r s'
  | .listPods ns label value phase, s, r, s' =>
    s' = s ∧ match r with
      | .ok l => f.stale ∨ l.Perm (s.pods.filter fun p =>
          p.ns = ns ∧ p.labels.get label = some value ∧ p.phase = phase)
      | .error _ => f.readFail
  | .getConfigMap k, s, r, s' =>
    s' = s ∧ match r with
      | .ok data => s.configMaps.get k = some data ∨ f.stale
      | .error .notFound => s.configMaps.get k = none ∨ f.stale
      | .error _ => f.readFail
  | .rangeUsed m, s, r, s' => s' = s ∧ m.Ranges r
  | .sortEips l, s, r, s' => s' = s ∧ EipsSorted l r

/-- What is known of an answer without a state: ranging visits every key once, and
sorting sorts. -/
def Honest : (c : Call) → Reply c → Prop
  | .rangeUsed m, r => m.Ranges r
  | .sortEips l, r => EipsSorted l r
  | _, _ => True

theorem honest_of_exec {f : Faults} (c : Call) (s : Cluster) (r : Reply c) (s' : Cluster)
    (h : exec f c s r s') : Honest c r := by
  cases c
  case rangeUsed => exact h.2
  case sortEips => exact h.2
  all_goals trivial

end OpenELB
