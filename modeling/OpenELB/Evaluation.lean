import OpenELB.Manager
import Mathlib.Data.List.Sort

/-! # Running the model

`answer` answers the requests of the IPAM path and of the node proxies by looking at the
cluster, so that code can be run on a given cluster.  An `Oracle` makes the choices that are left:
the order in which maps and lists are gone through, which reads are answered from
a cache, and which writes fail.  What it answers, the API server may answer
(`exec_of_answer`). -/
namespace OpenELB
open Go

/-- The choices of a run. -/
structure Oracle where
  /-- An order of all names and addresses. -/
  order : List String
  /-- Old versions that reads of Eips are answered with. -/
  cache : String → Option (Version Eip) := fun _ => none
  /-- The writes that fail. -/
  fails : Call → Bool := fun _ => false
  /-- Whether pods are listed in the opposite order. -/
  podsBackwards : Bool := false

section
variable {κ α : Type} [DecidableEq κ] [DecidableEq α] {key : α → κ}

/-- The answer to a read. -/
def readAnswer (s : VStore key) (k : κ) : Except ApiErr (Version α) :=
  match s.get k with
  | some v => .ok v
  | none => .error .notFound

omit [DecidableEq α] in
theorem reads_readAnswer (f : Faults) (s : VStore key) (k : κ) :
    VStore.Reads f s k (readAnswer s k) := by
  rw [readAnswer]
  split
  · rename_i v hv
    simp only [VStore.Reads]
    split
    · exact ⟨VStore.mem_log hv, VStore.key_of_get hv⟩
    · exact hv
  · rename_i hv
    exact .inl hv

omit [DecidableEq α] in
/-- Listing the objects in some order is a read of all of them. -/
theorem readsAll_of_ranges (f : Faults) {s : VStore key} {ks : List κ} (h : s.cur.Ranges ks) :
    VStore.ReadsAll f s (.ok (ks.filterMap s.cur.get)) := by
  have hl : s.Lists (ks.filterMap s.cur.get) := ⟨ks, h, rfl⟩
  simp only [VStore.ReadsAll]
  split
  · exact fun v hv => VStore.mem_log (hl.mem_iff.mp hv)
  · exact hl

/-- The answer to a conditional write that may fail. -/
def writeAnswer (fails : Bool) (s : VStore key) (v : Version α) (change : α → Option α) :
    Except ApiErr (Version α) × VStore key :=
  if fails then (.error (.other "failed"), s) else s.write v change

theorem writes_writeAnswer {f : Faults} {fails : Bool} (h : fails = false ∨ f.writeFail)
    (s : VStore key) (v : Version α) (change : α → Option α) :
    VStore.Writes f s v change (writeAnswer fails s v change).1 (writeAnswer fails s v change).2 := by
  cases fails with
  | false => exact .inl rfl
  | true =>
    rcases h with h | h
    · cases h
    · exact .inr ⟨h, _, rfl, .inl rfl⟩

end

/-- The answer to a write without a condition that may fail. -/
def unitAnswer {σ : Type} (fails : Bool) (s : σ) (done : Except ApiErr σ) : Except ApiErr Unit × σ :=
  match done with
  | .error e => (.error e, s)
  | .ok s₁ => if fails then (.error (.other "failed"), s) else (.ok (), s₁)

theorem writesUnit_unitAnswer {σ : Type} {f : Faults} {fails : Bool}
    (h : fails = false ∨ f.writeFail) {s s' : σ} {done : Except ApiErr σ} {r : Except ApiErr Unit}
    (hr : unitAnswer fails s done = (r, s')) : WritesUnit f s done r s' := by
  cases done with
  | error e =>
    cases hr
    exact ⟨rfl, rfl⟩
  | ok s₁ =>
    cases fails with
    | false =>
      cases hr
      exact .inl ⟨rfl, rfl⟩
    | true =>
      cases hr
      rcases h with h | h
      · cases h
      · exact .inr ⟨h, _, rfl, .inl rfl⟩

/-- The answer to a request, and the cluster after it. -/
def answer (o : Oracle) : (c : Call) → Cluster → Option (Reply c × Cluster)
  | .getEip name, s =>
    match o.cache name with
    | none => some (readAnswer s.eips name, s)
    | some v => if v ∈ s.eips.log ∧ v.obj.name = name then some (.ok v, s) else none
  | .listEips, s =>
    let names := o.order.filter fun name => (s.eips.cur.get name).isSome
    if s.eips.cur.Ranges names then some (.ok (names.filterMap s.eips.cur.get), s) else none
  | .updateEip v, s =>
    let w := writeAnswer (o.fails (.updateEip v)) s.eips v v.obj.applyUpdate
    some (w.1, { s with eips := w.2 })
  | .updateEipStatus v, s =>
    let w := writeAnswer (o.fails (.updateEipStatus v)) s.eips v v.obj.applyStatus
    some (w.1, { s with eips := w.2 })
  | .getService k, s => some (readAnswer s.services k, s)
  | .updateService v, s =>
    let w := writeAnswer (o.fails (.updateService v)) s.services v v.obj.applyUpdate
    some (w.1, { s with services := w.2 })
  | .updateServiceStatus v, s =>
    let w := writeAnswer (o.fails (.updateServiceStatus v)) s.services v v.obj.applyStatus
    some (w.1, { s with services := w.2 })
  | .getNamespace name, s =>
    match s.namespaces.get name with
    | some ns => some (.ok ns, s)
    | none => some (.error .notFound, s)
  | .listNodes, s =>
    let names := o.order.filter fun name => (s.nodes.cur.get name).isSome
    if s.nodes.cur.Ranges names then some (.ok (names.filterMap s.nodes.cur.get), s) else none
  | .updateNode v, s =>
    let w := writeAnswer (o.fails (.updateNode v)) s.nodes v v.obj.applyUpdate
    some (w.1, { s with nodes := w.2 })
  | .listPods ns label value phase, s =>
    let pods := s.pods.filter fun p =>
      p.ns = ns ∧ p.labels.get label = some value ∧ p.phase = phase
    some (.ok (if o.podsBackwards then pods.reverse else pods), s)
  | .getWorkload k, s => some (readAnswer s.workloads k, s)
  | .createWorkload w, s =>
    some (unitAnswer (o.fails (.createWorkload w)) s
      (if (s.workloads.get w.key).isSome then .error (.other "already exists")
        else .ok { s with workloads := s.workloads.put w }))
  | .updateWorkload w, s =>
    some (unitAnswer (o.fails (.updateWorkload w)) s
      (if (s.workloads.get w.key).isNone then .error .notFound
        else .ok { s with workloads := s.workloads.put w }))
  | .deleteWorkload k, s =>
    some (unitAnswer (o.fails (.deleteWorkload k)) s
      (if (s.workloads.get k).isNone then .error .notFound
        else .ok { s with workloads := s.workloads.remove k }))
  | .getConfigMap k, s =>
    match s.configMaps.get k with
    | some data => some (.ok data, s)
    | none => some (.error .notFound, s)
  | .rangeUsed m, s =>
    let keys := o.order.filter fun key => (m.get key).isSome
    if m.Ranges keys then some (keys, s) else none
  | .sortEips l, s =>
    let l' := l.insertionSort fun a b => ¬ b.less a
    if EipsSorted l l' then some (l', s) else none
  | _, _ => none

/-- **What is answered may be answered**, if the server may do what the oracle
asks for. -/
theorem exec_of_answer {o : Oracle} {f : Faults} (hcache : (∀ name, o.cache name = none) ∨ f.stale)
    (hfails : (∀ c, o.fails c = false) ∨ f.writeFail) (c : Call) (s : Cluster) (r : Reply c)
    (s' : Cluster) (h : answer o c s = some (r, s')) : exec f c s r s' := by
  have hfail : ∀ c, o.fails c = false ∨ f.writeFail := fun c => hfails.imp_left fun h => h c
  cases c with
  | getEip name =>
    simp only [answer] at h
    split at h
    · cases h
      exact ⟨rfl, reads_readAnswer ..⟩
    · rename_i v hv
      split at h
      · rename_i hmem
        cases h
        refine ⟨rfl, ?_⟩
        rcases hcache with hc | hc
        · rw [hc] at hv
          cases hv
        · simpa [VStore.Reads, hc] using hmem
      · cases h
  | listEips =>
    obtain ⟨hr, he⟩ := Option.ite_none_right_eq_some.mp h
    cases he
    exact ⟨rfl, readsAll_of_ranges f hr⟩
  | updateEip v =>
    cases h
    exact ⟨_, writes_writeAnswer (hfail _) .., rfl⟩
  | updateEipStatus v =>
    cases h
    exact ⟨_, writes_writeAnswer (hfail _) .., rfl⟩
  | getService k =>
    cases h
    exact ⟨rfl, reads_readAnswer ..⟩
  | updateService v =>
    cases h
    exact ⟨_, writes_writeAnswer (hfail _) .., rfl⟩
  | updateServiceStatus v =>
    cases h
    exact ⟨_, writes_writeAnswer (hfail _) .., rfl⟩
  | getNamespace name =>
    simp only [answer] at h
    split at h
    · rename_i ns hns
      cases h
      exact ⟨rfl, .inl hns⟩
    · rename_i hns
      cases h
      exact ⟨rfl, .inl hns⟩
  | listNodes =>
    obtain ⟨hr, he⟩ := Option.ite_none_right_eq_some.mp h
    cases he
    exact ⟨rfl, readsAll_of_ranges f hr⟩
  | updateNode v =>
    cases h
    exact ⟨_, writes_writeAnswer (hfail _) .., rfl⟩
  | listPods ns label value phase =>
    cases h
    refine ⟨rfl, .inr ?_⟩
    split
    · exact List.reverse_perm _
    · exact .refl _
  | getWorkload k =>
    cases h
    exact ⟨rfl, reads_readAnswer ..⟩
  | createWorkload w =>
    exact writesUnit_unitAnswer (hfail _) (Option.some.inj h)
  | updateWorkload w =>
    exact writesUnit_unitAnswer (hfail _) (Option.some.inj h)
  | deleteWorkload k =>
    exact writesUnit_unitAnswer (hfail _) (Option.some.inj h)
  | getConfigMap k =>
    simp only [answer] at h
    split at h
    · rename_i data hdata
      cases h
      exact ⟨rfl, .inl hdata⟩
    · rename_i hnone
      cases h
      exact ⟨rfl, .inl hnone⟩
  | rangeUsed m =>
    obtain ⟨hr, he⟩ := Option.ite_none_right_eq_some.mp h
    cases he
    exact ⟨rfl, hr⟩
  | sortEips l =>
    obtain ⟨hr, he⟩ := Option.ite_none_right_eq_some.mp h
    cases he
    exact ⟨rfl, hr⟩
  | _ => cases h

/-- An oracle that reads what is stored and lets every call succeed answers as the cluster. -/
theorem exec_of_steady (o : Oracle) {f : Faults}
    (hcache : ∀ name, o.cache name = none := by exact fun _ => rfl)
    (hfails : ∀ c, o.fails c = false := by exact fun _ => rfl) (c : Call) (s : Cluster)
    (r : Reply c) (s' : Cluster) (h : answer o c s = some (r, s')) : exec f c s r s' :=
  exec_of_answer (.inl hcache) (.inl hfails) c s r s' h

/-- What code evaluates to on a cluster, it may return, with the same state. -/
theorem run_of_eval {α β : Type} {o : Oracle} {f : Faults}
    (hans : ∀ c s r s', answer o c s = some (r, s') → exec f c s r s') {p : Code α} {s : Cluster}
    {g : Cluster → β} {a : Outcome α} {b : β}
    (h : (Prog.eval (answer o) p s).map (fun x => (x.1, g x.2)) = some (a, b)) :
    ∃ l s', Prog.Run (exec f) s p l a s' ∧ g s' = b := by
  obtain ⟨⟨a', s'⟩, he, hx⟩ := Option.map_eq_some_iff.mp h
  obtain ⟨rfl, rfl⟩ := Prod.mk.inj hx
  obtain ⟨l, hrun⟩ := Prog.run_eval hans he
  exact ⟨l, s', hrun, rfl⟩

/-! ## A cluster to run it on -/

theorem pool_ne_empty : "pool" ≠ "" := by decide

/-- A pool of two free addresses, as the Eip controller leaves a new one. -/
def twoAddressesReady : Eip where
  name := "pool"
  spec := { address := "192.0.2.1-192.0.2.2" }
  status := {
    poolSize := 2, used := Map.empty, firstIP := "192.0.2.1", lastIP := "192.0.2.2", v4 := true }
  name_ne := pool_ne_empty

/-- A service that asks for an address of the pool. -/
def webService : Service where
  ns := "ns"
  name := "web"
  annotations := Map.ofList [(openELBAnnotationKey, openELBAnnotationValue),
    (openELBEIPAnnotationKeyV1Alpha2, "pool")]
  type := .loadBalancer
  ipFamilies := [.ipv4]

/-- The name of the service. -/
def web : NamespacedName := ⟨"ns", "web"⟩

/-- A cluster with these Eips and services. -/
def clusterOf (eips : List Eip) (services : List Service) : Cluster :=
  { Cluster.empty with
    eips := eips.foldl VStore.put VStore.empty
    services := services.foldl VStore.put VStore.empty }

/-- All of `getDefaultEIP`'s selectors are valid here. -/
def plainEnv : Env where
  validSelector _ := true
  selectorText _ := ""
  envNamespace := "openelb-system"

/-- Maps and lists are gone through in this order, and nothing fails. -/
def inOrder : Oracle := { order := ["pool", "192.0.2.1", "192.0.2.2"] }

theorem exec_of_inOrder {f : Faults} :
    ∀ c s r s', answer inOrder c s = some (r, s') → exec f c s r s' :=
  exec_of_steady inOrder

end OpenELB
