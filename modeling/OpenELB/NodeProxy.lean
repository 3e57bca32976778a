import OpenELB.Manager

/-! # Services exposed by node proxies

`pkg/controllers/lb/nodeproxy.go`: a service with a node-proxy annotation gets no
address from a pool.  A Deployment or a DaemonSet of proxy pods is run for it,
and the addresses of the nodes these pods run on are written into its
annotations. -/
namespace OpenELB
open Go Code

/-- `proxyRescName`. -/
def proxyRescName (svcName svcNs : String) : String :=
  nodeProxyWorkloadPrefix ++ svcName ++ "-" ++ svcNs

/-- `svcName`: the slice of the name between the constant and the namespace; `none` when its
bounds are wrong and the code panics.  Names are ASCII, so a character is a byte. -/
def svcName (rescName svcNs : String) : Option String :=
  let lo := nodeProxyWorkloadPrefix.toList.length
  let hi := (rescName.toList.length : Int) - svcNs.toList.length - 1
  if (lo : Int) ≤ hi then some (String.ofList ((rescName.toList.take hi.toNat).drop lo)) else none

/-- `isProxyResc`. -/
def isProxyResc (env : Env) (w : Workload) : Bool :=
  w.ns = env.envNamespace ∧ nodeProxyWorkloadPrefix.toList.isPrefixOf w.name.toList

/-- `IsOpenELBNPService`. -/
def isOpenELBNPService (svc : Service) : Bool :=
  hasOpenELBAnnotation svc.annotations ∧ svc.type = .loadBalancer ∧
    hasOpenELBNPAnnotation svc.annotations

/-- `shouldReconcileDeDs`: whether an event of a workload concerns a service. -/
def shouldReconcileDeDs (env : Env) (w : Workload) : Code Bool :=
  if ¬ isProxyResc env w then pure false
  else
    match w.annotations.get nodeProxyTypeAnnotationKey with
    | none => pure false
    | some ns =>
      match svcName w.name ns with
      | none => crash
      | some name => do
        match ← api (.getService ⟨ns, name⟩) with
        | .ok svc => pure (isOpenELBNPService svc.obj)
        | .error .notFound => pure false
        | .error _ => pure true

/-! ## The workload -/

/-- An image from the ConfigMap of images, or the default. -/
def getImage (env : Env) (key default : String) : Code String := do
  match ← api (.getConfigMap ⟨env.envNamespace, "openelb-images"⟩) with
  | .error _ => pure default
  | .ok data => pure ((data.get key).getD default)

/-- `getForwardImage`. -/
def getForwardImage (env : Env) : Code String :=
  getImage env "forward-image" "kubesphere/openelb-forward:master"

/-- `getProxyImage`. -/
def getProxyImage (env : Env) : Code String :=
  getImage env "proxy-image" "kubesphere/openelb-proxy:master"

/-- `newProxyCtnEnvArgs`: four words for every port, each followed by a blank. -/
def newProxyCtnEnvArgs (ports : List ServicePort) (clusterIP : String) : List (String × String) :=
  [("PROXY_ARGS", String.join (ports.map fun port =>
    clusterIP ++ " " ++ toString port.port ++ " " ++ toString port.port ++ " " ++
      toLower port.protocol ++ " "))]

/-- `newProxyCtnPorts`. -/
def newProxyCtnPorts (ports : List ServicePort) : List ContainerPort :=
  ports.map fun port => ⟨port.port, port.port, port.name, port.protocol⟩

/-- `newProxyCtn`. -/
def newProxyCtn (env : Env) (svc : Service) : Code Container := do
  let image ← getProxyImage env
  pure {
    name := proxyRescName svc.name svc.ns
    image := image
    ports := newProxyCtnPorts svc.ports
    env := newProxyCtnEnvArgs svc.ports svc.clusterIP }

/-- `newForwardCtn`. -/
def newForwardCtn (env : Env) (name : String) : Code Container := do
  let image ← getForwardImage env
  pure { name := name, image := image }

/-- `newProxyResc`, for the kind of workload the annotation asks for. -/
def newProxyResc (env : Env) (kind : WorkloadKind) (svc : Service) : Code Workload := do
  let proxy ← newProxyCtn env svc
  let forward ← newForwardCtn env svc.name
  pure {
    kind := kind
    ns := env.envNamespace
    name := proxyRescName svc.name svc.ns
    annotations := Map.ofList [(openELBAnnotationKey, openELBAnnotationValue),
      (nodeProxyTypeAnnotationKey, svc.ns)]
    matchLabels := Map.ofList [("name", proxyRescName svc.name svc.ns)]
    podLabels := Map.ofList [("name", proxyRescName svc.name svc.ns)]
    containers := [proxy]
    initContainers := [forward] }

/-- The kind of workload a service's annotation asks for. -/
def proxyKind (svc : Service) : Option WorkloadKind :=
  if svc.annotations.get nodeProxyTypeAnnotationKey = some nodeProxyTypeDeployment then
    some .deployment
  else if svc.annotations.get nodeProxyTypeAnnotationKey = some nodeProxyTypeDaemonSet then
    some .daemonSet
  else none

/-- The other kind. -/
def WorkloadKind.other : WorkloadKind → WorkloadKind
  | .deployment => .daemonSet
  | .daemonSet => .deployment

/-! ## The nodes -/

/-- The addresses of one node that are left: external and internal ones are
collected, and a node with an external one is labelled.  Writing to the labels of
a node that has none panics. -/
def labelNode : Version Node → List NodeAddress → List String × List String →
    Code (List String × List String)
  | _, [], ips => pure ips
  | node, a :: as, (external, internal) =>
    match a.type with
    | .externalIP =>
      if (node.obj.labels.get labelNodeProxyExternalIPPreffered).isSome then
        labelNode node as (external ++ [a.address], internal)
      else if node.obj.labels.isNil then crash
      else do
        let labels := node.obj.labels.set labelNodeProxyExternalIPPreffered ""
        let node ← must (← api (.updateNode ⟨node.rv, { node.obj with labels := labels }⟩))
        labelNode node as (external ++ [a.address], internal)
    | .internalIP => labelNode node as (external, internal ++ [a.address])
    | .other => labelNode node as (external, internal)

/-- The loop over the nodes in `reconcileNPNormal`: the keys of
`nodeWithExternalIP` and of `nodeWithInternalIP`. -/
def labelNodes : List (Version Node) → List String × List String → Code (List String × List String)
  | [], ips => pure ips
  | node :: nodes, ips => do
    let ips ← labelNode node node.obj.addresses ips
    labelNodes nodes ips

/-! ## Reconciling -/

/-- An annotation that lists addresses in order, and is left out if there are none. -/
def setIPs (annotations : Map String String) (key : String) (ips : List String) :
    Map String String :=
  if ips ≠ [] then annotations.set key (join ',' (ips.insertionSort (· ≤ ·)))
  else annotations.delete key

/-- The branch of `reconcileNPNormal` for a workload that exists. -/
def updateProxy (env : Env) (svc : Version Service) (kind : WorkloadKind)
    (nodeWithExternalIP nodeWithInternalIP : List String) : Code Unit := do
  let proxyResc ← newProxyResc env kind svc.obj
  let _ ← must (← api (.updateWorkload proxyResc))
  match ← api (.listPods env.envNamespace "name" (proxyRescName svc.obj.name svc.obj.ns) "Running") with
  | .error e => fail (.api e)
  | .ok [] => pure ()
  | .ok pods =>
    let hostIPs := pods.map Pod.hostIP
    let annotations := setIPs svc.obj.annotations nodeProxyExternalIPAnnotationKey
      (hostIPs.filter (· ∈ nodeWithExternalIP))
    let annotations := setIPs annotations nodeProxyInternalIPAnnotationKey
      (hostIPs.filter (· ∈ nodeWithInternalIP))
    let _ ← must (← api (.updateService ⟨svc.rv, { svc.obj with annotations := annotations }⟩))
    pure ()

/-- The last part of `reconcileNPNormal`: the workload is updated, or created. -/
def ensureProxy (env : Env) (svc : Version Service) (kind : WorkloadKind)
    (nodeWithExternalIP nodeWithInternalIP : List String) : Code Unit := do
  match ← api (.getWorkload (kind, ⟨env.envNamespace, proxyRescName svc.obj.name svc.obj.ns⟩)) with
  | .ok _ => updateProxy env svc kind nodeWithExternalIP nodeWithInternalIP
  | .error .notFound =>
    let proxyResc ← newProxyResc env kind svc.obj
    let _ ← must (← api (.createWorkload proxyResc))
    pure ()
  | .error e => fail (.api e)

/-- The part of `reconcileNPNormal` that follows the finalizer. -/
def runProxy (env : Env) (svc : Version Service) : Code Unit := do
  let nodes ← must (← api .listNodes)
  let (nodeWithExternalIP, nodeWithInternalIP) ← labelNodes nodes ([], [])
  match proxyKind svc.obj with
  | none => pure ()
  | some kind =>
    let name : NamespacedName := ⟨env.envNamespace, proxyRescName svc.obj.name svc.obj.ns⟩
    -- the workload of the other kind goes away
    match ← api (.getWorkload (kind.other, name)) with
    | .ok _ =>
      let _ ← must (← api (.deleteWorkload (kind.other, name)))
      ensureProxy env svc kind nodeWithExternalIP nodeWithInternalIP
    | .error .notFound => ensureProxy env svc kind nodeWithExternalIP nodeWithInternalIP
    | .error e => fail (.api e)

/-- `reconcileNPNormal`. -/
def reconcileNPNormal (env : Env) (svc : Version Service) : Code Unit :=
  if nodeProxyFinalizerName ∈ svc.obj.finalizers then runProxy env svc
  else do
    let finalizers := addFinalizer svc.obj.finalizers nodeProxyFinalizerName
    let svc ← must (← api (.updateService ⟨svc.rv, { svc.obj with finalizers := finalizers }⟩))
    runProxy env svc

/-- `reconcileNPDelete`. -/
def reconcileNPDelete (env : Env) (svc : Version Service) : Code Unit :=
  if nodeProxyFinalizerName ∈ svc.obj.finalizers then
    match proxyKind svc.obj with
    | none => pure ()
    | some kind => do
      let name : NamespacedName := ⟨env.envNamespace, proxyRescName svc.obj.name svc.obj.ns⟩
      match ← api (.getWorkload (kind, name)) with
      | .error .notFound => pure ()
      | .error e => fail (.api e)
      | .ok _ =>
        let _ ← must (← api (.deleteWorkload (kind, name)))
        let finalizers := removeFinalizer svc.obj.finalizers nodeProxyFinalizerName
        let _ ← must (← api (.updateService ⟨svc.rv, { svc.obj with finalizers := finalizers }⟩))
        pure ()
  else pure ()

/-- `reconcileNP`. -/
def reconcileNP (env : Env) (svc : Version Service) : Code Unit :=
  if svc.obj.deletionTimestamp then reconcileNPDelete env svc else reconcileNPNormal env svc

/-! ## The calls -/

section Calls
variable {P : Call → Prop} {env : Env}

theorem all_getImage (h : ∀ name, P (.getConfigMap name)) (key default : String) :
    Prog.All P (getImage env key default) := by
  refine all_api (h _) fun r => ?_
  cases r <;> trivial

theorem all_newProxyResc (h : ∀ name, P (.getConfigMap name)) (kind : WorkloadKind) (svc : Service) :
    Prog.All P (newProxyResc env kind svc) := by
  refine all_bind (all_bind (all_getImage h _ _) fun _ => trivial) fun _ => ?_
  exact all_bind (all_bind (all_getImage h _ _) fun _ => trivial) fun _ => trivial

/-- What follows may rely on the name of the new workload. -/
theorem all_newProxyResc_bind (h : ∀ name, P (.getConfigMap name)) (kind : WorkloadKind) (svc : Service)
    {α : Type} {f : Workload → Code α}
    (hf : ∀ w : Workload, w.key = (kind, ⟨env.envNamespace, proxyRescName svc.name svc.ns⟩) →
      Prog.All P (f w)) :
    Prog.All P (newProxyResc env kind svc >>= f : Code α) := by
  unfold newProxyResc newProxyCtn newForwardCtn getProxyImage getForwardImage
  simp only [bind_assoc, pure_bind]
  exact all_bind (all_getImage h _ _) fun _ => all_bind (all_getImage h _ _) fun _ => hf _ rfl

theorem all_labelNode (h : ∀ v, P (.updateNode v)) (node : Version Node)
    (as : List NodeAddress) (ips : List String × List String) :
    Prog.All P (labelNode node as ips) := by
  induction as generalizing node ips with
  | nil => trivial
  | cons a as ih =>
    rw [labelNode]
    split
    · split
      · exact ih _ _
      · split
        · trivial
        · exact all_api (h _) fun r => all_bind (all_must r) fun _ => ih _ _
    · exact ih _ _
    · exact ih _ _

theorem all_labelNodes (h : ∀ v, P (.updateNode v)) (nodes : List (Version Node))
    (ips : List String × List String) : Prog.All P (labelNodes nodes ips) := by
  induction nodes generalizing ips with
  | nil => trivial
  | cons node nodes ih => exact all_bind (all_labelNode h ..) fun _ => ih _

end Calls

/-- `P` allows the calls that are made for the service: reads, writes to nodes and services,
and writes to the workloads with the service's name for them. -/
structure ProxyCalls (P : Call → Prop) (env : Env) (k : NamespacedName) : Prop where
  getConfigMap : ∀ name, P (.getConfigMap name)
  listNodes : P .listNodes
  updateNode : ∀ v, P (.updateNode v)
  getWorkload : ∀ key, P (.getWorkload key)
  listPods : ∀ ns label value phase, P (.listPods ns label value phase)
  updateService : ∀ v, P (.updateService v)
  createWorkload : ∀ w : Workload, w.key.2 = ⟨env.envNamespace, proxyRescName k.name k.ns⟩ →
    P (.createWorkload w)
  updateWorkload : ∀ w : Workload, w.key.2 = ⟨env.envNamespace, proxyRescName k.name k.ns⟩ →
    P (.updateWorkload w)
  deleteWorkload : ∀ kind, P (.deleteWorkload
    (kind, ⟨env.envNamespace, proxyRescName k.name k.ns⟩))

namespace ProxyCalls
variable {P : Call → Prop} {env : Env} {svc : Version Service}

theorem all_updateProxy (h : ProxyCalls P env svc.obj.key) (kind : WorkloadKind)
    (external internal : List String) : Prog.All P (updateProxy env svc kind external internal) := by
  refine all_newProxyResc_bind h.getConfigMap kind svc.obj fun w hw => ?_
  refine all_api (h.updateWorkload w (congrArg Prod.snd hw)) fun r => all_bind (all_must r) fun _ => ?_
  refine all_api (h.listPods ..) fun r => ?_
  split
  · trivial
  · trivial
  · exact all_api (h.updateService _) fun r => all_bind (all_must r) fun _ => trivial

theorem all_ensureProxy (h : ProxyCalls P env svc.obj.key) (kind : WorkloadKind)
    (external internal : List String) : Prog.All P (ensureProxy env svc kind external internal) := by
  refine all_api (h.getWorkload _) fun r => ?_
  split
  · exact h.all_updateProxy kind external internal
  · refine all_newProxyResc_bind h.getConfigMap kind svc.obj fun w hw => ?_
    exact all_api (h.createWorkload w (congrArg Prod.snd hw)) fun r => all_bind (all_must r) fun _ => trivial
  · trivial

theorem all_runProxy (h : ProxyCalls P env svc.obj.key) : Prog.All P (runProxy env svc) := by
  refine all_api h.listNodes fun r => all_bind (all_must r) fun nodes => ?_
  refine all_bind (all_labelNodes h.updateNode ..) fun ips => ?_
  dsimp only
  split
  · trivial
  · refine all_api (h.getWorkload _) fun r => ?_
    split
    · refine all_api (h.deleteWorkload _) fun r => all_bind (all_must r) fun _ => ?_
      exact h.all_ensureProxy ..
    · exact h.all_ensureProxy ..
    · trivial

theorem all_reconcileNPDelete (h : ProxyCalls P env svc.obj.key) :
    Prog.All P (reconcileNPDelete env svc) := by
  unfold reconcileNPDelete
  split
  · split
    · trivial
    · refine all_api (h.getWorkload _) fun r => ?_
      split
      · trivial
      · trivial
      · refine all_api (h.deleteWorkload _) fun r => all_bind (all_must r) fun _ => ?_
        exact all_api (h.updateService _) fun r => all_bind (all_must r) fun _ => trivial
  · trivial

end ProxyCalls

/-- The calls of `reconcileNP`, whatever service the server answers with. -/
theorem all_reconcileNP_of {P : Call → Prop} {env : Env} (h : ∀ k, ProxyCalls P env k)
    (svc : Version Service) : Prog.All P (reconcileNP env svc) := by
  rw [reconcileNP]
  split
  · exact (h _).all_reconcileNPDelete
  · rw [reconcileNPNormal]
    split
    · exact (h _).all_runProxy
    · refine all_api ((h svc.obj.key).updateService _) fun r => all_bind (all_must r) fun _ => ?_
      exact (h _).all_runProxy

end OpenELB
