import OpenELB.GoText
import OpenELB.VersionedStore

/-! # The objects of the cluster

The parts of Kubernetes objects, and of the `Eip` resource, that the controllers
read or write.  A version number (`metadata.resourceVersion`) is not a field
here: it belongs to a stored version of an object (`Version`).

`DeletionTimestamp` is only ever tested for being set, so it is a `Bool`.  The
rules the API server has for names are fields: an object that breaks them cannot
be built, as it cannot be created. -/
namespace OpenELB
open Go

/-! ## Names used in labels, annotations and finalizers -/

/-- `constant.FinalizerName`. -/
def finalizerName : String := "finalizer.lb.kubesphere.io/v1alpha1"
/-- `constant.IPAMFinalizerName`. -/
def ipamFinalizerName : String := "finalizer.ipam.kubesphere.io/v1alpha1"
/-- `constant.OpenELBAnnotationKey`. -/
def openELBAnnotationKey : String := "lb.kubesphere.io/v1alpha1"
/-- `constant.OpenELBAnnotationValue`. -/
def openELBAnnotationValue : String := "openelb"
/-- `constant.OpenELBEIPAnnotationKey`: the requested IP. -/
def openELBEIPAnnotationKey : String := "eip.openelb.kubesphere.io/v1alpha1"
/-- `constant.OpenELBEIPAnnotationKeyV1Alpha2`: as an annotation the requested
Eip, as a label the Eip the address came from. -/
def openELBEIPAnnotationKeyV1Alpha2 : String := "eip.openelb.kubesphere.io/v1alpha2"
/-- `constant.OpenELBEIPAnnotationDefaultPool`. -/
def openELBEIPAnnotationDefaultPool : String := "eip.openelb.kubesphere.io/is-default-eip"
/-- `constant.OpenELBProtocolLayer2`. -/
def openELBProtocolLayer2 : String := "layer2"
/-- `constant.OpenELBProtocolBGP`. -/
def openELBProtocolBGP : String := "bgp"
/-- `constant.OpenELBProtocolVip`. -/
def openELBProtocolVip : String := "vip"
/-- `constant.NodeProxyTypeAnnotationKey`. -/
def nodeProxyTypeAnnotationKey : String := "node-proxy.openelb.kubesphere.io/type"
/-- `constant.NodeProxyTypeDeployment`. -/
def nodeProxyTypeDeployment : String := "deployment"
/-- `constant.NodeProxyTypeDaemonSet`. -/
def nodeProxyTypeDaemonSet : String := "daemonset"
/-- `constant.NodeProxyFinalizerName`. -/
def nodeProxyFinalizerName : String := "node-proxy.openelb.kubesphere.io/finalizer"
/-- `constant.LabelNodeProxyExternalIPPreffered`. -/
def labelNodeProxyExternalIPPreffered : String :=
  "node-proxy.openelb.kubesphere.io/external-ip-preffered"
/-- `constant.NodeProxyExternalIPAnnotationKey`. -/
def nodeProxyExternalIPAnnotationKey : String := "node-proxy.openelb.kubesphere.io/external-ip"
/-- `constant.NodeProxyInternalIPAnnotationKey`. -/
def nodeProxyInternalIPAnnotationKey : String := "node-proxy.openelb.kubesphere.io/internal-ip"
/-- `constant.NodeProxyWorkloadPrefix`. -/
def nodeProxyWorkloadPrefix : String := "node-proxy-"

/-! ## Eips -/

/-- `EipSpec`. -/
structure EipSpec where
  address : String
  protocol : String := ""
  interface : String := ""
  disable : Bool := false
  usingKnownIPs : Bool := false
  priority : Int := 0
  namespaces : List String := []
  namespaceSelector : Map String String := Map.nil
  deriving DecidableEq

/-- `EipStatus`.  `used` maps the text of an address to the keys of the services
that hold it, joined by semicolons. -/
structure EipStatus where
  occupied : Bool := false
  usage : Int := 0
  poolSize : Int := 0
  used : Map String String := Map.nil
  firstIP : String := ""
  lastIP : String := ""
  ready : Bool := false
  v4 : Bool := false
  deriving DecidableEq

/-- An `Eip`: a pool of addresses. -/
structure Eip where
  name : String
  deletionTimestamp : Bool := false
  finalizers : List String := []
  annotations : Map String String := Map.nil
  spec : EipSpec
  status : EipStatus := {}
  name_ne : name ≠ "" := by decide
  deriving DecidableEq

/-! ## Services -/

/-- `types.NamespacedName`. -/
structure NamespacedName where
  ns : String
  name : String
  deriving DecidableEq

/-- `NamespacedName.String`. -/
def NamespacedName.text (k : NamespacedName) : String := k.ns ++ "/" ++ k.name

/-- What the API server's rules for names give here: a name is not empty, and has
no slash and no semicolon in it. -/
def ValidName (s : String) : Prop := s ≠ "" ∧ '/' ∉ s.toList ∧ ';' ∉ s.toList

instance (s : String) : Decidable (ValidName s) := inferInstanceAs (Decidable (_ ∧ _))

/-- The name of an object that can exist. -/
structure NamespacedName.Valid (k : NamespacedName) : Prop where
  ns : ValidName k.ns
  name : ValidName k.name

namespace NamespacedName.Valid
variable {k k' : NamespacedName}

theorem semicolon_notMem (h : k.Valid) : ';' ∉ k.text.toList := by
  simp [text, h.ns.2.2, h.name.2.2]

theorem text_ne_empty : k.text ≠ "" := by
  intro h
  have := congrArg String.toList h
  simp [text] at this

theorem split_text (h : k.Valid) : split '/' k.text = [k.ns, k.name] := by
  have hs : split '/' (k.ns ++ String.ofList ['/'] ++ k.name) = split '/' k.ns ++ [k.name] :=
    split_append h.name.2.1
  rw [split_of_notMem h.ns.2.1] at hs
  exact hs

/-- The key of a service names it. -/
theorem text_inj (h : k.Valid) (h' : k'.Valid) (he : k.text = k'.text) : k = k' := by
  have hs := h.split_text
  rw [he, h'.split_text] at hs
  simp only [List.cons.injEq, and_true] at hs
  cases k
  cases k'
  simp_all

end NamespacedName.Valid

/-- `ServiceType`. -/
inductive ServiceType where
  | clusterIP
  | nodePort
  | loadBalancer
  | externalName
  deriving DecidableEq

/-- `IPFamily`. -/
inductive IPFamily where
  | ipv4
  | ipv6
  deriving DecidableEq

/-- `LoadBalancerIngress`. -/
structure LoadBalancerIngress where
  ip : String
  hostname : String := ""
  deriving DecidableEq

/-- `ServicePort`. -/
structure ServicePort where
  name : String := ""
  port : Int
  protocol : String := "TCP"
  deriving DecidableEq

/-- `ServiceExternalTrafficPolicyType`: to all nodes, or only to those with an endpoint. -/
inductive ExternalTrafficPolicy where
  | cluster
  | onlyLocal
  deriving DecidableEq

/-- A `Service`.  `ingress` is `status.loadBalancer.ingress`; `none` is the nil
slice, which `reflect.DeepEqual` tells from an empty one. -/
structure Service where
  ns : String
  name : String
  deletionTimestamp : Bool := false
  finalizers : List String := []
  labels : Map String String := Map.nil
  annotations : Map String String := Map.nil
  type : ServiceType := .clusterIP
  loadBalancerIP : String := ""
  ipFamilies : List IPFamily := []
  clusterIP : String := ""
  ports : List ServicePort := []
  externalTrafficPolicy : ExternalTrafficPolicy := .cluster
  ingress : Option (List LoadBalancerIngress) := none
  ns_valid : ValidName ns := by decide
  name_valid : ValidName name := by decide
  deriving DecidableEq

/-- The name a service is stored under. -/
def Service.key (s : Service) : NamespacedName := ⟨s.ns, s.name⟩

theorem Service.key_valid (s : Service) : s.key.Valid := ⟨s.ns_valid, s.name_valid⟩

/-- A `Namespace`. -/
structure Namespace where
  name : String
  labels : Map String String := Map.nil
  deriving DecidableEq

/-! ## Nodes, pods and proxy workloads -/

/-- The types of node addresses the code looks for, and the others. -/
inductive NodeAddressType where
  | externalIP
  | internalIP
  | other
  deriving DecidableEq

/-- `NodeAddress`. -/
structure NodeAddress where
  type : NodeAddressType
  address : String
  deriving DecidableEq

/-- A `Node`. -/
structure Node where
  name : String
  labels : Map String String := Map.nil
  addresses : List NodeAddress := []
  deriving DecidableEq

/-- A `Pod`. -/
structure Pod where
  ns : String
  name : String
  labels : Map String String := Map.nil
  phase : String := ""
  hostIP : String := ""
  deriving DecidableEq

/-- The two kinds of proxy workloads. -/
inductive WorkloadKind where
  | deployment
  | daemonSet
  deriving DecidableEq

/-- `ContainerPort`. -/
structure ContainerPort where
  containerPort : Int
  hostPort : Int
  name : String
  protocol : String
  deriving DecidableEq

/-- `Container`, without the security context, which is fixed. -/
structure Container where
  name : String
  image : String
  ports : List ContainerPort := []
  env : List (String × String) := []
  deriving DecidableEq

/-- A `Deployment` or a `DaemonSet`: its metadata, its selector and its pod
template, without the affinity and the tolerations, which are fixed. -/
structure Workload where
  kind : WorkloadKind
  ns : String
  name : String
  annotations : Map String String := Map.nil
  matchLabels : Map String String := Map.nil
  podLabels : Map String String := Map.nil
  containers : List Container := []
  initContainers : List Container := []
  deriving DecidableEq

/-- The name a workload is stored under. -/
def Workload.key (w : Workload) : WorkloadKind × NamespacedName := (w.kind, ⟨w.ns, w.name⟩)

/-! ## Tests on annotations and finalizers -/

/-- `validate.HasOpenELBAnnotation`. -/
def hasOpenELBAnnotation (annotations : Map String String) : Bool :=
  annotations.get openELBAnnotationKey = some openELBAnnotationValue

/-- `validate.HasOpenELBNPAnnotation`. -/
def hasOpenELBNPAnnotation (annotations : Map String String) : Bool :=
  annotations.get nodeProxyTypeAnnotationKey = some nodeProxyTypeDeployment ∨
    annotations.get nodeProxyTypeAnnotationKey = some nodeProxyTypeDaemonSet

theorem hasOpenELBNPAnnotation_congr {annotations annotations' : Map String String}
    (h : annotations'.get nodeProxyTypeAnnotationKey = annotations.get nodeProxyTypeAnnotationKey) :
    hasOpenELBNPAnnotation annotations' = hasOpenELBNPAnnotation annotations := by
  unfold hasOpenELBNPAnnotation
  rw [h]

/-- `strings.ToLower`, on ASCII. -/
def toLower (s : String) : String := String.ofList (s.toList.map Char.toLower)

/-- `validate.HasOpenELBDefaultEipAnnotation`. -/
def hasOpenELBDefaultEipAnnotation (annotations : Map String String) : Bool :=
  match annotations.get openELBEIPAnnotationDefaultPool with
  | some value => toLower value = "true"
  | none => false

/-- `controllerutil.AddFinalizer`. -/
def addFinalizer (fs : List String) (f : String) : List String :=
  if f ∈ fs then fs else fs ++ [f]

theorem mem_addFinalizer (fs : List String) (f : String) : f ∈ addFinalizer fs f := by
  rw [addFinalizer]
  split
  · assumption
  · exact List.mem_append_right fs (List.mem_singleton_self f)

/-- `controllerutil.RemoveFinalizer`. -/
def removeFinalizer (fs : List String) (f : String) : List String := fs.filter (· ≠ f)

/-- `util.IsDeletionCandidate`. -/
def isDeletionCandidate (deletionTimestamp : Bool) (finalizers : List String) (f : String) : Bool :=
  deletionTimestamp && finalizers.contains f

/-- `util.NeedToAddFinalizer`. -/
def needToAddFinalizer (deletionTimestamp : Bool) (finalizers : List String) (f : String) : Bool :=
  !deletionTimestamp && !finalizers.contains f

/-- `IsOpenELBService`: the filter on service events. -/
def isOpenELBService (svc : Service) : Bool :=
  (svc.labels.get openELBEIPAnnotationKeyV1Alpha2).isSome ||
    hasOpenELBAnnotation svc.annotations && svc.type = .loadBalancer

/-! ## Results -/

/-- A Go `error`: from the API, or a text. -/
inductive Err where
  | api (e : ApiErr)
  | text (msg : String)
  deriving DecidableEq

/-- `err.Error()`. -/
def Err.error : Err → String
  | .api .notFound => "not found"
  | .api .conflict => "the object has been modified"
  | .api (.other msg) => msg
  | .text msg => msg

/-- What a Go function with an `error` result does: it returns, it returns an
error, or it panics. -/
inductive Outcome (α : Type) where
  | ok (a : α)
  | err (e : Err)
  | panic
  deriving DecidableEq

end OpenELB
