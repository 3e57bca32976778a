import OpenELB.NodeProxy

/-! # The service controller

`pkg/controllers/lb/controller.go`: `ServiceReconciler.Reconcile` carries out the
request that `ConstructRequest` makes for a service: it releases, it assigns, and
it writes the label, the finalizer and the status of the service. -/
namespace OpenELB
open Go Code

/-- The second half of `updateReconcileResult`: write the status if it changes. -/
def updateIngress (svc resultSvc : Service) (clone : Version Service) : Code Unit :=
  if svc.ingress ≠ resultSvc.ingress then do
    let _ ← must (← api (.updateServiceStatus
      ⟨clone.rv, { clone.obj with ingress := resultSvc.ingress }⟩))
    pure ()
  else pure ()

/-- `updateReconcileResult`: write the service if its labels change, then its
status. -/
def updateReconcileResult (svc : Version Service) (resultSvc : Service) : Code Unit :=
  if svc.obj.labels ≠ resultSvc.labels then do
    let clone ← must (← api (.updateService ⟨svc.rv, resultSvc⟩))
    updateIngress svc.obj resultSvc clone
  else updateIngress svc.obj resultSvc ⟨svc.rv, resultSvc⟩

/-- The service once its address is released: no address, no finalizer, no label. -/
def Service.released (svc : Service) : Service :=
  { svc with
    ingress := some []
    finalizers := removeFinalizer svc.finalizers finalizerName
    labels := svc.labels.delete openELBEIPAnnotationKeyV1Alpha2 }

/-- The service once an address is assigned. -/
def Service.assigned (svc : Service) (eip addr : String) : Service :=
  { svc with
    ingress := some [{ ip := addr }]
    finalizers := addFinalizer svc.finalizers finalizerName
    labels := svc.labels.set openELBEIPAnnotationKeyV1Alpha2 eip }

/-- The allocation half of `Reconcile`, for a service that has become `clone`. -/
def allocateFor (svc : Version Service) (clone : Service) (allocate : SvcRecord) : Code Unit := do
  match ← attempt (assignIP svc.obj.ipFamilies allocate) with
  | .error e =>
    -- the result of the write is not looked at
    let _ ← attempt (updateReconcileResult svc clone)
    fail e
  | .ok addr => updateReconcileResult svc (clone.assigned allocate.eip addr)

/-- What is left to do after the release. -/
def finish (svc : Version Service) (clone : Service) : Option SvcRecord → Code Unit
  | none => updateReconcileResult svc clone
  | some allocate => allocateFor svc clone allocate

/-- What `Reconcile` does with a request. -/
def carryOut (svc : Version Service) (request : Request) : Code Unit :=
  if request.release = none ∧ request.allocate = none then pure ()
  else do
    let clone ← (match request.release with
      | none => pure svc.obj
      | some release => do
        releaseIP release
        pure svc.obj.released : Code Service)
    finish svc clone request.allocate

/-- `ServiceReconciler.Reconcile`. -/
def reconcile (env : Env) (k : NamespacedName) : Code Unit := do
  match ← api (.getService k) with
  | .error .notFound => pure ()
  | .error e => fail (.api e)
  | .ok svc =>
    if hasOpenELBNPAnnotation svc.obj.annotations then reconcileNP env svc
    else
      let request ← constructRequest env svc.obj
      carryOut svc request

end OpenELB
