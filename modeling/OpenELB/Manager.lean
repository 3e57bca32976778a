import OpenELB.Allocation
import OpenELB.ApiServer
import OpenELB.IpRange

/-! # The IPAM manager

`pkg/controllers/ipam/ipam.go`: `ConstructRequest` compares what a service asks
for with what is recorded for it and decides what has to be released and
allocated; `AssignIP` and `ReleaseIP` read an Eip, change a copy of it in memory
and write its status back. -/
namespace OpenELB
open Go Code

/-- What the code takes from outside the cluster. -/
structure Env where
  /-- `metav1.LabelSelectorAsSelector` accepts the labels. -/
  validSelector : Map String String → Bool
  /-- What `%v` prints of a label selector. -/
  selectorText : Map String String → String
  /-- `util.EnvNamespace`. -/
  envNamespace : String

/-- `Request`. -/
structure Request where
  allocate : Option SvcRecord := none
  release : Option SvcRecord := none
  deriving DecidableEq

/-- `info`. -/
structure Info where
  svcName : String
  svcSpecifyEIP : String := ""
  svcSpecifyLBIP : String := ""
  svcStatusLBIP : String := ""
  allocatedEip : String := ""
  allocatedIP : String := ""
  deriving DecidableEq

/-- `info.needUpdate`. -/
def Info.needUpdate (i : Info) : Bool :=
  if i.svcSpecifyEIP = "" ∧ i.svcSpecifyLBIP = "" ∧ i.svcStatusLBIP = i.allocatedIP then false
  else if i.svcSpecifyEIP = i.allocatedEip ∧
      (i.svcSpecifyLBIP = i.allocatedIP ∧ i.svcStatusLBIP ≠ "" ∨
        i.svcSpecifyLBIP = "" ∧ i.svcStatusLBIP = i.allocatedIP) then false
  else true

/-! ## Finding the record of a service -/

/-- The loops of `getAllocatedEIPInfo`. -/
def findAllocated (svcInfo : String) : List (Version Eip) → Code (String × String)
  | [] => pure ("", "")
  | eip :: eips =>
    if eip.obj.deletionTimestamp then findAllocated svcInfo eips
    else do
      let keys ← api (.rangeUsed eip.obj.status.used)
      match keys.find? fun addr => svcInfo ∈ eip.obj.listed addr with
      | some addr => pure (eip.obj.name, addr)
      | none => findAllocated svcInfo eips

/-- `Manager.getAllocatedEIPInfo`: the Eip and the address that list the service. -/
def getAllocatedEIPInfo (svcInfo : String) : Code (String × String) := do
  let eips ← must (← api .listEips)
  findAllocated svcInfo eips

/-! ## Choosing an Eip -/

/-- The text of `EipNotContainIP` for an address. -/
def eipNotContainIP (ip : String) : Err :=
  .text ("no available eip was found containing the ip:[" ++ ip ++ "]")

/-- The two checks on an Eip that was asked for. -/
def usableEip (eip : Eip) : Code Eip :=
  if eip.deletionTimestamp then fail (.text ("eip:" ++ eip.name ++ " is deleting"))
  else if eip.spec.disable then fail (.text ("eip:" ++ eip.name ++ " is disabled"))
  else pure eip

/-- `Manager.getEIPBasedOnIP`. -/
def getEIPBasedOnIP (ip : String) : Code Eip := do
  let eips ← must (← api .listEips)
  match eips.find? fun e => e.obj.contains ((parseIP ip).getD []) with
  | some e => usableEip e.obj
  | none => fail (eipNotContainIP ip)

/-- Every label of the selector is a label of the namespace. -/
def selectorMatches (selector labels : Map String String) : Bool :=
  decide (∀ k ∈ (Option.getD selector ∅).keys, labels.get k = selector.get k)

/-- The loop of `getDefaultEIP`: the Eips bound to the namespace, by name and by
selector, and the first default Eip. -/
def collectEips (env : Env) (name : String) (labels : Map String String) :
    List Eip → List Eip → Option Eip → Except Err (List Eip × Option Eip)
  | [], nseips, defaultEip => .ok (nseips, defaultEip)
  | e :: eips, nseips, defaultEip =>
    if e.deletionTimestamp ∨ e.spec.disable then collectEips env name labels eips nseips defaultEip
    else
      let nseips := if name ∈ e.spec.namespaces then nseips ++ [e] else nseips
      let selects := !labels.isNil && !e.spec.namespaceSelector.isNil
      if selects && !env.validSelector e.spec.namespaceSelector then
        .error (.text ("eip:[" ++ e.name ++ "] invalid namespace label selector " ++
          env.selectorText e.spec.namespaceSelector))
      else
        let nseips :=
          if selects && selectorMatches e.spec.namespaceSelector labels then nseips ++ [e] else nseips
        let defaultEip := if defaultEip.isNone && e.isDefault then some e else defaultEip
        collectEips env name labels eips nseips defaultEip

/-- The end of `getDefaultEIP`: the first of the sorted Eips, or the default one. -/
def pickEip (nseips : List Eip) (defaultEip : Option Eip) : Code Eip :=
  if nseips ≠ [] then do
    match ← api (.sortEips nseips) with
    | e :: _ => pure e
    | [] => crash
  else
    match defaultEip with
    | some e => pure e
    | none => fail (.text "no available default eip found")

/-- `Manager.getDefaultEIP`. -/
def getDefaultEIP (env : Env) (name : String) : Code Eip := do
  let ns ← must (← api (.getNamespace name))
  let eips ← must (← api .listEips)
  match collectEips env name ns.labels (eips.map Version.obj) [] none with
  | .error e => fail e
  | .ok (nseips, defaultEip) => pickEip nseips defaultEip

/-- `Manager.getEIP`. -/
def getEIP (env : Env) (ns svcip specifyEip : String) : Code Eip :=
  if specifyEip = "" then
    if svcip ≠ "" then getEIPBasedOnIP svcip else getDefaultEIP env ns
  else do
    let eip ← must (← api (.getEip specifyEip))
    let eip ← usableEip eip.obj
    if svcip ≠ "" ∧ ¬ eip.contains ((parseIP svcip).getD []) then fail (eipNotContainIP svcip)
    else pure eip

/-! ## The request -/

/-- `Manager.constructRelease`. -/
def constructRelease (info : Info) : Option SvcRecord :=
  if info.allocatedEip = "" ∧ info.allocatedIP = "" then
    -- no record; the status may still have an address
    if info.svcStatusLBIP = "" then none
    else some ⟨info.svcName, info.svcStatusLBIP, info.allocatedEip⟩
  else some ⟨info.svcName, info.allocatedIP, info.allocatedEip⟩

/-- `needRelease`. -/
def needRelease (svc : Service) : Bool :=
  svc.annotations.isNil || svc.deletionTimestamp || svc.type ≠ .loadBalancer ||
    svc.annotations.get openELBAnnotationKey ≠ some openELBAnnotationValue

/-- The addresses of a service's status, as `ConstructRequest` compares them. -/
def Service.statusLBIP (svc : Service) : String :=
  join ';' ((svc.ingress.getD []).map LoadBalancerIngress.ip)

/-- The address a service asks for. -/
def Service.specifyLBIP (svc : Service) : String :=
  (svc.annotations.get openELBEIPAnnotationKey).getD svc.loadBalancerIP

/-- The Eip a service asks for. -/
def Service.specifyEIP (svc : Service) : String :=
  (svc.annotations.get openELBEIPAnnotationKeyV1Alpha2).getD ""

/-- The Eip for a service: the one it asks for, or one that is chosen for it. -/
def chooseEIP (env : Env) (svc : Service) : Code String :=
  if svc.specifyEIP = "" then do
    let eip ← getEIP env svc.ns svc.specifyLBIP svc.specifyEIP
    pure eip.name
  else pure svc.specifyEIP

/-- `Manager.ConstructRequest`. -/
def constructRequest (env : Env) (svc : Service) : Code Request :=
  if svc.annotations.isNil then pure {}
  else do
    let (allocatedEip, allocatedIP) ← getAllocatedEIPInfo svc.key.text
    let info : Info := {
      svcName := svc.key.text
      svcStatusLBIP := svc.statusLBIP
      allocatedEip := allocatedEip
      allocatedIP := allocatedIP }
    let release := constructRelease info
    if needRelease svc then pure { release := release }
    else
      match ← attempt (chooseEIP env svc) with
      | .error _ => pure { release := release }
      | .ok eip =>
        let info := { info with svcSpecifyLBIP := svc.specifyLBIP, svcSpecifyEIP := eip }
        if ¬ info.needUpdate ∧ (svc.labels.get openELBEIPAnnotationKeyV1Alpha2).isSome then pure {}
        else pure { release := release, allocate := some ⟨svc.key.text, svc.specifyLBIP, eip⟩ }

/-! ## Assigning and releasing -/

/-- `IsSameFamily`. -/
def isSameFamily (eipFamily : IpRange.Family) (ipFamilies : List IPFamily) : Bool :=
  ipFamilies.any fun ipFamily =>
    (ipFamily = .ipv4 ∧ eipFamily = .v4Family) ∨ (ipFamily = .ipv6 ∧ eipFamily = .v6Family)

/-- The part of `AssignIP` that follows the family check. -/
def assignFrom (allocate : SvcRecord) (eip : Version Eip) : Code String := do
  let keys ← api (.rangeUsed eip.obj.status.used)
  match assignIPFromEip keys allocate eip.obj with
  | .panic => crash
  | .err e => fail (.text ("no avliable eip, err:" ++ e.error))
  | .ok (addr, clone) =>
    if clone ≠ eip.obj then
      let _ ← must (← api (.updateEipStatus ⟨eip.rv, clone⟩))
      pure addr
    else pure addr

/-- `Manager.AssignIP`; the result is the address it puts into the record. -/
def assignIP (ipFamilies : List IPFamily) (allocate : SvcRecord) : Code String := do
  let eip ← must (← api (.getEip allocate.eip))
  match IpRange.parseRange eip.obj.spec.address with
  | .error msg => fail (.text msg)
  | .ok none => crash  -- a method call on a nil range
  | .ok (some parseRange) =>
    if isSameFamily parseRange.family ipFamilies then assignFrom allocate eip
    else fail (.text "service can't use different family eip")

/-- `Manager.ReleaseIP`.  If the Eip is not there, the source goes on with an empty
one, from which there is nothing to release. -/
def releaseIP (release : SvcRecord) : Code Unit := do
  match ← api (.getEip release.eip) with
  | .error .notFound => pure ()
  | .error e => fail (.api e)
  | .ok eip =>
    let keys ← api (.rangeUsed eip.obj.status.used)
    let clone := releaseIPFromEip keys release.key eip.obj
    if clone ≠ eip.obj then
      let _ ← must (← api (.updateEipStatus ⟨eip.rv, clone⟩))
      pure ()
    else pure ()

end OpenELB
