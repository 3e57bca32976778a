import OpenELB.BgpConf
import OpenELB.PolicyMeaning

/-! # Installing a policy file

`updatePolicy` writes the text of a config map into a temporary file, decodes that, translates it
and makes three requests to gobgp: the sets and policies, the policies for routes that come in, and
those for routes that go out.  Nothing takes an accepted request back, so an update that fails may
leave the first one or two of them (`policy_update`).  Where nothing fails and the file is
translatable, gobgp decides on every route as the file says (`update_decides`).

Decoding TOML is a parameter.  The file system may fail at any call; that the temporary file could
not be removed is ignored. -/
namespace OpenELB.BgpPolicy
open Go GoNumber RoutePolicy Prog

/-! ## Assignments -/

/-- `table.RouteType`. -/
inductive RouteType where
  | none
  | accept
  | reject
  deriving DecidableEq

/-- `table.PolicyDirection`. -/
inductive PolicyDirection where
  | none
  | imports
  | exports
  deriving DecidableEq

/-- `table.PolicyAssignment`; a `table.Policy` is its name. -/
structure PolicyAssignment where
  name : String
  type : PolicyDirection
  policies : List String
  default : RouteType
  deriving DecidableEq

/-- `newAPIPolicyFromTableStruct`: `toConfig` has the name only. -/
def newAPIPolicyFromTableStruct (families : FamilyMap) (p : String) : Api.Policy :=
  toPolicyApi families { name := p }

/-- The direction in the API; the error of another one is logged. -/
def PolicyDirection.toApi : PolicyDirection → Api.PolicyDirection
  | .imports => .imports
  | .exports => .exports
  | .none => .unknown

/-- The default in the API. -/
def RouteType.toApi : RouteType → Api.RouteAction
  | .accept => .accept
  | .reject => .reject
  | .none => .none

/-- `NewAPIPolicyAssignmentFromTableStruct`. -/
def newAPIPolicyAssignmentFromTableStruct (families : FamilyMap) (t : PolicyAssignment) :
    Api.PolicyAssignment where
  name := t.name
  direction := t.type.toApi
  policies := t.policies.map (newAPIPolicyFromTableStruct families)
  defaultAction := t.default.toApi

/-- `toDefaultTable`. -/
def toDefaultTable (r : String) : RouteType :=
  if r = "accept-route" then .accept else if r = "reject-route" then .reject else .none

/-- The assignment of policies in one direction. -/
def globalAssignment (families : FamilyMap) (type : PolicyDirection) (policies : List String)
    (default : String) : Api.PolicyAssignment :=
  newAPIPolicyAssignmentFromTableStruct families
    { name := "global", type, policies, default := toDefaultTable default }

/-! ## The update -/

/-- What is asked of the file system and of gobgp. -/
inductive PolicyCall where
  | createTemp
  | writeFile (path text : String)
  | abs (path : String)
  | readConfigfile (path : String)
  | setPolicies (rp : Api.RoutingPolicy)
  | setPolicyAssignment (a : Api.PolicyAssignment)
  | removeAll (path : String)

/-- The types of the answers. -/
abbrev PolicyReply : PolicyCall → Type
  | .createTemp | .abs _ => Except Err String
  | .writeFile _ _ | .setPolicies _ | .setPolicyAssignment _ | .removeAll _ => Except Err Unit
  | .readConfigfile _ => Except Err BgpConfigSet

/-- Code that may return an error. -/
abbrev PolicyCode := ExceptT Err (Prog PolicyCall PolicyReply)

/-- `writeToTempFile`: with an error, the path is empty. -/
def writeToTempFile (val : String) : PolicyCode String := do
  let temp ← must (← ask .createTemp)
  must (← ask (.writeFile temp val))
  must (← ask (.abs temp))

/-- `assignGlobalpolicy`. -/
def assignGlobalpolicy (families : FamilyMap) (a : ApplyPolicyConfig) : PolicyCode Unit := do
  must (← ask (.setPolicyAssignment
    (globalAssignment families .imports a.importPolicyList a.defaultImportPolicy)))
  must (← ask (.setPolicyAssignment
    (globalAssignment families .exports a.exportPolicyList a.defaultExportPolicy)))

/-- `updatePolicy`, from the reading of the file on. -/
def installFile (families : FamilyMap) (path : String) : PolicyCode Unit := do
  let newConfig ← must (← ask (.readConfigfile path))
  let rp ← must
    (newAPIRoutingPolicyFromConfigStruct families (configSetToRoutingPolicy newConfig))
  must (← ask (.setPolicies rp))
  assignGlobalpolicy families newConfig.applyPolicy

/-- `updatePolicy`, of a policy text.  The path is removed at the end, if there is one, and it is
not looked at whether it could be. -/
def installText (families : FamilyMap) (policyConf : String) : PolicyCode Unit := do
  let path ← writeToTempFile policyConf
  let r ← attempt (installFile families path)
  let _ ← ask (PolicyCall.removeAll path)
  must r

/-- `updatePolicy`. -/
def updatePolicy (families : FamilyMap) : Option Bgp.ConfigMap → PolicyCode Unit
  | none => pure ()
  | some cm =>
    match cm.data.get Bgp.openELBBgpName with
    | none => pure ()
    | some policyConf => installText families policyConf

/-- The policy text of a config map. -/
def policyText (cm : Option Bgp.ConfigMap) : Option String :=
  cm.bind fun cm => cm.data.get Bgp.openELBBgpName

theorem updatePolicy_of_none {families : FamilyMap} {cm : Option Bgp.ConfigMap}
    (h : policyText cm = none) : updatePolicy families cm = pure () := by
  cases cm with
  | none => rfl
  | some cm =>
    rw [policyText, Option.bind_some] at h
    rw [updatePolicy, h]

theorem updatePolicy_of_some {families : FamilyMap} {cm : Option Bgp.ConfigMap} {text : String}
    (h : policyText cm = some text) : updatePolicy families cm = installText families text := by
  cases cm with
  | none => cases h
  | some cm =>
    rw [policyText, Option.bind_some] at h
    rw [updatePolicy, h]

/-! ## Files and gobgp -/

/-- A request that gobgp has accepted. -/
inductive Request where
  | policies (rp : Api.RoutingPolicy)
  | assignment (a : Api.PolicyAssignment)
  deriving DecidableEq

/-- The files, those that could not be removed, and the requests that gobgp has accepted, the last
one at the end. -/
structure PolicyState where
  files : String → Option String := fun _ => none
  unremoved : List String := []
  accepted : List Request := []

namespace PolicyState

/-- A file is written or removed. -/
def withFile (s : PolicyState) (path : String) (text : Option String) : PolicyState :=
  { s with files := Function.update s.files path text }

/-- A request is accepted, or refused. -/
def answer (s : PolicyState) (q : Request) : Except Err Unit → PolicyState
  | .ok _ => { s with accepted := s.accepted ++ [q] }
  | .error _ => s

end PolicyState

/-- What the calls do. -/
def policyExec (decode : String → Except Err BgpConfigSet) :
    (c : PolicyCall) → PolicyState → PolicyReply c → PolicyState → Prop
  | .createTemp, s, .ok name, s' => s.files name = none ∧ s' = s.withFile name (some "")
  | .createTemp, s, .error _, s' => s' = s
  | .writeFile path text, s, .ok _, s' => s' = s.withFile path (some text)
  -- a part of it may have been written
  | .writeFile path _, s, .error _, s' => ∃ part, s' = s.withFile path (some part)
  | .abs path, s, r, s' => s' = s ∧ ∀ p, r = .ok p → p = path
  | .readConfigfile path, s, r, s' =>
    s' = s ∧ ∀ c, r = .ok c → ∃ text, s.files path = some text ∧ decode text = .ok c
  | .setPolicies rp, s, r, s' => s' = s.answer (.policies rp) r
  | .setPolicyAssignment a, s, r, s' => s' = s.answer (.assignment a) r
  | .removeAll path, s, .ok _, s' => s' = s.withFile path none
  | .removeAll path, s, .error _, s' => s' = { s with unremoved := s.unremoved ++ [path] }

/-- The requests that are made for a file. -/
def requests (families : FamilyMap) (conf : BgpConfigSet) (rp : Api.RoutingPolicy) : List Request :=
  [.policies rp,
    .assignment (globalAssignment families .imports conf.applyPolicy.importPolicyList
      conf.applyPolicy.defaultImportPolicy),
    .assignment (globalAssignment families .exports conf.applyPolicy.exportPolicyList
      conf.applyPolicy.defaultExportPolicy)]

section Run
variable {families : FamilyMap} {decode : String → Except Err BgpConfigSet} {s₀ s : PolicyState}
  {text path : String}

/-- What an attempt to install the text leaves of the requests: the first ones, all of them if it
succeeds. -/
def Installs (families : FamilyMap) (decode : String → Except Err BgpConfigSet) (text : String)
    (before after : List Request) (r : Except Err Unit) : Prop :=
  (after = before ∧ ∃ e, r = .error e) ∨
    ∃ conf rp n, decode text = .ok conf ∧
      newAPIRoutingPolicyFromConfigStruct families (configSetToRoutingPolicy conf) = .ok rp ∧
      0 < n ∧ n ≤ 3 ∧ after = before ++ (requests families conf rp).take n ∧
      (r = .ok () ↔ n = 3)

/-- **The requests of a file**, one after the other. -/
theorem wp_installFile (hfile : s.files path = some text) :
    Wp (policyExec decode)
      (fun r s' => s'.files = s.files ∧ s'.unremoved = s.unremoved ∧
        Installs families decode text s.accepted s'.accepted r)
      (installFile families path).run s := by
  rw [installFile, ask_bind]
  rintro (e | conf) _ ⟨rfl, hread⟩
  · exact ⟨rfl, rfl, .inl ⟨rfl, e, rfl⟩⟩
  obtain ⟨text', htext', hdecode⟩ := hread conf rfl
  rw [hfile, Option.some_inj] at htext'
  subst htext'
  dsimp only
  rw [must_ok_bind]
  cases hrp : newAPIRoutingPolicyFromConfigStruct families (configSetToRoutingPolicy conf) with
  | error e => exact ⟨rfl, rfl, .inl ⟨rfl, e, rfl⟩⟩
  | ok rp =>
    rw [must_ok_bind, ask_bind]
    rintro (e | ⟨⟩) _ rfl
    · exact ⟨rfl, rfl, .inl ⟨rfl, e, rfl⟩⟩
    dsimp only
    rw [must_ok_bind, assignGlobalpolicy, ask_bind]
    rintro (e | ⟨⟩) _ rfl
    · exact ⟨rfl, rfl, .inr ⟨conf, rp, 1, hdecode, hrp, by decide, by decide, rfl, by simp⟩⟩
    dsimp only
    rw [must_ok_bind, ask_bind]
    rintro (e | ⟨⟩) _ rfl
    · refine ⟨rfl, rfl, .inr ⟨conf, rp, 2, hdecode, hrp, by decide, by decide, ?_, by simp⟩⟩
      simp [PolicyState.answer, requests]
    · refine ⟨rfl, rfl, .inr ⟨conf, rp, 3, hdecode, hrp, by decide, by decide, ?_, by simp⟩⟩
      simp [PolicyState.answer, requests]

/-- What an update leaves of the files: all as it was, or one file more, without a request or
because it could not be removed. -/
def Leaves (before after : PolicyState) : Prop :=
  after.files = before.files ∨ ∃ name part, before.files name = none ∧
    after.files = Function.update before.files name (some part) ∧
    (after.accepted = before.accepted ∨ after.unremoved = before.unremoved ++ [name])

theorem wp_installText :
    Wp (policyExec decode)
      (fun r s' => Leaves s s' ∧ Installs families decode text s.accepted s'.accepted r)
      (installText families text).run s := by
  rw [installText, wp_except_bind, writeToTempFile, ask_bind]
  rintro (e | name) s₁ hcreate
  · cases hcreate
    exact ⟨.inl rfl, .inl ⟨rfl, e, rfl⟩⟩
  obtain ⟨hnew, rfl⟩ := hcreate
  dsimp only
  rw [must_ok_bind, ask_bind]
  rintro (e | ⟨⟩) s₂ hwrite
  · -- the path is not known, so the file stays
    obtain ⟨part, rfl⟩ := hwrite
    refine ⟨.inr ⟨name, part, hnew, ?_, .inl rfl⟩, .inl ⟨rfl, e, rfl⟩⟩
    simp [PolicyState.withFile]
  cases hwrite
  dsimp only
  rw [must_ok_bind, ask_bind]
  rintro (e | path) _ ⟨rfl, habs⟩
  · refine ⟨.inr ⟨name, text, hnew, ?_, .inl rfl⟩, .inl ⟨rfl, e, rfl⟩⟩
    simp [PolicyState.withFile]
  obtain rfl := habs path rfl
  dsimp only
  rw [run_must, wp_ret, either_ok, wp_except_bind, wp_attempt]
  have hfile : ((s.withFile path (some "")).withFile path (some text)).files path = some text := by
    simp [PolicyState.withFile]
  refine (wp_installFile hfile).mono fun r s₃ h => ?_
  obtain ⟨hfiles, hunremoved, hreq⟩ := h
  rw [either_ok, ask_bind]
  rintro (e | ⟨⟩) _ rfl
  · rw [run_must, wp_ret]
    refine ⟨.inr ⟨path, text, hnew, ?_, .inr ?_⟩, hreq⟩
    · show s₃.files = Function.update s.files path (some text)
      rw [hfiles]
      simp only [PolicyState.withFile, Function.update_idem]
    · show s₃.unremoved ++ [path] = s.unremoved ++ [path]
      rw [hunremoved]
      rfl
  · rw [run_must, wp_ret]
    refine ⟨.inl ?_, hreq⟩
    -- the file is gone again
    show Function.update s₃.files path none = s.files
    rw [hfiles]
    simp only [PolicyState.withFile, Function.update_idem]
    rw [← hnew, Function.update_eq_self]

/-- The reconciler's model has one call for the update, which may answer whatever the update
returns. -/
theorem updatePolicy_abstracts {cm : Option Bgp.ConfigMap} {s' : PolicyState} {r : Except Err Unit}
    {l : List (Event PolicyCall PolicyReply)}
    (h : Run (policyExec decode) s (updatePolicy families cm).run l r s') :
    ∃ l', Trace (fun _ _ => True) (Bgp.updatePolicy cm).run l' r := by
  cases cm with
  | none =>
    obtain ⟨-, rfl, -⟩ := run_ret_iff.mp h
    exact ⟨[], Run.ret⟩
  | some cm =>
    cases hget : cm.data.get Bgp.openELBBgpName with
    | none =>
      rw [updatePolicy, hget] at h
      obtain ⟨-, rfl, -⟩ := run_ret_iff.mp h
      refine ⟨[], ?_⟩
      rw [Bgp.updatePolicy, hget]
      exact Run.ret
    | some text =>
      refine ⟨[⟨.setPolicies text, r⟩], ?_⟩
      rw [Bgp.updatePolicy, hget]
      exact Run.call trivial Run.ret

/-- **What an update can leave.**  However the file system and gobgp answer, gobgp has accepted a
first part of the three requests for the text, the whole of it exactly if there is no error, and
nothing unless the text is decoded and every prefix of its sets is accepted.  The files are as they
were, or one more is left, and then nothing was accepted or the file could not be removed.  Without
a text nothing happens. -/
theorem policy_update {cm : Option Bgp.ConfigMap} {s' : PolicyState} {r : Except Err Unit}
    {l : List (Event PolicyCall PolicyReply)}
    (h : Run (policyExec decode) s (updatePolicy families cm).run l r s') :
    (∀ text, policyText cm = some text →
      Leaves s s' ∧ Installs families decode text s.accepted s'.accepted r) ∧
    (policyText cm = none → r = .ok () ∧ s' = s) := by
  constructor
  · intro text htext
    rw [updatePolicy_of_some htext] at h
    exact wp_installText.of_run h
  · intro hnone
    rw [updatePolicy_of_none hnone] at h
    obtain ⟨-, rfl, rfl⟩ := run_ret_iff.mp h
    exact ⟨rfl, rfl⟩

end Run

/-- Answers with which only assignments in the given direction fail. -/
def policyAnswer (decode : String → Except Err BgpConfigSet) (refused : Api.PolicyDirection) :
    (c : PolicyCall) → PolicyState → Option (PolicyReply c × PolicyState)
  | .createTemp, s =>
    if s.files "/tmp/temp1" = none then some (.ok "/tmp/temp1", s.withFile "/tmp/temp1" (some ""))
    else none
  | .writeFile path text, s => some (.ok (), s.withFile path (some text))
  | .abs path, s => some (.ok path, s)
  | .readConfigfile path, s => (s.files path).map fun text => (decode text, s)
  | .setPolicies rp, s => some (.ok (), s.answer (.policies rp) (.ok ()))
  | .setPolicyAssignment a, s =>
    if a.direction = refused then some (.error (.text "not found policy"), s)
    else some (.ok (), s.answer (.assignment a) (.ok ()))
  | .removeAll path, s => some (.ok (), s.withFile path none)

theorem policyAnswer_sound {decode : String → Except Err BgpConfigSet}
    {refused : Api.PolicyDirection} (c : PolicyCall) (s : PolicyState) (r : PolicyReply c)
    (s' : PolicyState) (h : policyAnswer decode refused c s = some (r, s')) :
    policyExec decode c s r s' := by
  cases c with
  | createTemp =>
    rw [policyAnswer] at h
    split at h
    · rename_i hnone
      cases h
      exact ⟨hnone, rfl⟩
    · cases h
  | writeFile _ _ | setPolicies _ | removeAll _ => cases h; rfl
  | abs path =>
    cases h
    exact ⟨rfl, fun p hp => by cases hp; rfl⟩
  | readConfigfile path =>
    obtain ⟨text, htext, heq⟩ := Option.map_eq_some_iff.mp h
    cases heq
    exact ⟨rfl, fun c hc => ⟨text, htext, hc⟩⟩
  | setPolicyAssignment a =>
    rw [policyAnswer] at h
    split at h
    · cases h; rfl
    · cases h; rfl

/-- A file with one set and one policy. -/
def officeFile : BgpConfigSet where
  applyPolicy := { importPolicyList := ["office"], defaultImportPolicy := "reject-route" }
  definedSets := { prefixSets := [⟨"lan", [⟨"192.0.2.0/24", "24..32"⟩]⟩] }
  policyDefinitions := [⟨"office", [preferred]⟩]

/-- A config map with a policy text. -/
def officeMap : Bgp.ConfigMap := { data := Map.empty.set Bgp.openELBBgpName "office" }

theorem policyText_officeMap : policyText (some officeMap) = some "office" := by
  rw [policyText, Option.bind_some, officeMap, Map.get_set_self]

/-- The update, with answers of gobgp. -/
theorem run_officeMap (refused : Api.PolicyDirection) {r : Except Err Unit} {n : Nat}
    (h : ((installText (fun _ => none) "office").run.eval
        (policyAnswer (fun _ => .ok officeFile) refused) {}).map
      (fun x => (x.1, x.2.accepted.length)) = some (r, n)) :
    ∃ l s', Run (policyExec fun _ => .ok officeFile) {}
      (updatePolicy (fun _ => none) (some officeMap)).run l r s' ∧ s'.accepted.length = n := by
  obtain ⟨⟨r', s'⟩, heval, heq⟩ := Option.map_eq_some_iff.mp h
  cases heq
  obtain ⟨l, hrun⟩ := run_eval policyAnswer_sound heval
  refine ⟨l, s', ?_, rfl⟩
  rw [updatePolicy_of_some policyText_officeMap]
  exact hrun

/-- The assignment of the policies for routes that go out is refused: gobgp keeps the two requests
before it. -/
theorem policy_update_half :
    ∃ l s' e, Run (policyExec fun _ => .ok officeFile) {}
        (updatePolicy (fun _ => none) (some officeMap)).run l (.error e) s' ∧
      ∃ rp, s'.accepted = (requests (fun _ => none) officeFile rp).take 2 := by
  obtain ⟨l, s', hrun, hlen⟩ := run_officeMap .exports (r := .error (.text "not found policy"))
    (n := 2) (by rfl)
  refine ⟨l, s', _, hrun, ?_⟩
  obtain ⟨-, hreq⟩ := (policy_update hrun).1 _ policyText_officeMap
  rcases hreq with ⟨hnone, -⟩ | ⟨conf, rp, n, hdecode, -, -, hle, hacc, -⟩
  · rw [hnone] at hlen
    cases hlen
  · cases hdecode
    refine ⟨rp, ?_⟩
    rw [hacc, List.nil_append]
    rw [hacc, List.nil_append, List.length_take] at hlen
    have hthree : (requests (fun _ => none) officeFile rp).length = 3 := rfl
    obtain rfl : n = 2 := by omega
    rfl

/-! ## What a file decides -/

/-- A range of mask lengths as it is meant: two numbers and nothing else. -/
def readRange (mask : String) : Option (Nat × Nat) :=
  match rangeAt mask.toList with
  | none => none
  | some (a, b) => if mask.toList = a ++ '.' :: '.' :: b then some (natOf a, natOf b) else none

/-- A prefix of a set, as it is meant. -/
def readPrefix (c : Prefix) : Option Api.Prefix :=
  match parsePrefix c.ipPrefix with
  | none => none
  | some (_, _, n) =>
    if c.masklengthRange = "" then some ⟨c.ipPrefix, n, n⟩
    else (readRange c.masklengthRange).map fun range => ⟨c.ipPrefix, range.1, range.2⟩

/-- The sets of a name among sets of texts. -/
def textSets (l : List NamedSet) (name : String) : List Contents :=
  (l.filter (·.name = name)).map fun set => .texts set.list

/-- The sets of the file. -/
def DefinedSets.sets (d : DefinedSets) : Sets
  | .prefixSet, name => (d.prefixSets.filter (·.prefixSetName = name)).map fun ps =>
    .prefixes (ps.prefixList.filterMap readPrefix)
  | .neighborSet, name => textSets d.neighborSets name
  | .tagSet, name => textSets d.tagSets name
  | .asPathSet, name => textSets d.bgpDefinedSets.asPathSets name
  | .communitySet, name => textSets d.bgpDefinedSets.communitySets name
  | .extCommunitySet, name => textSets d.bgpDefinedSets.extCommunitySets name
  | .largeCommunitySet, name => textSets d.bgpDefinedSets.largeCommunitySets name
  | _, _ => []

/-- The sets of a request of a type and a name. -/
def Api.setsOf (l : List DefinedSet) (type : DefinedType) (name : String) : List DefinedSet :=
  l.filter fun set => set.definedType = type ∧ set.name = name

/-- The sets of a request. -/
def Api.sets (l : List DefinedSet) : Sets
  | .prefixSet, name => (setsOf l .prefixes name).map fun set => .prefixes set.prefixes
  | .neighborSet, name => (setsOf l .neighbor name).map fun set => .texts set.list
  | .asPathSet, name => (setsOf l .asPath name).map fun set => .texts set.list
  | .communitySet, name => (setsOf l .community name).map fun set => .texts set.list
  | .extCommunitySet, name => (setsOf l .extCommunity name).map fun set => .texts set.list
  | .largeCommunitySet, name => (setsOf l .largeCommunity name).map fun set => .texts set.list
  | _, _ => []

/-- Policies: a name, and statements. -/
abbrev Policies := List (String × List StatementFields)

/-- The policies of a file. -/
def BgpConfigSet.policies (families : FamilyMap) (c : BgpConfigSet) : Policies :=
  c.policyDefinitions.map fun p => (p.name, p.statements.map (·.fields families c.definedSets.sets))

/-- The policies of a request. -/
def Api.RoutingPolicy.rules (lengthTypes : Int → Option Comparison) (rp : Api.RoutingPolicy) :
    Policies :=
  rp.policies.map fun p =>
    (p.name, p.statements.map (·.fields lengthTypes (Api.sets rp.definedSets)))

section Decision
variable {ρ : Type} (holds : Attribute × Requirement → ρ → Bool) (perform : Target × Effect → ρ → ρ)

/-- The rules of the named policies, in turn, if all of them exist and can be read. -/
def rulesOf (policies : Policies) (names : List String) :
    Option (List (Rule (Attribute × Requirement) (Target × Effect))) := do
  let statements ← names.mapM fun name => (policies.find? (·.1 = name)).map Prod.snd
  statements.flatten.mapM ruleOf

/-- What becomes of a route: the route after the rules, and the verdict or the default. -/
def decision (policies : Policies) (names : List String) (default : Option Bool) (x : ρ) :
    Option (ρ × Option Bool) :=
  (rulesOf policies names).map fun rules =>
    let (x, verdict) := evaluate holds perform rules x
    (x, verdict.or default)

/-- The default of a direction. -/
def readDefault (text : String) : Option Bool :=
  if text = "accept-route" then some true
  else if text = "reject-route" then some false
  else none

/-- What the requests decide in the direction of the assignment. -/
def Api.PolicyAssignment.decision (lengthTypes : Int → Option Comparison)
    (a : Api.PolicyAssignment) (rp : Api.RoutingPolicy) (x : ρ) : Option (ρ × Option Bool) :=
  BgpPolicy.decision holds perform (rp.rules lengthTypes) (a.policies.map (·.name))
    a.defaultAction.verdict.asked x

end Decision

/-- What a file may not have to be translated as it is meant. -/
structure TranslatableFile (families : FamilyMap) (c : BgpConfigSet) : Prop where
  statements : ∀ p ∈ c.policyDefinitions, ∀ s ∈ p.statements, Translatable families s
  ranges : ∀ ps ∈ c.definedSets.prefixSets, ∀ p ∈ ps.prefixList,
    p.masklengthRange = "" ∨ (readRange p.masklengthRange).isSome

/-! ## The sets keep their meaning -/

theorem readRange_some {mask : String} {range : Nat × Nat} (h : readRange mask = some range) :
    ∃ a b, FirstRange mask.toList a b ∧ range = (natOf a, natOf b) := by
  rw [readRange] at h
  split at h
  · cases h
  · rename_i a b hat
    split at h
    · cases h
      exact ⟨a, b, leftmost_rangeAt_iff.mp (leftmost_of_match hat), rfl⟩
    · cases h

/-- An accepted prefix with an exact range is read as it is meant. -/
theorem readPrefix_of_accepted {c : Prefix} {p : Api.Prefix}
    (hok : newAPIPrefixFromConfigStruct c = .ok p)
    (hrange : c.masklengthRange = "" ∨ (readRange c.masklengthRange).isSome) :
    readPrefix c = some p := by
  obtain ⟨hip, form, ip, n, hp, hcase⟩ := newAPIPrefix_ok hok
  obtain ⟨ipPrefix, min, max⟩ := p
  simp only at hip hcase
  subst hip
  rcases hcase with ⟨hmask, rfl, rfl⟩ | ⟨a, b, hfirst, rfl, rfl, -⟩
  · simp [readPrefix, hp, hmask]
  · have hmask : c.masklengthRange ≠ "" := fun h => hfirst.ne_nil (by rw [h]; rfl)
    obtain ⟨range, hr⟩ := Option.isSome_iff_exists.mp (hrange.resolve_left hmask)
    obtain ⟨a', b', hfirst', rfl⟩ := readRange_some hr
    obtain ⟨rfl, rfl⟩ := hfirst.unique hfirst'
    simp [readPrefix, hp, hmask, hr]

/-- A list of prefixes is read as it is meant. -/
theorem filterMap_readPrefix {l : List Prefix} {ps : List Api.Prefix}
    (h : List.Forall₂ (fun c p => newAPIPrefixFromConfigStruct c = .ok p) l ps)
    (hrange : ∀ c ∈ l, c.masklengthRange = "" ∨ (readRange c.masklengthRange).isSome) :
    l.filterMap readPrefix = ps := by
  induction h with
  | nil => rfl
  | @cons c p l ps hc _ ih =>
    rw [List.filterMap_cons, readPrefix_of_accepted hc (hrange c List.mem_cons_self)]
    exact congrArg (p :: ·) (ih fun d hd => hrange d (List.mem_cons_of_mem c hd))

/-- The prefix sets of a name. -/
theorem prefixSets_eq {l : List PrefixSet} {sets : List Api.DefinedSet}
    (h : List.Forall₂ (fun ps set => newAPIPrefixSet ps = .ok set) l sets)
    (hrange : ∀ ps ∈ l, ∀ c ∈ ps.prefixList,
      c.masklengthRange = "" ∨ (readRange c.masklengthRange).isSome) (name : String) :
    ((l.filter (·.prefixSetName = name)).map fun ps =>
        Contents.prefixes (ps.prefixList.filterMap readPrefix)) =
      (Api.setsOf sets .prefixes name).map fun set => .prefixes set.prefixes := by
  induction h with
  | nil => rfl
  | @cons ps set l sets hps _ ih =>
    obtain ⟨htype, hname, hlist⟩ := newAPIPrefixSet_ok hps
    have hread := filterMap_readPrefix hlist (hrange ps List.mem_cons_self)
    have htail := ih fun qs hqs => hrange qs (List.mem_cons_of_mem ps hqs)
    rw [Api.setsOf, List.filter_cons, List.filter_cons, htype, hname]
    by_cases hn : ps.prefixSetName = name
    · simp only [hn, decide_true, and_self, if_true, List.map_cons, hread]
      exact congrArg (_ :: ·) htail
    · simp only [hn, decide_false, and_false, Bool.false_eq_true, if_false]
      exact htail

theorem setsOf_append (l l' : List Api.DefinedSet) (type : Api.DefinedType) (name : String) :
    Api.setsOf (l ++ l') type name = Api.setsOf l type name ++ Api.setsOf l' type name :=
  List.filter_append ..

/-- The sets of another type. -/
theorem setsOf_other {l : List Api.DefinedSet} {type type' : Api.DefinedType}
    (h : ∀ set ∈ l, set.definedType = type') (hne : type' ≠ type) (name : String) :
    Api.setsOf l type name = [] := by
  refine List.filter_eq_nil_iff.mpr fun set hset => ?_
  simp [h set hset, hne]

theorem setsOf_named_other {l : List NamedSet} {type type' : Api.DefinedType}
    (hne : type' ≠ type) (name : String) :
    Api.setsOf (l.map (newAPINamedSet type')) type name = [] := by
  refine setsOf_other (fun set hset => ?_) hne name
  obtain ⟨s, -, rfl⟩ := List.mem_map.mp hset
  rfl

/-- The sets of texts of a name. -/
theorem setsOf_named (l : List NamedSet) (type : Api.DefinedType) (name : String) :
    ((Api.setsOf (l.map (newAPINamedSet type)) type name).map fun set => Contents.texts set.list) =
      textSets l name := by
  rw [Api.setsOf, List.filter_map, List.map_map, textSets]
  congr 1
  refine List.filter_congr fun s _ => ?_
  rw [Bool.eq_iff_iff, decide_eq_true_iff]
  simp only [Function.comp_apply, newAPINamedSet, decide_eq_true_iff, true_and]

/-- **The sets of a file keep their meaning**, but for those of tags. -/
theorem sets_eq {d : DefinedSets} {sets : List Api.DefinedSet}
    (h : newAPIDefinedSetsFromConfigStruct d = .ok sets)
    (hrange : ∀ ps ∈ d.prefixSets, ∀ c ∈ ps.prefixList,
      c.masklengthRange = "" ∨ (readRange c.masklengthRange).isSome)
    {a : Attribute} (ha : a ≠ .tagSet) : d.sets a = Api.sets sets a := by
  obtain ⟨prefixSets, hpsets, rfl⟩ := newAPIDefinedSets_ok h
  have htype : ∀ set ∈ prefixSets, set.definedType = .prefixes :=
    forall_of_forall₂ hpsets.flip fun set ps hps => (newAPIPrefixSet_ok hps).1
  funext name
  have hother : ∀ type, Api.DefinedType.prefixes ≠ type → Api.setsOf prefixSets type name = [] :=
    fun type hne => setsOf_other htype hne name
  cases a with
  | tagSet => exact absurd rfl ha
  | prefixSet =>
    show _ = (Api.setsOf _ .prefixes name).map _
    simp (disch := decide) only [setsOf_append, setsOf_named_other, List.append_nil]
    exact prefixSets_eq hpsets hrange name
  | neighborSet | asPathSet | communitySet | extCommunitySet | largeCommunitySet =>
    show textSets _ name = (Api.setsOf _ _ name).map _
    simp (disch := decide) only [setsOf_append, setsOf_named_other, hother, List.append_nil,
      List.nil_append, setsOf_named]
  | asPathLength | communityCount | routeType | nextHop | family | med | origin | localPref
  | callPolicy | installProtocol => rfl

/-! ## The file keeps its meaning -/

/-- A statement of the API looks up no sets of tags. -/
theorem api_fields_congr {sets sets' : Sets} (h : ∀ a, a ≠ .tagSet → sets a = sets' a)
    (lengthTypes : Int → Option Comparison) (s : Api.Statement) :
    s.fields lengthTypes sets = s.fields lengthTypes sets' := by
  rw [Api.Statement.fields, Api.Statement.fields]
  congr 1
  funext a
  have hread : ∀ a m, a ≠ .tagSet → Api.readSet sets a m = Api.readSet sets' a m := by
    intro a m ha
    cases m with
    | none => rfl
    | some m => rw [Api.readSet, Api.readSet, h a ha]
  cases a with
  | prefixSet | neighborSet | asPathSet | communitySet | extCommunitySet | largeCommunitySet =>
    exact hread _ _ (by decide)
  | tagSet | asPathLength | communityCount | routeType | nextHop | family | med | origin | localPref
  | callPolicy | installProtocol => rfl

/-- A translatable statement has the same fields in both notations. -/
theorem fields_eq {lengthTypes : Int → Option Comparison} (hlen : Api.LengthTypes lengthTypes)
    {families : FamilyMap} {s : Statement} (h : Translatable families s) (sets : Sets) :
    (toStatementApi families s).fields lengthTypes sets = s.fields families sets := by
  obtain ⟨hc, ha, hv⟩ := (fields_alike_iff hlen sets).mpr h
  exact (Fields.ext (funext hc) (funext ha) hv).symm

/-- **The policies of a translatable file are those of the request.** -/
theorem policies_eq {lengthTypes : Int → Option Comparison} (hlen : Api.LengthTypes lengthTypes)
    {families : FamilyMap} {c : BgpConfigSet} {rp : Api.RoutingPolicy}
    (hfile : TranslatableFile families c)
    (h : newAPIRoutingPolicyFromConfigStruct families (configSetToRoutingPolicy c) = .ok rp) :
    rp.rules lengthTypes = c.policies families := by
  obtain ⟨sets, hsets, h⟩ := bind_ok h
  cases h
  have hsame : ∀ a, a ≠ Attribute.tagSet → c.definedSets.sets a = Api.sets sets a :=
    fun a ha => sets_eq hsets hfile.ranges ha
  show (c.policyDefinitions.map (toPolicyApi families)).map _ = c.policyDefinitions.map _
  rw [List.map_map]
  refine List.map_congr_left fun p hp => ?_
  show (p.name, (p.statements.map (toStatementApi families)).map _) = (p.name, _)
  rw [List.map_map]
  refine congrArg (Prod.mk p.name) (List.map_congr_left fun s hs => ?_)
  show (toStatementApi families s).fields lengthTypes (Api.sets sets) =
    s.fields families c.definedSets.sets
  rw [← api_fields_congr hsame, fields_eq hlen (hfile.statements p hp s hs)]

theorem toDefaultTable_verdict (text : String) :
    (toDefaultTable text).toApi.verdict.asked = readDefault text := by
  rw [toDefaultTable, readDefault]
  split
  · rfl
  · split <;> rfl

/-- What an assignment decides with the policies of a translatable file. -/
theorem globalAssignment_decision {lengthTypes : Int → Option Comparison} {families : FamilyMap}
    {c : BgpConfigSet} {rp : Api.RoutingPolicy}
    (hrules : rp.rules lengthTypes = c.policies families) (type : PolicyDirection) (names : List String)
    (default : String) {ρ : Type} (holds : Attribute × Requirement → ρ → Bool)
    (perform : Target × Effect → ρ → ρ) (x : ρ) :
    (globalAssignment families type names default).decision holds perform lengthTypes rp x =
      decision holds perform (c.policies families) names (readDefault default) x := by
  have hnames : (globalAssignment families type names default).policies.map (·.name) = names := by
    show (names.map (newAPIPolicyFromTableStruct families)).map _ = names
    rw [List.map_map]
    exact List.map_id names
  have hdefault : (globalAssignment families type names default).defaultAction.verdict.asked =
      readDefault default := toDefaultTable_verdict default
  rw [Api.PolicyAssignment.decision, hnames, hdefault, hrules]

/-- **gobgp decides as the file says.**  After an update without an error, the last three requests
that gobgp has accepted are the policies and the two assignments; and if the file is translatable,
what they decide on a route, in either direction, is what the file decides, whatever requirements
and effects mean. -/
theorem update_decides {lengthTypes : Int → Option Comparison} (hlen : Api.LengthTypes lengthTypes)
    {families : FamilyMap} {decode : String → Except Err BgpConfigSet}
    {cm : Option Bgp.ConfigMap} {text : String} {conf : BgpConfigSet} {s s' : PolicyState}
    {l : List (Event PolicyCall PolicyReply)}
    (h : Run (policyExec decode) s (updatePolicy families cm).run l (.ok ()) s')
    (htext : policyText cm = some text) (hdecode : decode text = .ok conf)
    (hfile : TranslatableFile families conf) :
    ∃ rp imports exports,
      s'.accepted = s.accepted ++ [.policies rp, .assignment imports, .assignment exports] ∧
      imports.direction = .imports ∧ exports.direction = .exports ∧
      ∀ (ρ : Type) (holds : Attribute × Requirement → ρ → Bool) (perform : Target × Effect → ρ → ρ)
        (x : ρ),
        imports.decision holds perform lengthTypes rp x =
          decision holds perform (conf.policies families) conf.applyPolicy.importPolicyList
            (readDefault conf.applyPolicy.defaultImportPolicy) x ∧
        exports.decision holds perform lengthTypes rp x =
          decision holds perform (conf.policies families) conf.applyPolicy.exportPolicyList
            (readDefault conf.applyPolicy.defaultExportPolicy) x := by
  rw [updatePolicy_of_some htext] at h
  rcases (wp_installText.of_run h).2 with
    ⟨-, e, he⟩ | ⟨conf', rp, n, hdecode', hrp, -, -, hacc, hn⟩
  · cases he
  · rw [hdecode] at hdecode'
    cases hdecode'
    obtain rfl := hn.mp rfl
    have hrules := policies_eq hlen hfile hrp
    exact ⟨rp, _, _, hacc, rfl, rfl, fun ρ holds perform x =>
      ⟨globalAssignment_decision hrules .imports _ _ holds perform x,
        globalAssignment_decision hrules .exports _ _ holds perform x⟩⟩

/-- The file is installed. -/
theorem update_decides_office :
    ∃ l s', Run (policyExec fun _ => .ok officeFile) {}
        (updatePolicy (fun _ => none) (some officeMap)).run l (.ok ()) s' ∧
      ∃ rp imports exports,
        s'.accepted = [.policies rp, .assignment imports, .assignment exports] ∧
        ∀ x : List (Target × Effect),
          imports.decision (fun _ _ => true) (fun e x => x ++ [e]) byThree rp x =
            decision (fun _ _ => true) (fun e x => x ++ [e]) (officeFile.policies fun _ => none)
              ["office"] (some false) x := by
  obtain ⟨l, s', hrun, -⟩ := run_officeMap .unknown (r := .ok ()) (n := 3) (by rfl)
  have hfile : TranslatableFile (fun _ => none) officeFile := by
    refine ⟨fun p hp s hs => ?_, fun ps hps p hp => ?_⟩
    · obtain rfl := List.mem_singleton.mp hp
      obtain rfl := List.mem_singleton.mp hs
      exact translatable_preferred
    · obtain rfl := List.mem_singleton.mp hps
      obtain rfl := List.mem_singleton.mp hp
      exact .inr (by decide)
  refine ⟨l, s', hrun, ?_⟩
  obtain ⟨rp, imports, exports, hacc, -, -, hdec⟩ :=
    update_decides lengthTypes_byThree hrun policyText_officeMap rfl hfile
  exact ⟨rp, imports, exports, hacc, fun x => (hdec _ _ _ x).1⟩

end OpenELB.BgpPolicy
