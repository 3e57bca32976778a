import OpenELB.GoNumber
import OpenELB.Admission
import OpenELB.Objects

/-! # The policy file of gobgp

`pkg/speaker/bgp/bgp/config` and `pkg/speaker/bgp/bgp/table`: the routing policies that a config map
holds for gobgp, as they are decoded from TOML, and the requests for gobgp's API that are made of
them.

Options are texts in the file.  The decoder takes any text, so they stay texts here, and what
becomes of a text that is no option depends on the function that reads it: `ToInt` says -1,
`newMatchOption` returns an error next to its first option, and the look-up of a community option
that is not in its map gives the map's zero value.

The namespace `Api` has the messages of gobgp's API.  Enumerations that a cast can leave are
integers there. -/
namespace OpenELB.BgpPolicy
open Go GoNumber

/-! ## The file -/

/-- `MatchPrefixSet`, `MatchNeighborSet`, `MatchTagSet`, `MatchAsPathSet`, `MatchCommunitySet`,
`MatchExtCommunitySet` and `MatchLargeCommunitySet`: the name of a set and the option. -/
structure MatchSet where
  set : String := ""
  matchSetOptions : String := ""
  deriving DecidableEq

/-- `AsPathLength` and `CommunityCount`. -/
structure AttributeCount where
  operator : String := ""
  value : Nat := 0
  deriving DecidableEq

/-- `BgpConditions`; a list of address families that is not in the file is nil. -/
structure BgpConditions where
  matchCommunitySet : MatchSet := {}
  matchExtCommunitySet : MatchSet := {}
  matchAsPathSet : MatchSet := {}
  medEq : Nat := 0
  originEq : String := ""
  nextHopInList : List String := []
  afiSafiInList : Option (List String) := none
  localPrefEq : Nat := 0
  communityCount : AttributeCount := {}
  asPathLength : AttributeCount := {}
  routeType : String := ""
  matchLargeCommunitySet : MatchSet := {}
  deriving DecidableEq

/-- `Conditions`. -/
structure Conditions where
  callPolicy : String := ""
  matchPrefixSet : MatchSet := {}
  matchNeighborSet : MatchSet := {}
  matchTagSet : MatchSet := {}
  installProtocolEq : String := ""
  bgpConditions : BgpConditions := {}
  deriving DecidableEq

/-- `SetCommunity`, `SetExtCommunity` and `SetLargeCommunity`, with the fields of their methods; the
last of them has no reference to a set. -/
structure SetCommunity where
  communitiesList : List String := []
  setRef : String := ""
  options : String := ""
  deriving DecidableEq

/-- `SetAsPathPrepend`. -/
structure SetAsPathPrepend where
  repeatN : Nat := 0
  as : String := ""
  deriving DecidableEq

/-- `BgpActions`. -/
structure BgpActions where
  setAsPathPrepend : SetAsPathPrepend := {}
  setCommunity : SetCommunity := {}
  setExtCommunity : SetCommunity := {}
  setRouteOrigin : String := ""
  setLocalPref : Nat := 0
  setNextHop : String := ""
  setMed : String := ""
  setLargeCommunity : SetCommunity := {}
  deriving DecidableEq

/-- `Actions`, with the only field of `IgpActions`. -/
structure Actions where
  routeDisposition : String := ""
  setTag : String := ""
  bgpActions : BgpActions := {}
  deriving DecidableEq

/-- `Statement`. -/
structure Statement where
  name : String := ""
  conditions : Conditions := {}
  actions : Actions := {}
  deriving DecidableEq

/-- `PolicyDefinition`. -/
structure PolicyDefinition where
  name : String := ""
  statements : List Statement := []
  deriving DecidableEq

/-- `Prefix`. -/
structure Prefix where
  ipPrefix : String := ""
  masklengthRange : String := ""
  deriving DecidableEq

/-- `PrefixSet`. -/
structure PrefixSet where
  prefixSetName : String := ""
  prefixList : List Prefix := []
  deriving DecidableEq

/-- `NeighborSet`, `CommunitySet`, `ExtCommunitySet`, `LargeCommunitySet` and `AsPathSet`. -/
structure NamedSet where
  name : String := ""
  list : List String := []
  deriving DecidableEq

/-- `BgpDefinedSets`. -/
structure BgpDefinedSets where
  communitySets : List NamedSet := []
  extCommunitySets : List NamedSet := []
  asPathSets : List NamedSet := []
  largeCommunitySets : List NamedSet := []
  deriving DecidableEq

/-- `DefinedSets`; a tag of a `TagSet` is its value. -/
structure DefinedSets where
  prefixSets : List PrefixSet := []
  neighborSets : List NamedSet := []
  tagSets : List NamedSet := []
  bgpDefinedSets : BgpDefinedSets := {}
  deriving DecidableEq

/-- `RoutingPolicy`. -/
structure RoutingPolicy where
  definedSets : DefinedSets
  policyDefinitions : List PolicyDefinition
  deriving DecidableEq

/-- `ApplyPolicyConfig`, without the lists for neighbors. -/
structure ApplyPolicyConfig where
  importPolicyList : List String := []
  defaultImportPolicy : String := ""
  exportPolicyList : List String := []
  defaultExportPolicy : String := ""
  deriving DecidableEq

/-- `BgpConfigSet`; `applyPolicy` is `Global.ApplyPolicy.Config`. -/
structure BgpConfigSet where
  applyPolicy : ApplyPolicyConfig := {}
  definedSets : DefinedSets := {}
  policyDefinitions : List PolicyDefinition := []
  deriving DecidableEq

/-- `ConfigSetToRoutingPolicy`. -/
def configSetToRoutingPolicy (c : BgpConfigSet) : RoutingPolicy where
  definedSets := c.definedSets
  policyDefinitions := c.policyDefinitions

/-! ## The API -/

namespace Api

/-- `api.DefinedType`. -/
inductive DefinedType where
  | prefixes
  | neighbor
  | community
  | extCommunity
  | largeCommunity
  | asPath
  deriving DecidableEq

/-- `api.Prefix`. -/
structure Prefix where
  ipPrefix : String
  maskLengthMin : Nat
  maskLengthMax : Nat
  deriving DecidableEq

/-- `api.DefinedSet`. -/
structure DefinedSet where
  definedType : DefinedType
  name : String
  list : List String := []
  prefixes : List Prefix := []
  deriving DecidableEq

/-- `api.MatchSet`. -/
structure MatchSet where
  matchType : Int
  name : String
  deriving DecidableEq

/-- `api.AsPathLength`. -/
structure AsPathLength where
  length : Nat
  lengthType : Int
  deriving DecidableEq

/-- `api.Family`. -/
structure Family where
  afi : Nat
  safi : Nat
  deriving DecidableEq

/-- `api.Conditions`. -/
structure Conditions where
  prefixSet : Option MatchSet := none
  neighborSet : Option MatchSet := none
  asPathLength : Option AsPathLength := none
  asPathSet : Option MatchSet := none
  communitySet : Option MatchSet := none
  extCommunitySet : Option MatchSet := none
  routeType : Int := 0
  largeCommunitySet : Option MatchSet := none
  nextHopInList : List String := []
  afiSafiIn : Option (List Family) := none
  deriving DecidableEq

/-- `api.RouteAction`. -/
inductive RouteAction where
  | none
  | accept
  | reject
  deriving DecidableEq

/-- `api.CommunityActionType`. -/
inductive CommunityActionType where
  | add
  | remove
  | replace
  deriving DecidableEq

/-- `api.CommunityAction`. -/
structure CommunityAction where
  actionType : CommunityActionType
  communities : List String
  deriving DecidableEq

/-- `api.MedActionType`. -/
inductive MedActionType where
  | mod
  | replace
  deriving DecidableEq

/-- `api.MedAction`. -/
structure MedAction where
  actionType : MedActionType
  value : Int
  deriving DecidableEq

/-- `api.AsPrependAction`. -/
structure AsPrependAction where
  asn : Nat
  repeatN : Nat
  useLeftMost : Bool
  deriving DecidableEq

/-- `api.NexthopAction`. -/
structure NexthopAction where
  address : String := ""
  self : Bool := false
  deriving DecidableEq

/-- `api.Actions`; a local preference action is its value. -/
structure Actions where
  routeAction : RouteAction
  community : Option CommunityAction
  med : Option MedAction
  asPrepend : Option AsPrependAction
  extCommunity : Option CommunityAction
  nexthop : Option NexthopAction
  localPref : Option Nat
  largeCommunity : Option CommunityAction
  deriving DecidableEq

/-- `api.Statement`. -/
structure Statement where
  name : String
  conditions : Conditions
  actions : Actions
  deriving DecidableEq

/-- `api.Policy`. -/
structure Policy where
  name : String
  statements : List Statement
  deriving DecidableEq

/-- `api.PolicyDirection`. -/
inductive PolicyDirection where
  | unknown
  | imports
  | exports
  deriving DecidableEq

/-- `api.PolicyAssignment`. -/
structure PolicyAssignment where
  name : String
  direction : PolicyDirection
  policies : List Policy
  defaultAction : RouteAction
  deriving DecidableEq

/-- `api.RoutingPolicy`. -/
structure RoutingPolicy where
  definedSets : List DefinedSet
  policies : List Policy
  deriving DecidableEq

end Api

/-! ## Prefix sets -/

/-- `parseMaskLength`. -/
def parseMaskLength (ipPrefix mask : String) : Except Err (Nat × Nat) :=
  match parseCIDR ipPrefix with
  | none => .error (.text ("invalid prefix: " ++ ipPrefix))
  | some (_, ipNet) =>
    if mask = "" then
      let l := (maskSize ipNet.mask).1
      .ok (l, l)
    else
      match leftmost rangeAt mask.toList with
      | none => .error (.text ("invalid mask length range: " ++ mask))
      | some (elem₁, elem₂) =>
        -- the errors of `ParseUint` are dropped
        let min := (parseUint 8 elem₁).1
        let max := (parseUint 8 elem₂).1
        if max < min then .error (.text ("invalid mask length range: " ++ mask))
        else if (to4 ipNet.ip).isSome then
          if min ≤ 32 ∧ max ≤ 32 then .ok (min, max)
          else .error (.text ("ipv4 mask length range outside scope :" ++ mask))
        else
          if min ≤ 128 ∧ max ≤ 128 then .ok (min, max)
          else .error (.text ("ipv6 mask length range outside scope :" ++ mask))

/-- `newAPIPrefixFromConfigStruct`. -/
def newAPIPrefixFromConfigStruct (c : Prefix) : Except Err Api.Prefix := do
  let (min, max) ← parseMaskLength c.ipPrefix c.masklengthRange
  .ok ⟨c.ipPrefix, min, max⟩

/-- The loop over the prefix sets of `NewAPIDefinedSetsFromConfigStruct`. -/
def newAPIPrefixSet (ps : PrefixSet) : Except Err Api.DefinedSet := do
  let prefixes ← ps.prefixList.mapM newAPIPrefixFromConfigStruct
  .ok { definedType := .prefixes, name := ps.prefixSetName, prefixes }

/-- The loops over the other sets. -/
def newAPINamedSet (definedType : Api.DefinedType) (s : NamedSet) : Api.DefinedSet where
  definedType := definedType
  name := s.name
  list := s.list

/-- `NewAPIDefinedSetsFromConfigStruct`. -/
def newAPIDefinedSetsFromConfigStruct (t : DefinedSets) : Except Err (List Api.DefinedSet) := do
  let prefixSets ← t.prefixSets.mapM newAPIPrefixSet
  .ok (prefixSets ++ t.neighborSets.map (newAPINamedSet .neighbor) ++
    t.bgpDefinedSets.communitySets.map (newAPINamedSet .community) ++
    t.bgpDefinedSets.extCommunitySets.map (newAPINamedSet .extCommunity) ++
    t.bgpDefinedSets.largeCommunitySets.map (newAPINamedSet .largeCommunity) ++
    t.bgpDefinedSets.asPathSets.map (newAPINamedSet .asPath))

/-! ## Options -/

/-- `table.MatchOption`. -/
inductive MatchOption where
  | any
  | all
  | invert
  deriving DecidableEq

/-- `api.MatchType(o)`. -/
def MatchOption.toInt : MatchOption → Int
  | any => 0
  | all => 1
  | invert => 2

/-- The types of options that `newMatchOption` tells apart. -/
inductive MatchSetOptions where
  | options (text : String)
  | restricted (text : String)
  deriving DecidableEq

/-- `DefaultAsNeeded`, of both types of options. -/
def defaultAsNeeded (text : String) : String := if text = "" then "any" else text

/-- `newMatchOption`: an option comes with the error. -/
def newMatchOption : MatchSetOptions → MatchOption × Option Err
  | .options text =>
    let t := defaultAsNeeded text
    if t = "any" then (.any, none)
    else if t = "all" then (.all, none)
    else if t = "invert" then (.invert, none)
    else (.any, some (.text ("invalid argument to create match option: " ++ text)))
  | .restricted text =>
    let t := defaultAsNeeded text
    if t = "any" then (.any, none)
    else if t = "invert" then (.invert, none)
    else (.any, some (.text ("invalid argument to create match option: " ++ text)))

/-- `MatchSetOptionsType.ToInt`. -/
def matchSetOptionsToInt (text : String) : Int :=
  let t := defaultAsNeeded text
  if t = "any" then 0 else if t = "all" then 1 else if t = "invert" then 2 else -1

/-- `AttributeComparison.ToInt`. -/
def attributeComparisonToInt (text : String) : Int :=
  if text = "attribute-eq" then 0 else if text = "attribute-ge" then 1
  else if text = "attribute-le" then 2 else if text = "eq" then 3
  else if text = "ge" then 4 else if text = "le" then 5 else -1

/-- `RouteType.ToInt`. -/
def routeTypeToInt (text : String) : Int :=
  if text = "none" then 0 else if text = "internal" then 1
  else if text = "external" then 2 else if text = "local" then 3 else -1

/-- `BgpSetCommunityOptionTypeToIntMap`, as a cast to `api.CommunityActionType` reads it. -/
def communityActionType (options : String) : Api.CommunityActionType :=
  if options = "remove" then .remove else if options = "replace" then .replace
  -- also for what is not in the map
  else .add

/-! ## Statements -/

/-- gobgp's `AddressFamilyValueMap`: route families by their names. -/
abbrev FamilyMap := String → Option Nat

/-- `RouteFamilyToAfiSafi`. -/
def routeFamilyToAfiSafi (rf : Nat) : Api.Family := ⟨rf / 2 ^ 16 % 2 ^ 16, rf % 2 ^ 8⟩

/-- The conditions on sets, with what a cast makes of the option. -/
def toMatchSet (matchType : String → Int) (m : MatchSet) : Option Api.MatchSet :=
  if m.set ≠ "" then some ⟨matchType m.matchSetOptions, m.set⟩ else none

/-- The conditions on sets with an option of the restricted type. -/
def toMatchSetRestricted (m : MatchSet) : Option Api.MatchSet :=
  toMatchSet (fun text => (newMatchOption (.restricted text)).1.toInt) m

/-- The conditions of a statement. -/
def toConditionsApi (families : FamilyMap) (c : Conditions) : Api.Conditions where
  prefixSet := toMatchSetRestricted c.matchPrefixSet
  neighborSet := toMatchSetRestricted c.matchNeighborSet
  asPathLength :=
    let l := c.bgpConditions.asPathLength
    if l.operator ≠ "" then some ⟨l.value, attributeComparisonToInt l.operator⟩ else none
  asPathSet := toMatchSet matchSetOptionsToInt c.bgpConditions.matchAsPathSet
  communitySet := toMatchSet matchSetOptionsToInt c.bgpConditions.matchCommunitySet
  extCommunitySet := toMatchSet matchSetOptionsToInt c.bgpConditions.matchExtCommunitySet
  largeCommunitySet := toMatchSet matchSetOptionsToInt c.bgpConditions.matchLargeCommunitySet
  routeType :=
    if c.bgpConditions.routeType ≠ "" then routeTypeToInt c.bgpConditions.routeType else 0
  nextHopInList := c.bgpConditions.nextHopInList
  afiSafiIn := c.bgpConditions.afiSafiInList.map fun l =>
    l.filterMap fun afiSafiType => (families afiSafiType).map routeFamilyToAfiSafi

/-- The three actions on communities. -/
def toCommunityAction (c : SetCommunity) : Option Api.CommunityAction :=
  if c.communitiesList = [] then none
  else some ⟨communityActionType c.options, c.communitiesList⟩

/-- The action on the MED. -/
def toMedAction (setMed : String) : Option Api.MedAction :=
  let medStr := trimSpace setMed.toList
  if medStr = [] then none
  else
    match leftmost signedAt medStr with
    | none => none
    | some (sign, digits) =>
      let action : Api.MedActionType := if sign = ['+'] ∨ sign = ['-'] then .mod else .replace
      match parseInt 64 (sign ++ digits) with
      | (_, some _) => none
      | (value, none) => some ⟨action, value⟩

/-- The action on the AS path. -/
def toAsPrependAction (p : SetAsPathPrepend) : Option Api.AsPrependAction :=
  if p.as = "" then none
  else if p.as ≠ "last-as" then
    -- the error of `ParseUint` is dropped
    some ⟨(parseUint 32 p.as.toList).1, p.repeatN, false⟩
  else some ⟨0, p.repeatN, true⟩

/-- The action on the next hop. -/
def toNexthopAction (setNextHop : String) : Option Api.NexthopAction :=
  if setNextHop = "" then none
  else if setNextHop = "self" then some { self := true }
  else some { address := setNextHop }

/-- The verdict of a statement. -/
def toRouteAction (routeDisposition : String) : Api.RouteAction :=
  if routeDisposition = "accept-route" then .accept
  else if routeDisposition = "reject-route" then .reject
  else .none

/-- `toStatementApi`. -/
def toStatementApi (families : FamilyMap) (s : Statement) : Api.Statement where
  name := s.name
  conditions := toConditionsApi families s.conditions
  actions :=
    let a := s.actions.bgpActions
    { routeAction := toRouteAction s.actions.routeDisposition
      community := toCommunityAction a.setCommunity
      med := toMedAction a.setMed
      asPrepend := toAsPrependAction a.setAsPathPrepend
      extCommunity := toCommunityAction a.setExtCommunity
      largeCommunity := toCommunityAction a.setLargeCommunity
      nexthop := toNexthopAction a.setNextHop
      localPref := if a.setLocalPref = 0 then none else some a.setLocalPref }

/-- `toPolicyApi`. -/
def toPolicyApi (families : FamilyMap) (p : PolicyDefinition) : Api.Policy where
  name := p.name
  statements := p.statements.map (toStatementApi families)

/-- `NewAPIRoutingPolicyFromConfigStruct`. -/
def newAPIRoutingPolicyFromConfigStruct (families : FamilyMap) (c : RoutingPolicy) :
    Except Err Api.RoutingPolicy := do
  let definedSets ← newAPIDefinedSetsFromConfigStruct c.definedSets
  .ok ⟨definedSets, c.policyDefinitions.map (toPolicyApi families)⟩

/-! ## What is accepted as a prefix -/

/-- The greatest mask length that a range may have: that of IPv4 if the network is one of IPv4
addresses, also in their sixteen-byte form. -/
def lengthLimit (form : AddrForm) (ip : IP) (n : Nat) : Nat :=
  if (to4 ip).isSome ∧ form.bitLen ≤ n + 32 then 32 else 128

/-- An IPv4 address is one in either form. -/
theorem to4_isSome_to16 {x : IP} (hx : (to16 x).length = 16) :
    (to4 (to16 x)).isSome = (to4 x).isSome := by
  by_cases h4 : x.length = 4
  · have hto := to4_of_length_four h4
    rw [to16_of_to4 hto, to4_prefix h4, hto]
  · by_cases h16 : x.length = 16
    · rw [to16_of_to4_none h16]
    · rw [to16, if_neg h4, if_neg h16] at hx
      cases hx

/-- The network of a prefix is one of IPv4 addresses if its address is one and at most the bits
of an IPv4 address are left open. -/
theorem to4_network_iff {s : String} {form : AddrForm} {ip : IP} {n : Nat}
    (h : parsePrefix s = some (form, ip, n)) :
    (to4 (maskIP ip (cidrMask (form.bitLen / 8) n))).isSome ↔
      (to4 ip).isSome ∧ form.bitLen ≤ n + 32 := by
  obtain ⟨hlen, hnum⟩ := network_eq h
  rw [← to4_isSome_to16 hlen, to4_isSome_iff hlen, hnum, to4_isSome_iff (parsePrefix_some h).1]
  generalize hhost : form.bitLen - n = host
  by_cases hle : host ≤ 32
  · have hdvd : 2 ^ 32 = 2 ^ host * 2 ^ (32 - host) := by
      rw [← Nat.pow_add]
      congr 1
      omega
    have hclear : beNat ip / 2 ^ host * 2 ^ host / 2 ^ 32 = beNat ip / 2 ^ 32 := by
      rw [hdvd, ← Nat.div_div_eq_div_mul, Nat.mul_div_cancel _ (Nat.two_pow_pos host),
        Nat.div_div_eq_div_mul]
    rw [hclear]
    exact ⟨fun h => ⟨h, by omega⟩, fun h => h.1⟩
  · -- the last bit before the IPv4 address is cleared
    refine iff_of_false (fun h => ?_) fun h => hle (by omega)
    have hpow : 2 ^ host = 2 ^ (host - 33) * 2 * 2 ^ 32 := by
      rw [← Nat.pow_succ, ← Nat.pow_add]
      congr 1
      omega
    rw [hpow, ← Nat.mul_assoc, Nat.mul_div_cancel _ (by decide), ← Nat.mul_assoc] at h
    omega

/-- The numbers of a range, as `ParseUint` reads them into a byte, are within a limit below 255
exactly if the numbers are. -/
theorem parseUint_le_iff {cs : List Char} (h : IsNumber cs) {limit : Nat} (hlimit : limit < 255) :
    (parseUint 8 cs).1 ≤ limit ↔ natOf cs ≤ limit := by
  rw [parseUint_of_digits h]
  split
  · rfl
  · rename_i hgt
    show 2 ^ 8 - 1 ≤ limit ↔ natOf cs ≤ limit
    omega

theorem parseUint_of_le {cs : List Char} (h : IsNumber cs) {limit : Nat} (hlimit : limit < 255)
    (hle : natOf cs ≤ limit) : (parseUint 8 cs).1 = natOf cs := by
  rw [parseUint_of_digits h, if_pos (by omega)]

/-- What is accepted as a range of mask lengths. -/
theorem range_accepted_iff {a b : List Char} (ha : IsNumber a) (hb : IsNumber b) {limit : Nat}
    (hlimit : limit < 255) {min max : Nat} :
    (¬ (parseUint 8 b).1 < (parseUint 8 a).1 ∧
      ((parseUint 8 a).1 ≤ limit ∧ (parseUint 8 b).1 ≤ limit) ∧
      (parseUint 8 a).1 = min ∧ (parseUint 8 b).1 = max) ↔
    min = natOf a ∧ max = natOf b ∧ min ≤ max ∧ max ≤ limit := by
  rw [parseUint_le_iff ha hlimit, parseUint_le_iff hb hlimit]
  constructor
  · rintro ⟨hlt, ⟨hla, hlb⟩, rfl, rfl⟩
    rw [parseUint_of_le ha hlimit hla, parseUint_of_le hb hlimit hlb] at hlt ⊢
    exact ⟨rfl, rfl, by omega, hlb⟩
  · rintro ⟨rfl, rfl, hle, hmax⟩
    have hla := parseUint_of_le ha hlimit (hle.trans hmax)
    have hlb := parseUint_of_le hb hlimit hmax
    exact ⟨by omega, ⟨by omega, hmax⟩, hla, hlb⟩

/-- What is accepted as a prefix: the length of its own mask if it has no range, and otherwise the
first range that its text has anywhere, if the range is not empty and within the limit of the
network. -/
def Prefix.Accepted (c : Prefix) (min max : Nat) : Prop :=
  ∃ form ip n, parsePrefix c.ipPrefix = some (form, ip, n) ∧
    (c.masklengthRange = "" ∧ min = n ∧ max = n ∨
      ∃ a b, FirstRange c.masklengthRange.toList a b ∧ min = natOf a ∧ max = natOf b ∧ min ≤ max ∧
        max ≤ lengthLimit form ip n)

section Accepted
variable {c : Prefix} {form : AddrForm} {ip : IP} {n min max : Nat}

theorem Prefix.accepted_empty (hp : parsePrefix c.ipPrefix = some (form, ip, n))
    (hmask : c.masklengthRange = "") : c.Accepted min max ↔ min = n ∧ max = n := by
  constructor
  · rintro ⟨form', ip', n', hp', ⟨-, hlengths⟩ | ⟨a, b, h, -⟩⟩
    · rw [hp] at hp'
      cases hp'
      exact hlengths
    · exact absurd (by rw [hmask]; rfl) h.ne_nil
  · exact fun h => ⟨form, ip, n, hp, .inl ⟨hmask, h⟩⟩

theorem Prefix.accepted_range (hp : parsePrefix c.ipPrefix = some (form, ip, n)) {a b : List Char}
    (hfirst : FirstRange c.masklengthRange.toList a b) : c.Accepted min max ↔
      min = natOf a ∧ max = natOf b ∧ min ≤ max ∧ max ≤ lengthLimit form ip n := by
  constructor
  · rintro ⟨form', ip', n', hp', ⟨hmask, -⟩ | ⟨a', b', h, hrest⟩⟩
    · exact absurd (by rw [hmask]; rfl) hfirst.ne_nil
    · rw [hp] at hp'
      cases hp'
      obtain ⟨rfl, rfl⟩ := hfirst.unique h
      exact hrest
  · exact fun h => ⟨form, ip, n, hp, .inr ⟨a, b, hfirst, h⟩⟩

/-- The length of the mask of a prefix. -/
theorem maskSize_parsePrefix {s : String} (hp : parsePrefix s = some (form, ip, n)) :
    (maskSize (cidrMask (form.bitLen / 8) n)).1 = n := by
  obtain ⟨-, -, hn⟩ := parsePrefix_some hp
  have hbits : form.bitLen = 8 * (form.bitLen / 8) := by cases form <;> rfl
  rw [maskSize_cidrMask (by omega)]

/-- **`parseMaskLength` accepts exactly that.**  Numbers that are too great for `ParseUint` are
never accepted. -/
theorem parseMaskLength_ok_iff :
    parseMaskLength c.ipPrefix c.masklengthRange = .ok (min, max) ↔ c.Accepted min max := by
  rw [parseMaskLength, parseCIDR]
  cases hp : parsePrefix c.ipPrefix with
  | none => simp [Prefix.Accepted, hp]
  | some p =>
    obtain ⟨form, ip, n⟩ := p
    simp only [Option.map_some]
    by_cases hmask : c.masklengthRange = ""
    · rw [if_pos hmask, Prefix.accepted_empty hp hmask, maskSize_parsePrefix hp]
      simp [eq_comm]
    rw [if_neg hmask]
    cases hfind : leftmost rangeAt c.masklengthRange.toList with
    | none =>
      refine iff_of_false (fun h => by cases h) ?_
      rintro ⟨_, _, _, -, ⟨h, -⟩ | ⟨a, b, h, -⟩⟩
      · exact hmask h
      · rw [leftmost_rangeAt_iff.mpr h] at hfind
        cases hfind
    | some ab =>
      obtain ⟨a, b⟩ := ab
      have hfirst := leftmost_rangeAt_iff.mp hfind
      have hlimit : lengthLimit form ip n < 255 := by
        rw [lengthLimit]
        split <;> omega
      rw [Prefix.accepted_range hp hfirst,
        ← range_accepted_iff hfirst.number_left hfirst.number_right hlimit, lengthLimit]
      simp only [← to4_network_iff hp]
      by_cases hlt : (parseUint 8 b).1 < (parseUint 8 a).1
      · simp [hlt]
      by_cases hv4 : (to4 (maskIP ip (cidrMask (form.bitLen / 8) n))).isSome = true
      · by_cases hin : (parseUint 8 a).1 ≤ 32 ∧ (parseUint 8 b).1 ≤ 32 <;> simp [hlt, hv4, hin]
      · by_cases hin : (parseUint 8 a).1 ≤ 128 ∧ (parseUint 8 b).1 ≤ 128 <;> simp [hlt, hv4, hin]

end Accepted

/-! ## The sets of a file -/

section Except
variable {α β ε : Type} {f : α → Except ε β} {l : List α}

theorem bind_ok {x : Except ε α} {b : β} (h : x >>= f = .ok b) :
    ∃ a, x = .ok a ∧ f a = .ok b := by
  cases x with
  | error e => cases h
  | ok a => exact ⟨a, rfl, h⟩

theorem bind_error {x : Except ε α} {e : ε} (h : x >>= f = .error e) :
    x = .error e ∨ ∃ a, x = .ok a ∧ f a = .error e := by
  cases x with
  | error e' =>
    cases h
    exact .inl rfl
  | ok a => exact .inr ⟨a, rfl, h⟩

theorem forall₂_of_mapM {bs : List β} (h : l.mapM f = .ok bs) :
    List.Forall₂ (fun a b => f a = .ok b) l bs := by
  induction l generalizing bs with
  | nil =>
    cases h
    exact .nil
  | cons a l ih =>
    rw [List.mapM_cons] at h
    obtain ⟨b, ha, h⟩ := bind_ok h
    obtain ⟨bs', hl, h⟩ := bind_ok h
    cases h
    exact .cons ha (ih hl)

/-- The error is that of the first element that has one. -/
theorem first_error_of_mapM {e : ε} (h : l.mapM f = .error e) :
    ∃ pre a post, l = pre ++ a :: post ∧ (∀ x ∈ pre, ∃ b, f x = .ok b) ∧ f a = .error e := by
  induction l with
  | nil => cases h
  | cons a l ih =>
    rw [List.mapM_cons] at h
    rcases bind_error h with ha | ⟨b, ha, h⟩
    · exact ⟨[], a, l, rfl, fun x hx => (by cases hx), ha⟩
    · rcases bind_error h with hl | ⟨bs, -, h⟩
      · obtain ⟨pre, x, post, rfl, hpre, hx⟩ := ih hl
        exact ⟨a :: pre, x, post, rfl, List.forall_mem_cons.mpr ⟨⟨b, ha⟩, hpre⟩, hx⟩
      · cases h

theorem forall_of_forall₂ {R : α → β → Prop} {P : α → Prop} {bs : List β}
    (h : List.Forall₂ R l bs) (hP : ∀ a b, R a b → P a) : ∀ a ∈ l, P a := by
  have hall : List.Forall₂ (fun a _ => P a ∧ True) l bs :=
    h.imp fun a b hab => ⟨hP a b hab, trivial⟩
  exact ((List.forall₂_and_left _ _).mp hall).1

end Except

theorem newAPIPrefix_ok {c : Prefix} {p : Api.Prefix} (h : newAPIPrefixFromConfigStruct c = .ok p) :
    p.ipPrefix = c.ipPrefix ∧ c.Accepted p.maskLengthMin p.maskLengthMax := by
  obtain ⟨⟨min, max⟩, hlen, h⟩ := bind_ok h
  cases h
  exact ⟨rfl, parseMaskLength_ok_iff.mp hlen⟩

theorem newAPIPrefix_error {c : Prefix} {e : Err} (h : newAPIPrefixFromConfigStruct c = .error e) :
    parseMaskLength c.ipPrefix c.masklengthRange = .error e ∧ ∀ min max, ¬ c.Accepted min max := by
  rcases bind_error h with hlen | ⟨⟨min, max⟩, -, h⟩
  · refine ⟨hlen, fun min max hacc => ?_⟩
    rw [parseMaskLength_ok_iff.mpr hacc] at hlen
    cases hlen
  · cases h

theorem newAPIPrefixSet_ok {ps : PrefixSet} {set : Api.DefinedSet}
    (h : newAPIPrefixSet ps = .ok set) :
    set.definedType = .prefixes ∧ set.name = ps.prefixSetName ∧
      List.Forall₂ (fun c p => newAPIPrefixFromConfigStruct c = .ok p) ps.prefixList
        set.prefixes := by
  obtain ⟨prefixes, hmap, h⟩ := bind_ok h
  cases h
  exact ⟨rfl, rfl, forall₂_of_mapM hmap⟩

/-- The sets of a file, when they are accepted. -/
theorem newAPIDefinedSets_ok {t : DefinedSets} {sets : List Api.DefinedSet}
    (h : newAPIDefinedSetsFromConfigStruct t = .ok sets) :
    ∃ prefixSets,
      List.Forall₂ (fun ps set => newAPIPrefixSet ps = .ok set) t.prefixSets prefixSets ∧
      sets = prefixSets ++ t.neighborSets.map (newAPINamedSet .neighbor) ++
        t.bgpDefinedSets.communitySets.map (newAPINamedSet .community) ++
        t.bgpDefinedSets.extCommunitySets.map (newAPINamedSet .extCommunity) ++
        t.bgpDefinedSets.largeCommunitySets.map (newAPINamedSet .largeCommunity) ++
        t.bgpDefinedSets.asPathSets.map (newAPINamedSet .asPath) := by
  obtain ⟨prefixSets, hmap, h⟩ := bind_ok h
  cases h
  exact ⟨prefixSets, forall₂_of_mapM hmap, rfl⟩

/-- The first prefix that is not accepted gives the error. -/
theorem newAPIDefinedSets_error {t : DefinedSets} {e : Err}
    (h : newAPIDefinedSetsFromConfigStruct t = .error e) :
    ∃ pre c post, t.prefixSets.flatMap (·.prefixList) = pre ++ c :: post ∧
      (∀ d ∈ pre, ∃ p, newAPIPrefixFromConfigStruct d = .ok p) ∧
      newAPIPrefixFromConfigStruct c = .error e := by
  rcases bind_error h with hmap | ⟨prefixSets, -, h⟩
  · obtain ⟨before, ps, after, hsets, hbefore, hps⟩ := first_error_of_mapM hmap
    rcases bind_error hps with hlist | ⟨prefixes, -, hps⟩
    · obtain ⟨pre, c, post, hpl, hpre, hc⟩ := first_error_of_mapM hlist
      refine ⟨before.flatMap (·.prefixList) ++ pre, c, post ++ after.flatMap (·.prefixList), ?_,
        fun d hd => ?_, hc⟩
      · rw [hsets, List.flatMap_append, List.flatMap_cons, hpl]
        simp
      · rcases List.mem_append.mp hd with hd | hd
        · obtain ⟨qs, hqs, hd⟩ := List.mem_flatMap.mp hd
          obtain ⟨set, hset⟩ := hbefore qs hqs
          exact forall_of_forall₂ (P := fun c => ∃ p, newAPIPrefixFromConfigStruct c = .ok p)
            (newAPIPrefixSet_ok hset).2.2 (fun c p hp => ⟨p, hp⟩) d hd
        · exact hpre d hd
    · cases hps
  · cases h

/-- **Which prefix sets a file may have.**  The sets are taken, with the name of each and the mask
lengths of each of its prefixes, if all prefixes are acceptable, and otherwise the error is that of
the first prefix that is not. -/
theorem prefix_sets_exact (t : DefinedSets) :
    (∀ sets, newAPIDefinedSetsFromConfigStruct t = .ok sets →
      List.Forall₂ (fun ps set => set.definedType = .prefixes ∧ set.name = ps.prefixSetName ∧
        List.Forall₂ (fun c p => p.ipPrefix = c.ipPrefix ∧
          c.Accepted p.maskLengthMin p.maskLengthMax) ps.prefixList set.prefixes)
        t.prefixSets (sets.take t.prefixSets.length)) ∧
    ∀ e, newAPIDefinedSetsFromConfigStruct t = .error e →
      ∃ pre c post, t.prefixSets.flatMap (·.prefixList) = pre ++ c :: post ∧
        (∀ d ∈ pre, ∃ min max, d.Accepted min max) ∧ (∀ min max, ¬ c.Accepted min max) ∧
        parseMaskLength c.ipPrefix c.masklengthRange = .error e := by
  constructor
  · intro sets h
    obtain ⟨prefixSets, hpsets, rfl⟩ := newAPIDefinedSets_ok h
    have hlen := hpsets.length_eq
    simp only [List.append_assoc]
    rw [hlen, List.take_left]
    refine hpsets.imp fun ps set hset => ?_
    obtain ⟨htype, hname, hlist⟩ := newAPIPrefixSet_ok hset
    exact ⟨htype, hname, hlist.imp fun c p hp => newAPIPrefix_ok hp⟩
  · intro e h
    obtain ⟨pre, c, post, hl, hpre, hc⟩ := newAPIDefinedSets_error h
    obtain ⟨herr, hnot⟩ := newAPIPrefix_error hc
    refine ⟨pre, c, post, hl, fun d hd => ?_, hnot, herr⟩
    obtain ⟨p, hp⟩ := hpre d hd
    exact ⟨_, _, (newAPIPrefix_ok hp).2⟩

end OpenELB.BgpPolicy
