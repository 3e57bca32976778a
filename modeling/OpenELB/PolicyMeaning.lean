import OpenELB.PolicyFile
import OpenELB.RoutePolicy

/-! # What a policy means before and after its translation

A statement of the policy file is read as a rule: what each of its fields asks of a route or does to
it.  A statement of gobgp's API is read as a rule as well.  `toStatementApi` makes the second of the
first, and keeps its meaning exactly if the statement is `Translatable` (`statement_meaning_iff`).

The translation has no errors.  It drops fields that the API has no place for, so that a statement
with such a condition applies to more routes than it says, and it takes some texts that are no
option for the first option.  Where it passes a text on as a number out of range, gobgp refuses the
statement.

The readings are the meaning of the two notations and not code of the speaker: what a field asks
for comes from the constants of `bgp_configs.go`, and that of an API field from the values of its
enumeration.  Sets are looked up by their names, by whatever `sets` says. -/
namespace OpenELB.BgpPolicy
open Go GoNumber RoutePolicy

/-! ## Rules -/

/-- What a condition is about. -/
inductive Attribute where
  | prefixSet
  | neighborSet
  | tagSet
  | asPathSet
  | communitySet
  | extCommunitySet
  | largeCommunitySet
  | asPathLength
  | communityCount
  | routeType
  | nextHop
  | family
  | med
  | origin
  | localPref
  | callPolicy
  | installProtocol
  deriving DecidableEq

/-- All of them. -/
def Attribute.every : List Attribute :=
  [prefixSet, neighborSet, tagSet, asPathSet, communitySet, extCommunitySet, largeCommunitySet,
    asPathLength, communityCount, routeType, nextHop, family, med, origin, localPref, callPolicy,
    installProtocol]

theorem Attribute.mem_every (a : Attribute) : a ∈ every := by cases a <;> decide

/-- `AttributeComparison`. -/
inductive Comparison where
  | eq
  | ge
  | le
  deriving DecidableEq

/-- The elements of a set. -/
inductive Contents where
  | prefixes (l : List Api.Prefix)
  | texts (l : List String)
  deriving DecidableEq

/-- The sets of a name. -/
abbrev Sets := Attribute → String → List Contents

/-- What is asked of an attribute. -/
inductive Requirement where
  | inSet (how : MatchOption) (sets : List Contents)
  | compare (op : Comparison) (value : Nat)
  | among (texts : List String)
  | families (l : List Api.Family)
  | is (text : String)
  | equals (value : Nat)
  deriving DecidableEq

/-- What an action is about. -/
inductive Target where
  | asPath
  | community
  | extCommunity
  | largeCommunity
  | communityRef
  | extCommunityRef
  | origin
  | localPref
  | nextHop
  | med
  | tag
  deriving DecidableEq

/-- All of them. -/
def Target.every : List Target :=
  [asPath, community, extCommunity, largeCommunity, communityRef, extCommunityRef, origin,
    localPref, nextHop, med, tag]

theorem Target.mem_every (t : Target) : t ∈ every := by cases t <;> decide

/-- What is done to a target. -/
inductive Effect where
  | prepend (asn times : Nat)
  | prependLeftMost (times : Nat)
  | communities (how : Api.CommunityActionType) (l : List String)
  | med (how : Api.MedActionType) (value : Int)
  | self
  | text (value : String)
  | number (value : Nat)
  deriving DecidableEq

/-- The fields of a statement. -/
abbrev StatementFields := Fields Attribute Target Requirement Effect

/-- The rule of a statement, if it can be read. -/
abbrev ruleOf (f : StatementFields) : Option (Rule (Attribute × Requirement) (Target × Effect)) :=
  f.rule Attribute.every Target.every

/-! ## Reading the file -/

/-- `match-set-options`; the restricted type has no `all`. -/
def readOption (restricted : Bool) (text : String) : Option MatchOption :=
  if text = "" ∨ text = "any" then some .any
  else if text = "invert" then some .invert
  else if text = "all" ∧ restricted = false then some .all
  else none

/-- A condition on a set. -/
def readSet (sets : Sets) (a : Attribute) (restricted : Bool) (m : MatchSet) :
    Reading Requirement :=
  if m.set = "" then .absent
  else match readOption restricted m.matchSetOptions with
    | none => .refused
    | some how => .asks (.inSet how (sets a m.set))

/-- A comparison has two names. -/
def readComparison (text : String) : Option Comparison :=
  if text = "attribute-eq" ∨ text = "eq" then some .eq
  else if text = "attribute-ge" ∨ text = "ge" then some .ge
  else if text = "attribute-le" ∨ text = "le" then some .le
  else none

/-- A condition on a number of elements. -/
def readCount (c : AttributeCount) : Reading Requirement :=
  if c.operator = "" then .absent
  else match readComparison c.operator with
    | none => .refused
    | some op => .asks (.compare op c.value)

/-- `route-type`. -/
def readRouteType (text : String) : Reading Requirement :=
  if text = "" ∨ text = "none" then .absent
  else if text = "internal" ∨ text = "external" ∨ text = "local" then .asks (.is text)
  else .refused

/-- `next-hop-in-list`. -/
def readNextHops (l : List String) : Reading Requirement :=
  if l = [] then .absent else .asks (.among l)

/-- `afi-safi-in-list`: every family has to be known. -/
def readFamilies (families : FamilyMap) : Option (List String) → Reading Requirement
  | none => .absent
  | some l =>
    if l.all (fun name => (families name).isSome) then
      .asks (.families (l.filterMap fun name => (families name).map routeFamilyToAfiSafi))
    else .refused

/-- A text that asks for itself, unless it is empty. -/
def readText {α : Type} (make : String → α) (text : String) : Reading α :=
  if text = "" then .absent else .asks (make text)

/-- A number that asks for itself, unless it is 0. -/
def readNumber {α : Type} (make : Nat → α) (value : Nat) : Reading α :=
  if value = 0 then .absent else .asks (make value)

/-- The options of an action on communities. -/
def readCommunityOption (text : String) : Option Api.CommunityActionType :=
  if text = "add" then some .add else if text = "remove" then some .remove
  else if text = "replace" then some .replace else none

/-- An action on communities. -/
def readCommunity (c : SetCommunity) : Reading Effect :=
  if c.communitiesList = [] then .absent
  else match readCommunityOption c.options with
    | none => .refused
    | some how => .asks (.communities how c.communitiesList)

/-- The AS number to put in front, or the last one of the path again. -/
def readPrepend (p : SetAsPathPrepend) : Reading Effect :=
  if p.as = "" then .absent
  else if p.as = "last-as" then .asks (.prependLeftMost p.repeatN)
  else if IsNumber p.as.toList ∧ natOf p.as.toList ≤ 2 ^ 32 - 1 then
    .asks (.prepend (natOf p.as.toList) p.repeatN)
  else .refused

/-- `set-next-hop`. -/
def readNextHop (text : String) : Reading Effect :=
  if text = "self" then .asks .self else readText .text text

/-- `set-med`: a number, which is a difference if it has a sign, and nothing else. -/
def readMed (text : String) : Reading Effect :=
  let cs := trimSpace text.toList
  if cs = [] then .absent
  else match signedAt cs with
    | none => .refused
    | some (sign, digits) =>
      if cs = sign ++ digits ∧ -(2 ^ 63 : Nat) ≤ signedVal sign digits ∧
          signedVal sign digits < (2 ^ 63 : Nat) then
        .asks (.med (if sign = [] then .replace else .mod) (signedVal sign digits))
      else .refused

/-- `route-disposition`. -/
def readDisposition (text : String) : Reading Bool :=
  if text = "" ∨ text = "none" then .absent
  else if text = "accept-route" then .asks true
  else if text = "reject-route" then .asks false
  else .refused

/-- A statement of the file. -/
def Statement.fields (families : FamilyMap) (sets : Sets) (s : Statement) : StatementFields where
  conditions
    | .prefixSet => readSet sets .prefixSet true s.conditions.matchPrefixSet
    | .neighborSet => readSet sets .neighborSet true s.conditions.matchNeighborSet
    | .tagSet => readSet sets .tagSet true s.conditions.matchTagSet
    | .asPathSet => readSet sets .asPathSet false s.conditions.bgpConditions.matchAsPathSet
    | .communitySet => readSet sets .communitySet false s.conditions.bgpConditions.matchCommunitySet
    | .extCommunitySet =>
      readSet sets .extCommunitySet false s.conditions.bgpConditions.matchExtCommunitySet
    | .largeCommunitySet =>
      readSet sets .largeCommunitySet false s.conditions.bgpConditions.matchLargeCommunitySet
    | .asPathLength => readCount s.conditions.bgpConditions.asPathLength
    | .communityCount => readCount s.conditions.bgpConditions.communityCount
    | .routeType => readRouteType s.conditions.bgpConditions.routeType
    | .nextHop => readNextHops s.conditions.bgpConditions.nextHopInList
    | .family => readFamilies families s.conditions.bgpConditions.afiSafiInList
    | .med => readNumber .equals s.conditions.bgpConditions.medEq
    | .origin => readText .is s.conditions.bgpConditions.originEq
    | .localPref => readNumber .equals s.conditions.bgpConditions.localPrefEq
    | .callPolicy => readText .is s.conditions.callPolicy
    | .installProtocol => readText .is s.conditions.installProtocolEq
  actions
    | .asPath => readPrepend s.actions.bgpActions.setAsPathPrepend
    | .community => readCommunity s.actions.bgpActions.setCommunity
    | .extCommunity => readCommunity s.actions.bgpActions.setExtCommunity
    | .largeCommunity => readCommunity s.actions.bgpActions.setLargeCommunity
    | .communityRef => readText .text s.actions.bgpActions.setCommunity.setRef
    | .extCommunityRef => readText .text s.actions.bgpActions.setExtCommunity.setRef
    | .origin => readText .text s.actions.bgpActions.setRouteOrigin
    | .localPref => readNumber .number s.actions.bgpActions.setLocalPref
    | .nextHop => readNextHop s.actions.bgpActions.setNextHop
    | .med => readMed s.actions.bgpActions.setMed
    | .tag => readText .text s.actions.setTag
  verdict := readDisposition s.actions.routeDisposition

/-! ## Reading the API -/

namespace Api

/-- `api.MatchType`. -/
def readMatchType (matchType : Int) : Option MatchOption :=
  if matchType = 0 then some .any else if matchType = 1 then some .all
  else if matchType = 2 then some .invert else none

/-- A condition on a set. -/
def readSet (sets : Sets) (a : Attribute) : Option MatchSet → Reading Requirement
  | none => .absent
  | some m =>
    match readMatchType m.matchType with
    | none => .refused
    | some how => .asks (.inSet how (sets a m.name))

/-- What is assumed of gobgp: it takes the numbers of both names of a comparison for the comparison,
and -1 for none. -/
structure LengthTypes (lengthTypes : Int → Option Comparison) : Prop where
  eq : lengthTypes 0 = some .eq ∧ lengthTypes 3 = some .eq
  ge : lengthTypes 1 = some .ge ∧ lengthTypes 4 = some .ge
  le : lengthTypes 2 = some .le ∧ lengthTypes 5 = some .le
  unknown : lengthTypes (-1) = none

/-- The condition on the length of the AS path.  What gobgp makes of `api.AsPathLengthType` is a
parameter. -/
def readLength (lengthTypes : Int → Option Comparison) : Option AsPathLength → Reading Requirement
  | none => .absent
  | some l =>
    match lengthTypes l.lengthType with
    | none => .refused
    | some op => .asks (.compare op l.length)

/-- `api.Conditions_RouteType`. -/
def readRouteType (routeType : Int) : Reading Requirement :=
  if routeType = 0 then .absent
  else if routeType = 1 then .asks (.is "internal")
  else if routeType = 2 then .asks (.is "external")
  else if routeType = 3 then .asks (.is "local")
  else .refused

/-- An optional message. -/
def readOpt {α β : Type} (make : α → β) : Option α → Reading β
  | none => .absent
  | some a => .asks (make a)

/-- `api.AsPrependAction`. -/
def AsPrependAction.effect (a : AsPrependAction) : Effect :=
  if a.useLeftMost then .prependLeftMost a.repeatN else .prepend a.asn a.repeatN

/-- `api.NexthopAction`. -/
def NexthopAction.effect (a : NexthopAction) : Effect :=
  if a.self then .self else .text a.address

/-- `api.RouteAction`. -/
def RouteAction.verdict : RouteAction → Reading Bool
  | .none => .absent
  | .accept => .asks true
  | .reject => .asks false

/-- A statement of the API. -/
def Statement.fields (lengthTypes : Int → Option Comparison) (sets : Sets) (s : Statement) :
    StatementFields where
  conditions
    | .prefixSet => readSet sets .prefixSet s.conditions.prefixSet
    | .neighborSet => readSet sets .neighborSet s.conditions.neighborSet
    | .asPathSet => readSet sets .asPathSet s.conditions.asPathSet
    | .communitySet => readSet sets .communitySet s.conditions.communitySet
    | .extCommunitySet => readSet sets .extCommunitySet s.conditions.extCommunitySet
    | .largeCommunitySet => readSet sets .largeCommunitySet s.conditions.largeCommunitySet
    | .asPathLength => readLength lengthTypes s.conditions.asPathLength
    | .routeType => readRouteType s.conditions.routeType
    | .nextHop => readNextHops s.conditions.nextHopInList
    | .family => readOpt .families s.conditions.afiSafiIn
    -- the API has no place for these
    | .tagSet | .communityCount | .med | .origin | .localPref | .callPolicy | .installProtocol =>
      .absent
  actions
    | .asPath => readOpt AsPrependAction.effect s.actions.asPrepend
    | .community => readOpt (fun a => .communities a.actionType a.communities) s.actions.community
    | .extCommunity =>
      readOpt (fun a => .communities a.actionType a.communities) s.actions.extCommunity
    | .largeCommunity =>
      readOpt (fun a => .communities a.actionType a.communities) s.actions.largeCommunity
    | .localPref => readOpt .number s.actions.localPref
    | .nextHop => readOpt NexthopAction.effect s.actions.nexthop
    | .med => readOpt (fun a => .med a.actionType a.value) s.actions.med
    | .communityRef | .extCommunityRef | .origin | .tag => .absent
  verdict := s.actions.routeAction.verdict

end Api

/-! ## What is kept -/

/-- An option of the restricted type. -/
def RestrictedOption (m : MatchSet) : Prop :=
  m.set = "" ∨ m.matchSetOptions ∈ ["", "any", "invert"]

/-- An action on communities with an option. -/
def CommunityOption (c : SetCommunity) : Prop :=
  c.communitiesList = [] ∨ c.options ∈ ["add", "remove", "replace"]

/-- An AS number, or `last-as`. -/
def PrependText (as : String) : Prop :=
  as = "" ∨ as = "last-as" ∨ IsNumber as.toList ∧ natOf as.toList ≤ 2 ^ 32 - 1

/-- A signed number of 64 bits, or nothing. -/
def MedText (text : String) : Prop :=
  trimSpace text.toList = [] ∨ ∃ sign digits, trimSpace text.toList = sign ++ digits ∧
    IsSign sign ∧ IsNumber digits ∧ -(2 ^ 63 : Nat) ≤ signedVal sign digits ∧
    signedVal sign digits < (2 ^ 63 : Nat)

/-- What a statement may not have to be translated as it is meant. -/
structure Translatable (families : FamilyMap) (s : Statement) : Prop where
  prefix_option : RestrictedOption s.conditions.matchPrefixSet
  neighbor_option : RestrictedOption s.conditions.matchNeighborSet
  families_known : ∀ l, s.conditions.bgpConditions.afiSafiInList = some l →
    ∀ name ∈ l, (families name).isSome
  /-- Conditions that are dropped. -/
  no_tag_set : s.conditions.matchTagSet.set = ""
  no_community_count : s.conditions.bgpConditions.communityCount.operator = ""
  no_med_eq : s.conditions.bgpConditions.medEq = 0
  no_origin_eq : s.conditions.bgpConditions.originEq = ""
  no_local_pref_eq : s.conditions.bgpConditions.localPrefEq = 0
  no_call_policy : s.conditions.callPolicy = ""
  no_install_protocol : s.conditions.installProtocolEq = ""
  prepend_text : PrependText s.actions.bgpActions.setAsPathPrepend.as
  community_option : CommunityOption s.actions.bgpActions.setCommunity
  extCommunity_option : CommunityOption s.actions.bgpActions.setExtCommunity
  largeCommunity_option : CommunityOption s.actions.bgpActions.setLargeCommunity
  med_text : MedText s.actions.bgpActions.setMed
  /-- Actions that are dropped. -/
  no_community_ref : s.actions.bgpActions.setCommunity.setRef = ""
  no_extCommunity_ref : s.actions.bgpActions.setExtCommunity.setRef = ""
  no_origin : s.actions.bgpActions.setRouteOrigin = ""
  no_tag : s.actions.setTag = ""
  disposition : s.actions.routeDisposition ∈ ["", "none", "accept-route", "reject-route"]

/-! ## One field -/

theorem readText_absent_iff {α : Type} {make : String → α} {text : String} :
    readText make text = .absent ↔ text = "" :=
  Reading.ite_absent_iff (by simp)

theorem readNumber_absent_iff {α : Type} {make : Nat → α} {value : Nat} :
    readNumber make value = .absent ↔ value = 0 :=
  Reading.ite_absent_iff (by simp)

theorem readCount_absent_iff {c : AttributeCount} : readCount c = .absent ↔ c.operator = "" :=
  Reading.ite_absent_iff (by cases readComparison c.operator <;> simp)

theorem readSet_absent_iff {sets : Sets} {a : Attribute} {restricted : Bool} {m : MatchSet} :
    readSet sets a restricted m = .absent ↔ m.set = "" :=
  Reading.ite_absent_iff (by cases readOption restricted m.matchSetOptions <;> simp)

/-- The option of a set goes through `ToInt` and back. -/
theorem readMatchType_toInt (text : String) :
    Api.readMatchType (matchSetOptionsToInt text) = readOption false text := by
  by_cases hempty : text = ""
  · subst hempty; rfl
  by_cases hany : text = "any"
  · subst hany; rfl
  by_cases hall : text = "all"
  · subst hall; rfl
  by_cases hinvert : text = "invert"
  · subst hinvert; rfl
  simp [matchSetOptionsToInt, defaultAsNeeded, readOption, hempty, hany, hall, hinvert,
    Api.readMatchType]

/-- A condition on a set with any option keeps its meaning. -/
theorem readSet_eq (sets : Sets) (a : Attribute) (m : MatchSet) :
    readSet sets a false m = Api.readSet sets a (toMatchSet matchSetOptionsToInt m) := by
  by_cases hset : m.set = ""
  · simp [readSet, toMatchSet, hset, Api.readSet]
  · simp [readSet, toMatchSet, hset, Api.readSet, readMatchType_toInt]

/-- `newMatchOption` takes what is no option for `any`. -/
theorem readMatchType_newMatchOption (text : String) :
    Api.readMatchType (newMatchOption (.restricted text)).1.toInt =
      some ((readOption true text).getD .any) := by
  by_cases hempty : text = ""
  · subst hempty; rfl
  by_cases hany : text = "any"
  · subst hany; rfl
  by_cases hinvert : text = "invert"
  · subst hinvert; rfl
  simp [newMatchOption, defaultAsNeeded, readOption, hempty, hany, hinvert, MatchOption.toInt,
    Api.readMatchType]

theorem readOption_restricted_iff {text : String} :
    (readOption true text).isSome ↔ text ∈ ["", "any", "invert"] := by
  by_cases hempty : text = "" ∨ text = "any"
  · rcases hempty with rfl | rfl <;> decide
  by_cases hinvert : text = "invert"
  · subst hinvert; decide
  rw [not_or] at hempty
  simp [readOption, hempty, hinvert]

/-- A condition on a set with an option of the restricted type. -/
theorem readSet_restricted_iff {sets : Sets} {a : Attribute} {m : MatchSet} :
    readSet sets a true m = Api.readSet sets a (toMatchSetRestricted m) ↔ RestrictedOption m := by
  rw [RestrictedOption]
  by_cases hset : m.set = ""
  · simp [readSet, toMatchSetRestricted, toMatchSet, hset, Api.readSet]
  · rw [← readOption_restricted_iff]
    simp only [readSet, toMatchSetRestricted, toMatchSet, ne_eq, hset, not_false_eq_true, if_true,
      if_false, Api.readSet, readMatchType_newMatchOption, false_or]
    cases readOption true m.matchSetOptions <;> simp

/-- Both names of a comparison keep their meaning. -/
theorem lengthTypes_toInt {lengthTypes : Int → Option Comparison} (h : Api.LengthTypes lengthTypes)
    (text : String) : lengthTypes (attributeComparisonToInt text) = readComparison text := by
  by_cases h₀ : text = "attribute-eq"
  · subst h₀; exact h.eq.1
  by_cases h₁ : text = "attribute-ge"
  · subst h₁; exact h.ge.1
  by_cases h₂ : text = "attribute-le"
  · subst h₂; exact h.le.1
  by_cases h₃ : text = "eq"
  · subst h₃; exact h.eq.2
  by_cases h₄ : text = "ge"
  · subst h₄; exact h.ge.2
  by_cases h₅ : text = "le"
  · subst h₅; exact h.le.2
  simp [attributeComparisonToInt, readComparison, h₀, h₁, h₂, h₃, h₄, h₅, h.unknown]

theorem readCount_eq {lengthTypes : Int → Option Comparison} (h : Api.LengthTypes lengthTypes)
    (families : FamilyMap) (c : Conditions) :
    readCount c.bgpConditions.asPathLength =
      Api.readLength lengthTypes (toConditionsApi families c).asPathLength := by
  by_cases hop : c.bgpConditions.asPathLength.operator = ""
  · simp [readCount, toConditionsApi, hop, Api.readLength]
  · simp [readCount, toConditionsApi, hop, Api.readLength, lengthTypes_toInt h]

theorem readRouteType_eq (families : FamilyMap) (c : Conditions) :
    readRouteType c.bgpConditions.routeType =
      Api.readRouteType (toConditionsApi families c).routeType := by
  show _ = Api.readRouteType (if c.bgpConditions.routeType ≠ "" then
    routeTypeToInt c.bgpConditions.routeType else 0)
  generalize c.bgpConditions.routeType = text
  by_cases hempty : text = ""
  · subst hempty; rfl
  by_cases h₀ : text = "none"
  · subst h₀; rfl
  by_cases h₁ : text = "internal"
  · subst h₁; rfl
  by_cases h₂ : text = "external"
  · subst h₂; rfl
  by_cases h₃ : text = "local"
  · subst h₃; rfl
  simp [readRouteType, routeTypeToInt, hempty, h₀, h₁, h₂, h₃, Api.readRouteType]

/-- Families that are not known are dropped. -/
theorem readFamilies_iff {families : FamilyMap} {c : Conditions} :
    readFamilies families c.bgpConditions.afiSafiInList =
        Api.readOpt .families (toConditionsApi families c).afiSafiIn ↔
      ∀ l, c.bgpConditions.afiSafiInList = some l → ∀ name ∈ l, (families name).isSome := by
  show _ = Api.readOpt _ (c.bgpConditions.afiSafiInList.map _) ↔ _
  cases c.bgpConditions.afiSafiInList with
  | none => simp [readFamilies, Api.readOpt]
  | some l =>
    by_cases hall : l.all (fun name => (families name).isSome) = true
    · simp only [readFamilies, if_pos hall, Option.map_some, Api.readOpt, true_iff]
      rintro l' ⟨⟩
      exact List.all_eq_true.mp hall
    · simp only [readFamilies, if_neg hall, Option.map_some, Api.readOpt, reduceCtorEq, false_iff]
      exact fun h => hall (List.all_eq_true.mpr (h l rfl))

/-- What is no option is taken for `add`. -/
theorem readCommunity_iff {c : SetCommunity} :
    readCommunity c =
        Api.readOpt (fun a => .communities a.actionType a.communities) (toCommunityAction c) ↔
      CommunityOption c := by
  rw [CommunityOption, readCommunity, toCommunityAction]
  by_cases hnil : c.communitiesList = []
  · simp [hnil, Api.readOpt]
  by_cases hadd : c.options = "add"
  · simp [hnil, hadd, Api.readOpt, readCommunityOption, communityActionType]
  by_cases hremove : c.options = "remove"
  · simp [hnil, hremove, Api.readOpt, readCommunityOption, communityActionType]
  by_cases hreplace : c.options = "replace"
  · simp [hnil, hreplace, Api.readOpt, readCommunityOption, communityActionType]
  simp [hnil, hadd, hremove, hreplace, Api.readOpt, readCommunityOption]

/-- What is no AS number is taken for 0, or for the greatest one. -/
theorem readPrepend_iff {p : SetAsPathPrepend} :
    readPrepend p = Api.readOpt Api.AsPrependAction.effect (toAsPrependAction p) ↔
      PrependText p.as := by
  rw [PrependText, readPrepend, toAsPrependAction]
  by_cases hempty : p.as = ""
  · simp [hempty, Api.readOpt]
  by_cases hlast : p.as = "last-as"
  · simp [hlast, Api.readOpt, Api.AsPrependAction.effect]
  by_cases hnum : IsNumber p.as.toList ∧ natOf p.as.toList ≤ 2 ^ 32 - 1
  · have hparse : (parseUint 32 p.as.toList).1 = natOf p.as.toList := by
      rw [parseUint_ok_iff.mpr ⟨hnum.1, hnum.2, rfl⟩]
    simp only [hempty, hlast, hnum, if_false, ne_eq, not_false_eq_true, if_true, hparse, and_self,
      Api.readOpt, Api.AsPrependAction.effect, false_or, Bool.false_eq_true]
  · simp only [hempty, hlast, hnum, if_false, ne_eq, not_false_eq_true, if_true, Api.readOpt,
      false_or, reduceCtorEq]

theorem readNextHop_eq (text : String) :
    readNextHop text = Api.readOpt Api.NexthopAction.effect (toNexthopAction text) := by
  rw [readNextHop, toNexthopAction]
  by_cases hself : text = "self"
  · subst hself; rfl
  by_cases hempty : text = ""
  · subst hempty; rfl
  simp [hself, hempty, readText, Api.readOpt, Api.NexthopAction.effect]

theorem readNumber_eq (value : Nat) :
    readNumber Effect.number value =
      Api.readOpt .number (if value = 0 then none else some value) := by
  rw [readNumber]
  split <;> rfl

/-- What is no number keeps its first number, or is dropped. -/
theorem readMed_iff {text : String} :
    readMed text = Api.readOpt (fun a => .med a.actionType a.value) (toMedAction text) ↔
      MedText text := by
  rw [MedText, readMed, toMedAction]
  generalize trimSpace text.toList = cs
  by_cases hnil : cs = []
  · simp [hnil, Api.readOpt]
  simp only [if_neg hnil]
  constructor
  · -- only an exact number is not refused
    intro h
    cases hat : signedAt cs with
    | none =>
      rw [hat] at h
      cases hmed : leftmost signedAt cs with
      | none => simp [hmed, Api.readOpt] at h
      | some sd =>
        obtain ⟨sign, digits⟩ := sd
        rcases hint : parseInt 64 (sign ++ digits) with ⟨v, _ | e⟩ <;>
          simp [hmed, hint, Api.readOpt] at h
    | some sd =>
      obtain ⟨sign, digits⟩ := sd
      obtain ⟨hsign, hdigits⟩ := signedAt_some hat
      rw [hat, leftmost_of_match hat] at h
      by_cases hexact : cs = sign ++ digits ∧ -(2 ^ 63 : Nat) ≤ signedVal sign digits ∧
          signedVal sign digits < (2 ^ 63 : Nat)
      · exact .inr ⟨sign, digits, hexact.1, hsign, hdigits, hexact.2⟩
      · rcases hint : parseInt 64 (sign ++ digits) with ⟨v, _ | e⟩ <;>
          simp only [if_neg hexact, hint, Api.readOpt, reduceCtorEq] at h
  · rintro (h | ⟨sign, digits, rfl, hsign, hdigits, hlow, hhigh⟩)
    · exact absurd h hnil
    · have hat := signedAt_exact hsign hdigits
      have hint : parseInt 64 (sign ++ digits) = (signedVal sign digits, none) :=
        (parseInt_ok_iff (by decide) hsign hdigits).mpr ⟨rfl, hlow, hhigh⟩
      have haction : (if sign = [] then Api.MedActionType.replace else .mod) =
          if sign = ['+'] ∨ sign = ['-'] then .mod else .replace := by
        rcases hsign with rfl | rfl | rfl <;> rfl
      simp only [hat, leftmost_of_match hat, hint, hlow, hhigh, and_self, if_true,
        Api.readOpt, haction]

theorem readDisposition_iff {text : String} :
    readDisposition text = (toRouteAction text).verdict ↔
      text ∈ ["", "none", "accept-route", "reject-route"] := by
  rw [readDisposition, toRouteAction]
  by_cases hempty : text = ""
  · simp [hempty, Api.RouteAction.verdict]
  by_cases hnone : text = "none"
  · simp [hnone, Api.RouteAction.verdict]
  by_cases haccept : text = "accept-route"
  · simp [haccept, Api.RouteAction.verdict]
  by_cases hreject : text = "reject-route"
  · simp [hreject, Api.RouteAction.verdict]
  simp [hempty, hnone, haccept, hreject, Api.RouteAction.verdict]

/-! ## A statement -/

section Statement
variable {lengthTypes : Int → Option Comparison} {families : FamilyMap} {s : Statement}

/-- **The fields of a statement are read alike exactly if it is translatable.** -/
theorem fields_alike_iff (hlen : Api.LengthTypes lengthTypes) (sets : Sets) :
    ((∀ a, (s.fields families sets).conditions a =
        ((toStatementApi families s).fields lengthTypes sets).conditions a) ∧
      (∀ t, (s.fields families sets).actions t =
        ((toStatementApi families s).fields lengthTypes sets).actions t) ∧
      (s.fields families sets).verdict =
        ((toStatementApi families s).fields lengthTypes sets).verdict) ↔
    Translatable families s := by
  constructor
  · rintro ⟨hc, ha, hv⟩
    exact
      { prefix_option := readSet_restricted_iff.mp (hc .prefixSet)
        neighbor_option := readSet_restricted_iff.mp (hc .neighborSet)
        families_known := readFamilies_iff.mp (hc .family)
        no_tag_set := readSet_absent_iff.mp (hc .tagSet)
        no_community_count := readCount_absent_iff.mp (hc .communityCount)
        no_med_eq := readNumber_absent_iff.mp (hc .med)
        no_origin_eq := readText_absent_iff.mp (hc .origin)
        no_local_pref_eq := readNumber_absent_iff.mp (hc .localPref)
        no_call_policy := readText_absent_iff.mp (hc .callPolicy)
        no_install_protocol := readText_absent_iff.mp (hc .installProtocol)
        prepend_text := readPrepend_iff.mp (ha .asPath)
        community_option := readCommunity_iff.mp (ha .community)
        extCommunity_option := readCommunity_iff.mp (ha .extCommunity)
        largeCommunity_option := readCommunity_iff.mp (ha .largeCommunity)
        med_text := readMed_iff.mp (ha .med)
        no_community_ref := readText_absent_iff.mp (ha .communityRef)
        no_extCommunity_ref := readText_absent_iff.mp (ha .extCommunityRef)
        no_origin := readText_absent_iff.mp (ha .origin)
        no_tag := readText_absent_iff.mp (ha .tag)
        disposition := readDisposition_iff.mp hv }
  · intro h
    refine ⟨fun a => ?_, fun t => ?_, readDisposition_iff.mpr h.disposition⟩
    · cases a with
      | prefixSet => exact readSet_restricted_iff.mpr h.prefix_option
      | neighborSet => exact readSet_restricted_iff.mpr h.neighbor_option
      | tagSet => exact readSet_absent_iff.mpr h.no_tag_set
      | asPathSet | communitySet | extCommunitySet | largeCommunitySet =>
        exact readSet_eq sets _ _
      | asPathLength => exact readCount_eq hlen families s.conditions
      | communityCount => exact readCount_absent_iff.mpr h.no_community_count
      | routeType => exact readRouteType_eq families s.conditions
      | nextHop => rfl
      | family => exact readFamilies_iff.mpr h.families_known
      | med => exact readNumber_absent_iff.mpr h.no_med_eq
      | origin => exact readText_absent_iff.mpr h.no_origin_eq
      | localPref => exact readNumber_absent_iff.mpr h.no_local_pref_eq
      | callPolicy => exact readText_absent_iff.mpr h.no_call_policy
      | installProtocol => exact readText_absent_iff.mpr h.no_install_protocol
    · cases t with
      | asPath => exact readPrepend_iff.mpr h.prepend_text
      | community => exact readCommunity_iff.mpr h.community_option
      | extCommunity => exact readCommunity_iff.mpr h.extCommunity_option
      | largeCommunity => exact readCommunity_iff.mpr h.largeCommunity_option
      | communityRef => exact readText_absent_iff.mpr h.no_community_ref
      | extCommunityRef => exact readText_absent_iff.mpr h.no_extCommunity_ref
      | origin => exact readText_absent_iff.mpr h.no_origin
      | localPref => exact readNumber_eq _
      | nextHop => exact readNextHop_eq _
      | med => exact readMed_iff.mpr h.med_text
      | tag => exact readText_absent_iff.mpr h.no_tag

/-- **When a statement keeps its meaning.**  A statement that is to do something, and that gobgp
takes once it is translated, means the same before and after the translation, whatever
requirements and effects mean, exactly if it is translatable. -/
theorem statement_meaning_iff (hlen : Api.LengthTypes lengthTypes) {sets : Sets}
    (hacts : (s.fields families sets).Acts)
    {r : Rule (Attribute × Requirement) (Target × Effect)}
    (htaken : ruleOf ((toStatementApi families s).fields lengthTypes sets) = some r) :
    Fields.Agree (ruleOf (s.fields families sets))
        (ruleOf ((toStatementApi families s).fields lengthTypes sets)) ↔ Translatable families s := by
  rw [← fields_alike_iff hlen sets]
  exact Fields.agree_iff Attribute.mem_every Target.mem_every hacts htaken

end Statement

/-- The remainder by three. -/
def byThree (lengthType : Int) : Option Comparison :=
  if lengthType = 0 ∨ lengthType = 3 then some .eq
  else if lengthType = 1 ∨ lengthType = 4 then some .ge
  else if lengthType = 2 ∨ lengthType = 5 then some .le
  else none

theorem lengthTypes_byThree : Api.LengthTypes byThree := by
  constructor <;> decide

/-- Routes of a set are accepted, with a local preference. -/
def preferred : Statement where
  conditions := { matchPrefixSet := { set := "lan", matchSetOptions := "invert" } }
  actions := { routeDisposition := "accept-route", bgpActions := { setLocalPref := 200 } }

/-- The same, of the routes with another local preference only. -/
def preferredAgain : Statement :=
  { preferred with
    conditions := { preferred.conditions with bgpConditions := { localPrefEq := 100 } } }

theorem translatable_preferred : Translatable (fun _ => none) preferred := by
  constructor <;>
    simp [preferred, RestrictedOption, CommunityOption, PrependText, MedText, trimSpace]

/-- The condition on the local preference is lost: gobgp takes the statement, and it means what it
means without the condition. -/
theorem statement_meaning_iff_dropped :
    Fields.Agree (ruleOf (preferred.fields (fun _ => none) fun _ _ => []))
        (ruleOf ((toStatementApi (fun _ => none) preferred).fields byThree fun _ _ => [])) ∧
      toStatementApi (fun _ => none) preferredAgain = toStatementApi (fun _ => none) preferred ∧
      ¬ Fields.Agree (ruleOf (preferredAgain.fields (fun _ => none) fun _ _ => []))
        (ruleOf ((toStatementApi (fun _ => none) preferredAgain).fields byThree fun _ _ => [])) := by
  refine ⟨(statement_meaning_iff lengthTypes_byThree (.inr (by decide)) rfl).mpr translatable_preferred, rfl,
    fun h => ?_⟩
  have hlost := (statement_meaning_iff lengthTypes_byThree (.inr (by decide)) rfl).mp h
  exact absurd hlost.no_local_pref_eq (by decide)

end OpenELB.BgpPolicy
