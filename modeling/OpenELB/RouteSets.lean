import OpenELB.Gobgp
import Mathlib.Data.Set.Function
import Mathlib.Tactic.Tauto

/-! # The routes of an address

`setBalancer` compares the next hops it is given with the texts of the addresses it
reads back, and deletes by the identifier of such a text.  So it is exact as long as the
paths of the prefix carry their next hops in the text that `IP.String` gives
(`routes_exact`); a path that was added under another text of the same address is
neither replaced nor deleted (`other_text_kept`). -/
namespace OpenELB.Bgp
open Go Prog

/-! ## Next hops by identifier -/

/-- The prefix has one path for each next hop of the set, under its identifier, and no
other. -/
def Holds (rib : Rib) (k : Key) (S : Set String) : Prop :=
  ∀ id o, (rib.get k id).map (·.nexthop) = some o ↔ ∃ n ∈ S, o = some n ∧ id = getPathIdentifier n

namespace Holds
variable {rib : Rib} {k : Key} {S : Set String} {n : String} {q : ApiPath}

theorem nexthops_eq (h : Holds rib k S) : rib.nexthops k = S := by
  ext n
  constructor
  · rintro ⟨id, p, hp, hn⟩
    obtain ⟨m, hm, he, -⟩ := (h id (some n)).mp (by rw [hp, Option.map_some, hn])
    cases he
    exact hm
  · intro hn
    have hget := (h (getPathIdentifier n) (some n)).mpr ⟨n, hn, rfl, rfl⟩
    obtain ⟨p, hp, hpn⟩ := Option.map_eq_some_iff.mp hget
    exact ⟨_, p, hp, hpn⟩

theorem add (h : Holds rib k S) (hinj : Set.InjOn getPathIdentifier (insert n S))
    (hkey : q.key = k) (hn : q.nexthop = some n) (hid : q.identifier = getPathIdentifier n) :
    Holds (rib.add q) k (insert n S) := by
  intro id o
  rw [Rib.get_add, hkey, hid]
  by_cases hq : id = getPathIdentifier n
  · subst hq
    simp only [and_self, if_true, Option.map_some, hn, Option.some.injEq]
    constructor
    · rintro rfl
      exact ⟨n, Set.mem_insert n S, rfl, rfl⟩
    · rintro ⟨m, hm, rfl, he⟩
      rw [hinj (Set.mem_insert n S) hm he]
  · rw [if_neg fun hc => hq hc.2, h id o]
    constructor
    · rintro ⟨m, hm, hrest⟩
      exact ⟨m, Set.mem_insert_of_mem n hm, hrest⟩
    · rintro ⟨m, hm, ho, he⟩
      rcases Set.mem_insert_iff.mp hm with rfl | hm
      · exact absurd he hq
      · exact ⟨m, hm, ho, he⟩

theorem delete (h : Holds rib k S) (hinj : Set.InjOn getPathIdentifier (insert n S))
    (hkey : q.key = k) (hid : q.identifier = getPathIdentifier n) :
    Holds (rib.delete q) k (S \ {n}) := by
  intro id o
  rw [Rib.get_delete, hkey, hid]
  by_cases hq : id = getPathIdentifier n
  · subst hq
    simp only [and_self, if_true, Option.map_none, reduceCtorEq, false_iff]
    rintro ⟨m, ⟨hm, hne⟩, -, he⟩
    exact hne (hinj (Set.mem_insert n S) (Set.mem_insert_of_mem n hm) he).symm
  · rw [if_neg fun hc => hq hc.2, h id o]
    constructor
    · rintro ⟨m, hm, ho, rfl⟩
      exact ⟨m, ⟨hm, fun he => hq (by rw [he])⟩, ho, rfl⟩
    · rintro ⟨m, ⟨hm, -⟩, hrest⟩
      exact ⟨m, hm, hrest⟩

end Holds

/-! ## What is added and deleted -/

/-- Only the table has changed, and in it only the prefix. -/
def SameBut (k : Key) (s s' : BgpState) : Prop :=
  s'.as = s.as ∧ s'.rack = s.rack ∧ ∀ k' id, k' ≠ k → s'.rib.get k' id = s.rib.get k' id

theorem SameBut.refl (k : Key) (s : BgpState) : SameBut k s s := ⟨rfl, rfl, fun _ _ _ => rfl⟩

theorem SameBut.trans {k : Key} {s s' s'' : BgpState} (h : SameBut k s s') (h' : SameBut k s' s'') :
    SameBut k s s'' :=
  ⟨h'.1.trans h.1, h'.2.1.trans h.2.1,
    fun k' id hk => (h'.2.2 k' id hk).trans (h.2.2 k' id hk)⟩

theorem sameBut_add {k : Key} {q : ApiPath} (hq : q.key = k) (s : BgpState) :
    SameBut k s { s with rib := s.rib.add q } := by
  refine ⟨rfl, rfl, fun k' id hk => ?_⟩
  rw [Rib.get_add, if_neg fun h => hk (h.1.trans hq)]

theorem sameBut_delete {k : Key} {q : ApiPath} (hq : q.key = k) (s : BgpState) :
    SameBut k s { s with rib := s.rib.delete q } := by
  refine ⟨rfl, rfl, fun k' id hk => ?_⟩
  rw [Rib.get_delete, if_neg fun h => hk (h.1.trans hq)]

theorem key_toAPIPath (ip n : String) : (toAPIPath ip (hostLen ip) n).key = hostKey ip := rfl

section Loops
variable {ip : String} {s : BgpState} {S : Set String}

/-- Adding paths, for next hops whose identifiers do not clash. -/
theorem wp_addMultiRoutes {nexthops : List String} (h : Holds s.rib (hostKey ip) S)
    (hinj : Set.InjOn getPathIdentifier ({n | n ∈ nexthops} ∪ S)) :
    Wp bgpExec (either (fun _ s' => SameBut (hostKey ip) s s' ∧
        Holds s'.rib (hostKey ip) ({n | n ∈ nexthops} ∪ S)) fun _ _ => True)
      (addMultiRoutes ip (hostLen ip) nexthops).run s := by
  induction nexthops generalizing s S with
  | nil =>
    refine ⟨SameBut.refl _ s, ?_⟩
    simpa using h
  | cons n nexthops ih =>
    have hset : {m | m ∈ n :: nexthops} ∪ S = {m | m ∈ nexthops} ∪ insert n S := by
      ext m
      simp only [Set.mem_union, Set.mem_ofPred_eq, List.mem_cons, Set.mem_insert_iff]
      tauto
    rw [hset] at hinj ⊢
    rintro r s₁ (⟨rfl, rfl⟩ | ⟨⟨e, rfl⟩, rfl⟩)
    · have hadd : Holds (s.rib.add (toAPIPath ip (hostLen ip) n)) (hostKey ip) (insert n S) :=
        h.add (hinj.mono Set.subset_union_right) rfl rfl rfl
      refine (ih hadd hinj).mono fun r s₂ hr => ?_
      cases r with
      | error _ => trivial
      | ok _ => exact ⟨(sameBut_add (key_toAPIPath ip n) s).trans hr.1, hr.2⟩
    · trivial

/-- Deleting paths, for next hops whose identifiers do not clash. -/
theorem wp_deleteMultiRoutes {nexthops : List String} (h : Holds s.rib (hostKey ip) S)
    (hinj : Set.InjOn getPathIdentifier ({n | n ∈ nexthops} ∪ S)) :
    Wp bgpExec (either (fun _ s' => SameBut (hostKey ip) s s' ∧
        Holds s'.rib (hostKey ip) (S \ {n | n ∈ nexthops})) fun _ _ => True)
      (deleteMultiRoutes ip (hostLen ip) nexthops).run s := by
  induction nexthops generalizing s S with
  | nil =>
    refine ⟨SameBut.refl _ s, ?_⟩
    simpa using h
  | cons n nexthops ih =>
    have hset : S \ {m | m ∈ n :: nexthops} = (S \ {n}) \ {m | m ∈ nexthops} := by
      ext m
      simp only [Set.mem_sdiff, Set.mem_ofPred_eq, List.mem_cons, Set.mem_singleton_iff]
      tauto
    rw [hset]
    rintro r s₁ (⟨rfl, rfl⟩ | ⟨⟨e, rfl⟩, rfl⟩)
    · have hdel : Holds (s.rib.delete (toAPIPath ip (hostLen ip) n)) (hostKey ip) (S \ {n}) := by
        refine h.delete (hinj.mono ?_) rfl rfl
        exact Set.insert_subset (Or.inl List.mem_cons_self) Set.subset_union_right
      refine (ih hdel (hinj.mono ?_)).mono fun r s₂ hr => ?_
      · exact Set.union_subset_union (fun m hm => List.mem_cons_of_mem n hm) Set.sdiff_subset
      · cases r with
        | error _ => trivial
        | ok _ => exact ⟨(sameBut_delete (key_toAPIPath ip n) s).trans hr.1, hr.2⟩
    · trivial

end Loops

/-! ## Comparing -/

/-- An IPv4 address in the text that `IP.String` gives. -/
def CanonicalV4 (n : String) : Prop := isV4 n = true ∧ ipString ((parseIP n).getD []) = n

instance (n : String) : Decidable (CanonicalV4 n) := inferInstanceAs (Decidable (_ ∧ _))

theorem isSome_keySet {keys : List String} {key : String} :
    ((keySet keys).get key).isSome ↔ key ∈ keys := by
  have hfold : ∀ (l : List String) (m : Map String Bool),
      ((l.foldl (fun m key => m.set key true) m).get key).isSome ↔
        key ∈ l ∨ (m.get key).isSome := by
    intro l
    induction l with
    | nil => simp
    | cons a l ih =>
      intro m
      rw [List.foldl_cons, ih, Map.get_set, List.mem_cons]
      by_cases h : key = a
      · simp [h]
      · simp [h]
  rw [keySet, hfold, Map.get_empty]
  simp

theorem isNone_keySet {keys : List String} {key : String} :
    ((keySet keys).get key).isNone ↔ key ∉ keys := by
  rw [← isSome_keySet, Option.isNone_iff_eq_none, Option.not_isSome_iff_eq_none]

section Compare
variable {ip : String} {s : BgpState} {S : Set String} {nexthops : List String}

/-- The callback finds the next hops that are new and those that are no longer there. -/
theorem wp_compareRoutes {paths : List ApiPath}
    (h : ∀ n, n ∈ paths.map (fun path => ipString (fromAPIPath path)) ↔ n ∈ S) :
    Wp bgpExec (either (fun x s' => s' = s ∧ {n | n ∈ x.1} = {n | n ∈ nexthops} \ S ∧
        {n | n ∈ x.2} = S \ {n | n ∈ nexthops}) fun _ s' => s' = s)
      (compareRoutes paths nexthops).run s := by
  rintro olds s₁ ⟨holds, rfl⟩ keys s₂ ⟨hkeys, rfl⟩
  refine ⟨rfl, ?_, ?_⟩
  · ext n
    simp only [Set.mem_ofPred_eq, List.mem_filter, Set.mem_sdiff, hkeys.2, isSome_keySet,
      isNone_keySet, h n]
  · ext n
    simp only [Set.mem_ofPred_eq, List.mem_filter, Set.mem_sdiff, holds.2, isSome_keySet,
      isNone_keySet, h n]

/-- A list of IPv4 paths with IPv4 next hops is reported as it is. -/
theorem eq_of_reported {ps qs : List ApiPath} (h : List.Forall₂ Reported ps qs)
    (hps : ∀ p ∈ ps, isV4 p.addr = true ∧ ∀ n, p.nexthop = some n → isV4 n = true) : qs = ps := by
  induction h with
  | nil => rfl
  | cons hq _ ih =>
    obtain ⟨hp, hrest⟩ := List.forall_mem_cons.mp hps
    rw [hq.2.2.2 hp.1 hp.2, ih hrest]

theorem isV4_of_key {p : ApiPath} (h : p.key = hostKey ip) : isV4 p.addr = isV4 ip := by
  have haddr : parseIP p.addr = parseIP ip := congrArg Prod.fst h
  rw [isV4, haddr, isV4]

/-- `retriveRoutes` compares with what the prefix holds. -/
theorem wp_retriveRoutes (hip : isV4 ip = true) (h : Holds s.rib (hostKey ip) S)
    (hS : ∀ n ∈ S, CanonicalV4 n) :
    Wp bgpExec (either (fun x s' => s' = s ∧ {n | n ∈ x.1} = {n | n ∈ nexthops} \ S ∧
        {n | n ∈ x.2} = S \ {n | n ∈ nexthops}) fun _ s' => s' = s)
      (retriveRoutes ip nexthops).run s := by
  rintro r s₁ ⟨⟨e, rfl⟩ | ⟨rfl, hnone⟩ | ⟨ps, qs, hps, hqs, rfl⟩, rfl⟩
  · exact rfl
  · have hempty : S = ∅ := by
      rw [Set.eq_empty_iff_forall_notMem]
      intro n hn
      have hget := (h (getPathIdentifier n) (some n)).mpr ⟨n, hn, rfl, rfl⟩
      rw [hnone] at hget
      cases hget
    refine ⟨rfl, ?_, ?_⟩
    · rw [hempty, Set.sdiff_empty]
    · ext n
      simp [hempty]
  · -- every path of the prefix is one for a next hop of the set
    have hpath : ∀ p ∈ ps, p.key = hostKey ip ∧ ∃ n ∈ S, p.nexthop = some n := by
      intro p hp
      obtain ⟨id, hget⟩ := hps.mem_iff.mp hp
      refine ⟨(congrArg Prod.fst (s₁.rib.keyed _ p hget)).symm, ?_⟩
      obtain ⟨n, hn, hpn, -⟩ := (h id p.nexthop).mp (by rw [hget]; rfl)
      exact ⟨n, hn, hpn⟩
    have hsame : qs = ps := by
      refine eq_of_reported hqs fun p hp => ?_
      obtain ⟨hkey, n, hn, hpn⟩ := hpath p hp
      refine ⟨(isV4_of_key hkey).trans hip, fun m hm => ?_⟩
      rw [hpn] at hm
      cases hm
      exact (hS n hn).1
    subst hsame
    refine wp_compareRoutes fun n => ?_
    rw [List.mem_map]
    constructor
    · rintro ⟨p, hp, rfl⟩
      obtain ⟨-, m, hm, hpm⟩ := hpath p hp
      rw [fromAPIPath, hpm, Option.bind_some, (hS m hm).2]
      exact hm
    · intro hn
      have hget := (h (getPathIdentifier n) (some n)).mpr ⟨n, hn, rfl, rfl⟩
      obtain ⟨p, hp, hpn⟩ := Option.map_eq_some_iff.mp hget
      refine ⟨p, hps.mem_iff.mpr ⟨_, hp⟩, ?_⟩
      have hpn : p.nexthop = some n := hpn
      rw [fromAPIPath, hpn, Option.bind_some, (hS n hn).2]

/-- **`setBalancer` makes the next hops of the prefix the given ones.** -/
theorem wp_setBalancer (hip : isV4 ip = true) (h : Holds s.rib (hostKey ip) S)
    (hS : ∀ n ∈ S, CanonicalV4 n)
    (hinj : Set.InjOn getPathIdentifier ({n | n ∈ nexthops} ∪ S)) :
    Wp bgpExec (either (fun _ s' => SameBut (hostKey ip) s s' ∧
        Holds s'.rib (hostKey ip) {n | n ∈ nexthops}) fun _ _ => True)
      (setBalancer ip nexthops).run s := by
  refine wp_except_bind.mpr ((wp_retriveRoutes hip h hS).mono fun r s₁ hr => ?_)
  cases r with
  | error _ => trivial
  | ok x =>
    obtain ⟨toAdd, toDelete⟩ := x
    obtain ⟨rfl, hadd, hdel⟩ := hr
    replace hadd : {n | n ∈ toAdd} = {n | n ∈ nexthops} \ S := hadd
    replace hdel : {n | n ∈ toDelete} = S \ {n | n ∈ nexthops} := hdel
    have hunion : {n | n ∈ toAdd} ∪ S = {n | n ∈ nexthops} ∪ S := by
      rw [hadd, Set.sdiff_union_self]
    refine wp_except_bind.mpr ((wp_addMultiRoutes h (by rwa [hunion])).mono fun r s₂ hr => ?_)
    cases r with
    | error _ => trivial
    | ok _ =>
      obtain ⟨hsame, hholds⟩ := hr
      rw [hunion] at hholds
      have hsub : {n | n ∈ toDelete} ∪ ({n | n ∈ nexthops} ∪ S) ⊆ {n | n ∈ nexthops} ∪ S := by
        rw [hdel]
        exact Set.union_subset (Set.sdiff_subset.trans Set.subset_union_right) (Set.Subset.refl _)
      refine (wp_deleteMultiRoutes hholds (hinj.mono hsub)).mono fun r s₃ hr => ?_
      cases r with
      | error _ => trivial
      | ok _ =>
        refine ⟨hsame.trans hr.1, ?_⟩
        have hrest : ({n | n ∈ nexthops} ∪ S) \ {n | n ∈ toDelete} = {n | n ∈ nexthops} := by
          rw [hdel]
          ext n
          simp only [Set.mem_sdiff, Set.mem_union, Set.mem_ofPred_eq]
          tauto
        rw [← hrest]
        exact hr.2

end Compare

/-! ## Nothing to do -/

/-- The calls that change the table. -/
def BgpCall.changes : BgpCall → Bool
  | .addPath _ | .deletePath _ | .stopBgp | .startBgp _ _ => true
  | _ => false

theorem retriveRoutes_all (ip : String) (nexthops : List String) :
    (retriveRoutes ip nexthops).run.All fun c => c.changes = false := by
  refine ⟨rfl, fun r => all_except_bind trivial fun dest => ?_⟩
  cases dest with
  | none => trivial
  | some paths => exact ⟨rfl, fun olds => ⟨rfl, fun keys => trivial⟩⟩

/-- When the prefix has the given next hops already, `setBalancer` changes nothing. -/
theorem run_setBalancer_settled {ip : String} {nexthops : List String} {s s' : BgpState}
    {l : List (Event BgpCall BgpReply)} {r : Except Err Unit} (hip : isV4 ip = true)
    (h : Holds s.rib (hostKey ip) {n | n ∈ nexthops}) (hn : ∀ n ∈ nexthops, CanonicalV4 n)
    (hrun : Run bgpExec s (setBalancer ip nexthops).run l r s') :
    s' = s ∧ ∀ ev ∈ l, ev.call.changes = false := by
  obtain ⟨l₁, l₂, a, s₁, h₁, h₂, rfl⟩ := run_bind_iff.mp hrun
  have hread := (retriveRoutes_all ip nexthops).of_run h₁
  have hspec := (wp_retriveRoutes hip h hn).of_run h₁
  cases a with
  | error e =>
    obtain ⟨rfl, rfl, rfl⟩ := run_ret_iff.mp h₂
    rw [List.append_nil]
    exact ⟨hspec, hread⟩
  | ok x =>
    obtain ⟨toAdd, toDelete⟩ := x
    obtain ⟨rfl, hadd, hdel⟩ := hspec
    replace hadd : {n | n ∈ toAdd} = {n | n ∈ nexthops} \ {n | n ∈ nexthops} := hadd
    replace hdel : {n | n ∈ toDelete} = {n | n ∈ nexthops} \ {n | n ∈ nexthops} := hdel
    rw [Set.sdiff_self, Set.eq_empty_iff_forall_notMem] at hadd hdel
    obtain rfl : toAdd = [] := List.eq_nil_iff_forall_not_mem.mpr hadd
    obtain rfl : toDelete = [] := List.eq_nil_iff_forall_not_mem.mpr hdel
    obtain ⟨rfl, rfl, rfl⟩ := run_ret_iff.mp h₂
    rw [List.append_nil]
    exact ⟨rfl, hread⟩

/-! ## Withdrawing -/

theorem wp_ready {s : BgpState} (h : s.as ≠ 0) :
    Wp bgpExec (fun r s' => r = .ok () ∧ s' = s) ready.run s := by
  rintro r s₁ ⟨rfl | ⟨h0, -⟩, rfl⟩
  · show Wp bgpExec _ (if s₁.as = 0 then _ else _ : BgpCode Unit).run s₁
    rw [if_neg h]
    exact ⟨rfl, rfl⟩
  · exact absurd h0 h

/-- Deleting the paths of a list takes their identifiers out. -/
theorem wp_deletePaths {k : Key} {paths : List ApiPath} {s : BgpState}
    (hkey : ∀ p ∈ paths, p.key = k) :
    Wp bgpExec (either (fun _ s' => SameBut k s s' ∧ ∀ id, s'.rib.get k id =
        if id ∈ paths.map (·.identifier) then none else s.rib.get k id) fun _ _ => True)
      (deletePaths paths).run s := by
  induction paths generalizing s with
  | nil => exact ⟨SameBut.refl k s, fun id => by simp⟩
  | cons p paths ih =>
    obtain ⟨hp, hrest⟩ := List.forall_mem_cons.mp hkey
    rintro r s₁ (⟨rfl, rfl⟩ | ⟨⟨e, rfl⟩, rfl⟩)
    · refine (ih hrest).mono fun r s₂ hr => ?_
      cases r with
      | error _ => trivial
      | ok _ =>
        refine ⟨(sameBut_delete hp s).trans hr.1, fun id => ?_⟩
        rw [hr.2 id, Rib.get_delete, hp, List.map_cons]
        by_cases hid : id = p.identifier
        · simp [hid]
        · simp [hid]
    · trivial

theorem map_of_reported {ps qs : List ApiPath} (h : List.Forall₂ Reported ps qs) :
    qs.map ApiPath.key = ps.map ApiPath.key ∧
      qs.map (·.identifier) = ps.map (·.identifier) := by
  induction h with
  | nil => exact ⟨rfl, rfl⟩
  | @cons p q ps qs hq _ ih =>
    have hkey : q.key = p.key := by rw [ApiPath.key, ApiPath.key, hq.1, hq.2.1]
    exact ⟨by rw [List.map_cons, List.map_cons, hkey, ih.1],
      by rw [List.map_cons, List.map_cons, hq.2.2.1, ih.2]⟩

theorem wp_withdrawRoutes {ip : String} {s : BgpState} :
    Wp bgpExec (either (fun _ s' => SameBut (hostKey ip) s s' ∧
        ∀ id, s'.rib.get (hostKey ip) id = none) fun _ _ => True)
      (withdrawRoutes ip).run s := by
  rintro r s₂ ⟨⟨e, rfl⟩ | ⟨rfl, hnone⟩ | ⟨ps, qs, hps, hqs, rfl⟩, rfl⟩
  · trivial
  · exact ⟨SameBut.refl _ _, hnone⟩
  · obtain ⟨hkeys, hids⟩ := map_of_reported hqs
    have hkey : ∀ q ∈ qs, q.key = hostKey ip := by
      intro q hq
      obtain ⟨p, hp, hpq⟩ := List.mem_map.mp (hkeys ▸ List.mem_map_of_mem hq)
      obtain ⟨id, hget⟩ := hps.mem_iff.mp hp
      exact hpq.symm.trans (congrArg Prod.fst (s₂.rib.keyed _ p hget)).symm
    refine (wp_deletePaths hkey).mono fun r s₃ hr => ?_
    cases r with
    | error _ => trivial
    | ok _ =>
      refine ⟨hr.1, fun id => ?_⟩
      rw [hr.2 id, hids]
      split
      · rfl
      · -- a path that is left would have been listed
        rename_i hid
        cases hget : s₂.rib.get (hostKey ip) id with
        | none => rfl
        | some p =>
          have hpid : id = p.identifier := congrArg Prod.snd (s₂.rib.keyed _ p hget)
          exact absurd (hpid ▸ List.mem_map_of_mem (hps.mem_iff.mpr ⟨id, hget⟩)) hid

/-- **`DelBalancer` leaves no path**, of whatever table. -/
theorem wp_delBalancer {ip : String} {s : BgpState} (h : s.as ≠ 0) :
    Wp bgpExec (either (fun _ s' => SameBut (hostKey ip) s s' ∧
        ∀ id, s'.rib.get (hostKey ip) id = none) fun _ _ => True)
      (delBalancer ip).run s := by
  refine wp_except_bind.mpr (wp_attempt.mpr ((wp_ready h).mono fun r s₁ hr => ?_))
  obtain ⟨rfl, rfl⟩ := hr
  exact wp_withdrawRoutes

/-! ## The routes are exact -/

/-- Paths that were built by `toAPIPath` are held under the identifiers of their next
hops. -/
theorem holds_of_built {rib : Rib} {k : Key}
    (h : ∀ id p, rib.get k id = some p → ∃ ip len n, p = toAPIPath ip len n) :
    Holds rib k (rib.nexthops k) := by
  intro id o
  constructor
  · intro ho
    obtain ⟨p, hp, rfl⟩ := Option.map_eq_some_iff.mp ho
    obtain ⟨ip, len, n, rfl⟩ := h id p hp
    exact ⟨n, ⟨id, _, hp, rfl⟩, rfl, congrArg Prod.snd (rib.keyed _ _ hp)⟩
  · rintro ⟨n, ⟨id', p, hp, hn⟩, rfl, rfl⟩
    obtain ⟨ip, len, m, rfl⟩ := h id' p hp
    cases hn
    have hid : id' = getPathIdentifier n := congrArg Prod.snd (rib.keyed _ _ hp)
    rw [← hid, hp]
    rfl

/-- **The routes of an IPv4 address are exact**, from any table whose paths for it were
built by `toAPIPath` from IPv4 next hops in canonical text.  If `setBalancer` returns
nil, the next hops of the prefix are the given ones and every other prefix is
unchanged; `setBalancer` with the same next hops in another order then changes nothing;
and `DelBalancer`, if BGP is running and it returns nil, leaves no path. -/
theorem routes_exact {ip : String} {nexthops : List String} {s s' : BgpState}
    {l : List (Event BgpCall BgpReply)} (hip : isV4 ip = true)
    (hnext : ∀ n ∈ nexthops, CanonicalV4 n)
    (hrib : ∀ id p, s.rib.get (hostKey ip) id = some p →
      ∃ ip' len n, p = toAPIPath ip' len n ∧ CanonicalV4 n)
    (hinj : Set.InjOn getPathIdentifier ({n | n ∈ nexthops} ∪ s.rib.nexthops (hostKey ip)))
    (hrun : Run bgpExec s (setBalancer ip nexthops).run l (.ok ()) s') :
    s'.rib.nexthops (hostKey ip) = {n | n ∈ nexthops} ∧
    (∀ k id, k ≠ hostKey ip → s'.rib.get k id = s.rib.get k id) ∧
    (∀ nexthops', nexthops'.Perm nexthops → ∀ l' r s'',
      Run bgpExec s' (setBalancer ip nexthops').run l' r s'' →
      s'' = s' ∧ ∀ ev ∈ l', ev.call.changes = false) ∧
    (s'.as ≠ 0 → ∀ l' s'', Run bgpExec s' (delBalancer ip).run l' (.ok ()) s'' →
      ∀ id, s''.rib.get (hostKey ip) id = none) := by
  have hholds : Holds s.rib (hostKey ip) (s.rib.nexthops (hostKey ip)) := by
    refine holds_of_built fun id p hp => ?_
    obtain ⟨ip', len, n, he, -⟩ := hrib id p hp
    exact ⟨ip', len, n, he⟩
  have hcanon : ∀ n ∈ s.rib.nexthops (hostKey ip), CanonicalV4 n := by
    rintro n ⟨id, p, hp, hn⟩
    obtain ⟨ip', len, m, rfl, hm⟩ := hrib id p hp
    cases hn
    exact hm
  obtain ⟨hsame, hafter⟩ := (wp_setBalancer hip hholds hcanon hinj).of_run hrun
  refine ⟨hafter.nexthops_eq, fun k id hk => hsame.2.2 k id hk, ?_, ?_⟩
  · intro nexthops' hperm l' r s'' hrun'
    have hset : {n | n ∈ nexthops} = {n | n ∈ nexthops'} := Set.ext fun n => hperm.mem_iff.symm
    rw [hset] at hafter
    exact run_setBalancer_settled hip hafter (fun n hn => hnext n (hperm.mem_iff.mp hn)) hrun'
  · intro has l' s'' hrun'
    exact ((wp_delBalancer has).of_run hrun').2

/-- An address with one next hop gets a second one. -/
theorem routes_exact_secondHop :
    let s : BgpState := { as := 65000, rib := Rib.empty.add (toAPIPath "192.0.2.1" 32 "10.0.0.1") }
    ∃ l s', Run bgpExec s (setBalancer "192.0.2.1" ["10.0.0.2", "10.0.0.1"]).run l (.ok ()) s' ∧
      s'.rib.nexthops (hostKey "192.0.2.1") = {n | n ∈ ["10.0.0.2", "10.0.0.1"]} := by
  intro s
  have heval : (Prog.eval (bgpRun ["10.0.0.1", "10.0.0.2"] [getPathIdentifier "10.0.0.1"])
      (setBalancer "192.0.2.1" ["10.0.0.2", "10.0.0.1"]).run s).map (·.1) = some (.ok ()) := by
    decide +kernel
  obtain ⟨⟨r, s'⟩, hx, rfl⟩ := Option.map_eq_some_iff.mp heval
  obtain ⟨l, hrun⟩ := run_eval exec_of_bgpRun hx
  -- the table has the one path
  have hget : ∀ id p, s.rib.get (hostKey "192.0.2.1") id = some p →
      p = toAPIPath "192.0.2.1" 32 "10.0.0.1" := by
    intro id p hp
    rw [Rib.get_add] at hp
    split at hp
    · exact (Option.some.inj hp).symm
    · rw [Rib.get, Rib.empty, Map.get_empty] at hp
      cases hp
  have hsub : {n | n ∈ ["10.0.0.2", "10.0.0.1"]} ∪ s.rib.nexthops (hostKey "192.0.2.1") ⊆
      ({"10.0.0.1", "10.0.0.2"} : Set String) := by
    rintro n (hn | ⟨id, p, hp, hpn⟩)
    · rcases List.mem_pair.mp hn with rfl | rfl
      · exact Or.inr rfl
      · exact Or.inl rfl
    · rw [hget id p hp] at hpn
      cases hpn
      exact Or.inl rfl
  refine ⟨l, s', hrun, (routes_exact ?_ ?_ ?_ (Set.InjOn.mono hsub ?_) hrun).1⟩
  · decide +kernel
  · decide +kernel
  · exact fun id p hp => ⟨_, _, _, hget id p hp, by decide +kernel⟩
  · have hne : getPathIdentifier "10.0.0.1" ≠ getPathIdentifier "10.0.0.2" := by decide +kernel
    rintro a (rfl | rfl) b (rfl | rfl) hab
    · rfl
    · exact absurd hab hne
    · exact absurd hab.symm hne
    · rfl

/-- **A path under another text of its next hop is kept.**  The next hop is the address
10.0.0.1, written as an IPv6 one.  `setBalancer` without next hops reads it back as
10.0.0.1, deletes the path with the identifier of that text, which is not there, and
returns nil. -/
theorem other_text_kept :
    let s : BgpState :=
      { as := 65000, rib := Rib.empty.add (toAPIPath "192.0.2.1" 32 "::ffff:10.0.0.1") }
    ∃ l s', Run bgpExec s (setBalancer "192.0.2.1" []).run l (.ok ()) s' ∧
      s'.rib.get (hostKey "192.0.2.1") (getPathIdentifier "::ffff:10.0.0.1") =
        some (toAPIPath "192.0.2.1" 32 "::ffff:10.0.0.1") := by
  intro s
  have heval : (Prog.eval (bgpRun ["10.0.0.1"] [getPathIdentifier "::ffff:10.0.0.1"])
      (setBalancer "192.0.2.1" []).run s).map (fun x => (x.1, x.2.rib.get (hostKey "192.0.2.1")
        (getPathIdentifier "::ffff:10.0.0.1"))) =
      some (.ok (), some (toAPIPath "192.0.2.1" 32 "::ffff:10.0.0.1")) := by
    decide +kernel
  obtain ⟨⟨r, s'⟩, hx, he⟩ := Option.map_eq_some_iff.mp heval
  obtain ⟨rfl, hget⟩ := Prod.mk.inj he
  obtain ⟨l, hrun⟩ := run_eval exec_of_bgpRun hx
  exact ⟨l, s', hrun, hget⟩

end OpenELB.Bgp
