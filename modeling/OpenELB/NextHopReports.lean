import OpenELB.GoCidr
import OpenELB.RouteSets

/-! # Next hops as gobgp reports them

`toAPIPath` puts every next hop into a `NextHopAttribute`, and `fromAPIPath` reads that
attribute alone.  gobgp reports the next hop of an IPv6 prefix in another attribute
(`report`), so it is not read back: the callback of `retriveRoutes` then compares with
`<nil>`, the text of no address (`wp_retriveRoutes_ip6`). -/
namespace OpenELB.Bgp
open Go Prog

/-! ## One path -/

section Paths
variable {ip n : String} {len : Nat} {p : ApiPath}

theorem fromAPIPath_report (hip : isV4 ip = true) (hn : isV4 n = true) :
    fromAPIPath (report (toAPIPath ip len n)) = (parseIP n).getD [] := by
  have hsame : report (toAPIPath ip len n) = toAPIPath ip len n :=
    if_pos ⟨hip, hn⟩
  rw [hsame]
  rfl

/-- The next hop of an IPv6 prefix is not found. -/
theorem fromAPIPath_report_ip6 (hp : isV4 p.addr = false) : fromAPIPath (report p) = [] := by
  rw [report, if_neg fun h => by rw [hp] at h; exact Bool.false_ne_true h.1]
  rfl

/-- The round trip of one next hop. -/
theorem fromAPIPath_report_iff (hn : (parseIP n).isSome) (hsame : isV4 ip = isV4 n) :
    fromAPIPath (report (toAPIPath ip len n)) = (parseIP n).getD [] ↔ isV4 ip = true := by
  constructor
  · intro h
    by_contra hip
    rw [Bool.not_eq_true] at hip
    obtain ⟨x, hx⟩ := Option.isSome_iff_exists.mp hn
    have hnil : fromAPIPath (report (toAPIPath ip len n)) = [] := fromAPIPath_report_ip6 hip
    rw [hnil, hx, Option.getD_some] at h
    have hlen := length_parseIP hx
    rw [← h, List.length_nil] at hlen
    omega
  · intro hip
    exact fromAPIPath_report hip (hsame.symm.trans hip)

end Paths

/-! ## The paths of a prefix -/

/-- What gobgp may answer and do, with the reports in full. -/
def reportExec : (c : BgpCall) → BgpState → BgpReply c → BgpState → Prop
  | .listPath _ ip, s, r, s' =>
    ((∃ e, r = .error e) ∨ r = .ok none ∧ (∀ id, s.rib.get (hostKey ip) id = none) ∨
      ∃ ps, s.rib.Lists (hostKey ip) ps ∧ r = .ok (some (ps.map report))) ∧ s' = s
  | c, s, r, s' => bgpExec c s r s'

theorem bgpExec_of_reportExec {c : BgpCall} {s s' : BgpState} {r : BgpReply c}
    (h : reportExec c s r s') : bgpExec c s r s' := by
  cases c with
  | listPath family ip =>
    obtain ⟨herr | hnone | ⟨ps, hps, rfl⟩, rfl⟩ := h
    · exact ⟨.inl herr, rfl⟩
    · exact ⟨.inr (.inl hnone), rfl⟩
    · refine ⟨.inr (.inr ⟨ps, ps.map report, hps, ?_, rfl⟩), rfl⟩
      rw [List.forall₂_map_right_iff]
      exact List.forall₂_same.mpr fun p _ => reported_report p
  | _ => exact h

/-- An IPv6 address in the text that `IP.String` gives. -/
def CanonicalV6 (n : String) : Prop :=
  (parseIP n).isSome ∧ isV4 n = false ∧ ipString ((parseIP n).getD []) = n

instance (n : String) : Decidable (CanonicalV6 n) :=
  inferInstanceAs (Decidable (_ ∧ _ ∧ _))

/-- The text of a nil address. -/
def nilText : String := ipString []

theorem CanonicalV6.ne_nilText {n : String} (h : CanonicalV6 n) : n ≠ nilText := by
  rintro rfl
  exact absurd h.1 (by decide)

section Compare
variable {ip : String} {s : BgpState} {P N : List String}

/-- The paths of an IPv6 prefix are compared as if their next hops were all `<nil>`. -/
theorem wp_retriveRoutes_ip6 (hip : isV4 ip = false)
    (hholds : Holds s.rib (hostKey ip) {n | n ∈ P}) :
    Wp reportExec (either (fun x _ =>
        {n | n ∈ x.1} = {n | n ∈ N} \ {n | n = nilText ∧ P ≠ []} ∧
        {n | n ∈ x.2} = {n | n = nilText ∧ P ≠ []} \ {n | n ∈ N}) fun _ _ => True)
      (retriveRoutes ip N).run s := by
  rintro r s₁ ⟨⟨e, rfl⟩ | ⟨rfl, hnone⟩ | ⟨ps, hps, rfl⟩, rfl⟩
  · trivial
  · -- no path is listed, so none is announced
    have hP : P = [] := by
      rw [List.eq_nil_iff_forall_not_mem]
      intro n hn
      have hget := (hholds (getPathIdentifier n) (some n)).mpr ⟨n, hn, rfl, rfl⟩
      rw [hnone] at hget
      exact absurd hget (by simp)
    have hempty : {n | n = nilText ∧ P ≠ []} = (∅ : Set String) := by
      rw [Set.eq_empty_iff_forall_notMem]
      exact fun n hn => hn.2 hP
    refine ⟨?_, ?_⟩
    · rw [hempty, Set.sdiff_empty]
    · rw [hempty, Set.empty_sdiff]
      exact Set.eq_empty_iff_forall_notMem.mpr fun n hn => absurd hn List.not_mem_nil
  · refine ((wp_compareRoutes (S := {n | n = nilText ∧ P ≠ []}) fun n => ?_).of_exec
      (I := fun _ => True) (fun c s r s' he _ => ⟨bgpExec_of_reportExec he, trivial⟩)
      trivial).mono fun r s' hr => ?_
    · rw [List.map_map, List.mem_map]
      constructor
      · rintro ⟨p, hp, rfl⟩
        obtain ⟨id, hget⟩ := hps.mem_iff.mp hp
        have hkey : p.key = hostKey ip := (congrArg Prod.fst (s₁.rib.keyed _ p hget)).symm
        refine ⟨congrArg ipString (fromAPIPath_report_ip6 ((isV4_of_key hkey).trans hip)), ?_⟩
        obtain ⟨m, hm, -⟩ := (hholds id p.nexthop).mp (by rw [hget]; rfl)
        exact List.ne_nil_of_mem hm
      · rintro ⟨rfl, hP⟩
        obtain ⟨m, hm⟩ := List.exists_mem_of_ne_nil P hP
        have hget := (hholds (getPathIdentifier m) (some m)).mpr ⟨m, hm, rfl, rfl⟩
        obtain ⟨p, hp, -⟩ := Option.map_eq_some_iff.mp hget
        have hkey : p.key = hostKey ip := (congrArg Prod.fst (s₁.rib.keyed _ p hp)).symm
        refine ⟨p, hps.mem_iff.mpr ⟨_, hp⟩, ?_⟩
        exact congrArg ipString (fromAPIPath_report_ip6 ((isV4_of_key hkey).trans hip))
    · cases r with
      | error _ => trivial
      | ok x => exact hr.1.2

end Compare

/-! ## Running code against the reports -/

/-- The answers of gobgp when nothing fails, with the reports in full. -/
def reportRun (order : List String) (ids : List UInt32) :
    (c : BgpCall) → BgpState → Option (BgpReply c × BgpState)
  | .listPath _ ip, s =>
    let found := ids.filter fun id => id ∈ s.rib.ids (hostKey ip)
    if found.Nodup ∧ found.toFinset = s.rib.ids (hostKey ip) then
      some (.ok (some ((found.filterMap (s.rib.get (hostKey ip))).map report)), s)
    else none
  | c, s => bgpRun order ids c s

theorem exec_of_reportRun {order : List String} {ids : List UInt32} (c : BgpCall) (s : BgpState)
    (r : BgpReply c) (s' : BgpState) (h : reportRun order ids c s = some (r, s')) :
    reportExec c s r s' := by
  cases c with
  | listPath family ip =>
    simp only [reportRun] at h
    split at h
    · rename_i hfound
      cases h
      refine ⟨.inr (.inr ⟨_, ⟨_, hfound.1, fun id => ?_, rfl⟩, rfl⟩), rfl⟩
      rw [← List.mem_toFinset, hfound.2, Rib.mem_ids]
    · cases h
  | _ => exact @exec_of_bgpRun order ids _ s r s' h

/-! ## What survives -/

/-- **Which next hops are read back.**  A next hop of the family of its prefix survives the
round trip through gobgp exactly if the prefix is an IPv4 one.  For an IPv6 address
`retriveRoutes` finds what is to be added and deleted exactly if nothing is announced. -/
theorem nextHops_read_back (ip : String) :
    (∀ (n : String) (len : Nat), (parseIP n).isSome → isV4 ip = isV4 n →
      (fromAPIPath (report (toAPIPath ip len n)) = (parseIP n).getD [] ↔ isV4 ip = true)) ∧
    ∀ (P N : List String) (s s' : BgpState) (l : List (Event BgpCall BgpReply))
      (toAdd toDelete : List String), isV4 ip = false →
      (∀ n ∈ P, CanonicalV6 n) → (∀ n ∈ N, CanonicalV6 n) →
      Holds s.rib (hostKey ip) {n | n ∈ P} →
      Run reportExec s (retriveRoutes ip N).run l (.ok (toAdd, toDelete)) s' →
      (({n | n ∈ toAdd} = {n | n ∈ N} \ {n | n ∈ P} ∧
        {n | n ∈ toDelete} = {n | n ∈ P} \ {n | n ∈ N}) ↔ P = []) := by
  refine ⟨fun n len hn hsame => fromAPIPath_report_iff hn hsame, ?_⟩
  intro P N s s' l toAdd toDelete hip hP hN hholds hrun
  obtain ⟨hadd, hdel⟩ := (wp_retriveRoutes_ip6 hip hholds).of_run hrun
  replace hadd : {n | n ∈ toAdd} = {n | n ∈ N} \ {n | n = nilText ∧ P ≠ []} := hadd
  replace hdel : {n | n ∈ toDelete} = {n | n = nilText ∧ P ≠ []} \ {n | n ∈ N} := hdel
  by_cases hnil : P = []
  · subst hnil
    refine iff_of_true ⟨?_, ?_⟩ rfl
    · rw [hadd]
      ext n
      simp
    · rw [hdel]
      ext n
      simp
  · refine iff_of_false (fun h => ?_) hnil
    -- `<nil>` is to be deleted, and is not announced
    have hmem : nilText ∈ {n | n ∈ toDelete} := by
      rw [hdel]
      exact ⟨⟨rfl, hnil⟩, fun hn => (hN _ hn).ne_nilText rfl⟩
    rw [h.2] at hmem
    exact (hP _ hmem.1).ne_nilText rfl

/-- The first next hop of an IPv6 address is to be added, and an IPv4 next hop is read
back. -/
theorem nextHops_read_back_first :
    fromAPIPath (report (toAPIPath "192.0.2.1" 32 "10.0.0.1")) = (parseIP "10.0.0.1").getD [] ∧
    ∃ l toAdd toDelete s', Run reportExec {} (retriveRoutes "2001:db8::1" ["fd00::1"]).run l
        (.ok (toAdd, toDelete)) s' ∧
      {n | n ∈ toAdd} = {n | n ∈ ["fd00::1"]} \ {n | n ∈ ([] : List String)} ∧
      {n | n ∈ toDelete} = {n | n ∈ ([] : List String)} \ {n | n ∈ ["fd00::1"]} := by
  have heval : (Prog.eval (reportRun ["fd00::1"] []) (retriveRoutes "2001:db8::1" ["fd00::1"]).run
      {}).map (·.1) = some (.ok (["fd00::1"], [])) := by decide +kernel
  obtain ⟨⟨r, s'⟩, hx, rfl⟩ := Option.map_eq_some_iff.mp heval
  obtain ⟨l, hrun⟩ := run_eval exec_of_reportRun hx
  have hholds : Holds ({} : BgpState).rib (hostKey "2001:db8::1") {n | n ∈ ([] : List String)} := by
    intro id o
    constructor
    · intro h
      rw [Rib.get, Rib.empty, Map.get_empty] at h
      cases h
    · rintro ⟨n, hn, -⟩
      exact absurd hn List.not_mem_nil
  refine ⟨((nextHops_read_back _).1 _ 32 ?_ ?_).mpr ?_, l, _, _, s', hrun,
    ((nextHops_read_back _).2 [] _ {} s' l _ _ ?_ ?_ ?_ hholds hrun).mpr rfl⟩
  all_goals decide +kernel

/-- **The next hop of an IPv6 address is lost.**  fd00::1 is announced and wanted: it is
not read back, so it is to be added again and a next hop `<nil>` is to be deleted. -/
theorem nextHop_lost :
    fromAPIPath (report (toAPIPath "2001:db8::1" 128 "fd00::1")) = [] ∧
    let s : BgpState := { rib := Rib.empty.add (toAPIPath "2001:db8::1" 128 "fd00::1") }
    ∃ l s', Run reportExec s (retriveRoutes "2001:db8::1" ["fd00::1"]).run l
      (.ok (["fd00::1"], ["<nil>"])) s' := by
  refine ⟨by decide +kernel, ?_⟩
  intro s
  have heval : (Prog.eval (reportRun ["fd00::1", "<nil>"] [getPathIdentifier "fd00::1"])
      (retriveRoutes "2001:db8::1" ["fd00::1"]).run s).map (·.1) =
        some (.ok (["fd00::1"], ["<nil>"])) := by
    decide +kernel
  obtain ⟨⟨r, s'⟩, hx, rfl⟩ := Option.map_eq_some_iff.mp heval
  obtain ⟨l, hrun⟩ := run_eval exec_of_reportRun hx
  exact ⟨l, s', hrun⟩

end OpenELB.Bgp
